import HackToolchain.Proofs.Codegen.Roots

/-!
# Generated lines are clean

What generated code appends to a name contains neither a slash nor a blank, and
ends in a digit.  So the lines of sound items are found again in their text.
-/

namespace HackToolchain.Codegen

open HackToolchain.Asm (KeepsLine Line)
open HackToolchain.Vm

/-! ## Symbols -/

/-- Symbols whose texts keep to their lines. -/
def Symbol.Sound : Symbol → Prop
  | register _ | cell _ => True
  | given name => isSymbol name.toList
  | static unit _ | mark unit _ _ => KeepsLine unit.toList
  | returnPoint callee _ => isSymbol callee.toList

namespace Symbol

theorem newline_notMem_numeral (number : Nat) : '\n' ∉ Text.numeral number := fun inside =>
  absurd (Line.digit_of_mem_numeral inside) (by decide)

/-- A symbol keeps to its line if the name in it does. -/
theorem keepsLine_text {symbol : Symbol} (keeps : KeepsLine symbol.root.toList) :
    KeepsLine symbol.text.toList := by
  have plain (character : Char) (member : character ∈ symbol.ending.toList) :=
    plain_of_isSymbolChar (isSymbolChar_ending symbol character member)
  rw [text_eq, String.toList_append]
  refine ⟨?_, keeps.2.append fun slash => (plain _ slash).2.2 rfl⟩
  rw [List.mem_append, not_or]
  exact ⟨keeps.1, fun newline => (plain _ newline).2.1 rfl⟩

theorem Sound.keepsLine_root {symbol : Symbol} (sound : symbol.Sound) :
    KeepsLine symbol.root.toList := by
  cases symbol with
  | register | cell => exact Asm.keepsLine_nil
  | given | returnPoint => exact keepsLine_of_isSymbol sound
  | static | mark => exact sound

theorem Sound.isSymbol_or_numbered {symbol : Symbol} (sound : symbol.Sound) :
    isSymbol symbol.text.toList ∨ symbol.isNumbered := by
  cases symbol with
  | register named => exact .inl (isSymbol_text_iff.2 (.inr ⟨rfl, by cases named <;> decide⟩))
  | cell number => exact .inl (isSymbol_text_iff.2 (.inr ⟨rfl, by simp [ending]⟩))
  | given name => exact .inl sound
  | static | mark | returnPoint => exact .inr rfl

/-- The text of a numbered symbol ends visibly, because what follows its name does. -/
theorem not_isBlank_getLast?_of_isNumbered {symbol : Symbol} (numbered : symbol.isNumbered) :
    ∀ character ∈ symbol.text.toList.getLast?, Text.isBlank character = false := by
  have more : symbol.ending ≠ "" := by
    cases symbol with
    | register | cell | given => cases numbered
    | static | mark | returnPoint => simp [ending]
  rw [text_eq, String.toList_append, List.getLast?_append_of_ne_nil _ (by simpa using more)]
  exact not_isBlank_getLast?_of_isSymbol (isSymbol_ending more)

/-- The text of a sound symbol keeps to its line, is no numeral and ends visibly. -/
theorem Sound.text {symbol : Symbol} (sound : symbol.Sound) :
    KeepsLine symbol.text.toList ∧ Text.readSigned16? symbol.text.toList = none ∧
      ∀ character ∈ symbol.text.toList.getLast?, Text.isBlank character = false := by
  refine ⟨keepsLine_text sound.keepsLine_root, ?_⟩
  rcases sound.isSymbol_or_numbered with symbolic | numbered
  · exact ⟨readSigned16?_of_isSymbol symbolic, not_isBlank_getLast?_of_isSymbol symbolic⟩
  · exact ⟨Asm.readSigned16?_of_mem (dot_mem_text numbered) rfl (by decide),
      not_isBlank_getLast?_of_isNumbered numbered⟩

end Symbol

/-! ## Lines -/

/-- The symbols that the code of a sound item mentions are sound. -/
theorem Mentioned.sound {item : Item} (sound : item.Sound) {number : Nat} {symbol : Symbol}
    (mentioned : Mentioned number item symbol) : symbol.Sound := by
  cases symbol with
  | register | cell => trivial
  | given name => exact sound.isSymbol_name mentioned.given
  | static unit index => exact sound.keepsLine_carried mentioned.static
  | mark unit place own => exact sound.keepsLine_carried mentioned.mark
  | returnPoint callee own => exact sound.isSymbol_name mentioned.returnPoint

/-- The code of a sound item is written in clean lines. -/
theorem Code.clean_ofItem {item : Item} (sound : item.Sound) (number : Nat) :
    ∀ line ∈ (ofItem number item).named, line.Clean :=
  forall_mem_named sound.valid (fun _ => trivial) (fun _ => trivial)
    (fun _ mentioned => (mentioned.sound sound).text)
    fun _ mentioned => (mentioned.sound sound).text.1

/-- The remark that shows a valid item is one line. -/
theorem newline_notMem_text {item : Item} (valid : item.Valid) :
    '\n' ∉ item.text.toList := by
  have numeral (number : Nat) : '\n' ∉ Nat.toDigits 10 number :=
    Symbol.newline_notMem_numeral number
  have name {written : String} (symbol : isSymbol written.toList) : '\n' ∉ written.toList :=
    (keepsLine_of_isSymbol symbol).1
  cases item with
  | start entry =>
      rw [Item.text]
      decide
  | command unit command =>
      rw [Item.text]
      cases command with
      | push segment index =>
          have segmentName : '\n' ∉ segment.name.toList := by cases segment <;> decide
          simp [Command.text, segmentName, numeral]
      | pop segment index =>
          have segmentName : '\n' ∉ segment.name.toList := by cases segment <;> decide
          simp [Command.text, segmentName, numeral]
      | operate operator => rcases operator with (_ | _) | (_ | _ | _ | _) | (_ | _ | _) <;> decide
      | label written => simpa [Command.text] using name valid
      | goto written => simpa [Command.text] using name valid
      | ifGoto written => simpa [Command.text] using name valid
      | function written locals =>
          simpa [Command.text, numeral] using name valid
      | call written arguments =>
          simpa [Command.text, numeral] using name valid
      | ret => decide

/-- Code is written in lines without a line feed, if the name from outside has none. -/
theorem Code.newline_notMem_named {item : Item} (valid : item.Valid)
    (single : ∀ name ∈ item.carried?, '\n' ∉ name.toList) (number : Nat) :
    ∀ line ∈ (ofItem number item).named, '\n' ∉ line.text.toList := by
  have apart (symbol : Symbol) (mentioned : Mentioned number item symbol) :
      '\n' ∉ symbol.text.toList := by
    intro newline
    rcases mentioned.mem_text valid newline with ⟨name, carries, inside⟩ | symbolic
    · exact single name carries inside
    · exact (plain_of_isSymbolChar symbolic).2.1 rfl
  refine forall_mem_named valid (fun value => ?_) (fun computation => ?_)
    (fun symbol mentioned => ?_) fun symbol mentioned => ?_
  · exact Line.Kept.newline_notMem (show (Line.number value).Kept from trivial)
  · exact Line.Kept.newline_notMem (show (Line.compute computation).Kept from trivial)
  · simpa [Line.text_load] using apart symbol mentioned
  · simpa [Line.text_declare] using apart symbol mentioned

/-- What holds of the remarks and of the code of items holds of the lines of their blocks. -/
theorem forall_mem_blocks {items : List Item} {property : Line String → Prop}
    (remarks : ∀ item ∈ items, property (.remark item.text))
    (codes : ∀ item ∈ items, ∀ number, ∀ line ∈ (Code.ofItem number item).named, property line)
    (annotate : Bool) (number : Nat) :
    ∀ line ∈ (blocks number items).flatMap (Block.lines annotate), property line := by
  induction items generalizing number with
  | nil => simp [blocks]
  | cons item rest ih =>
      intro line member
      rw [blocks, List.flatMap_cons, List.mem_append, Block.lines, List.mem_append] at member
      rcases member with (remark | code) | later
      · cases annotate with
        | false => cases remark
        | true =>
            rw [List.mem_singleton.1 remark]
            exact remarks item List.mem_cons_self
      · exact codes item List.mem_cons_self number line code
      · exact ih (fun other inside => remarks other (List.mem_cons_of_mem _ inside))
          (fun other inside => codes other (List.mem_cons_of_mem _ inside)) _ line later

/-- Every line of a program is one line of its text. -/
theorem newline_notMem_blocks {items : List Item} (valid : ∀ item ∈ items, item.Valid)
    (single : ∀ item ∈ items, ∀ name ∈ item.carried?, '\n' ∉ name.toList) (annotate : Bool)
    (number : Nat) :
    ∀ line ∈ (blocks number items).flatMap (Block.lines annotate), '\n' ∉ line.text.toList := by
  refine forall_mem_blocks (fun item member => ?_)
    (fun item member => Code.newline_notMem_named (valid item member) (single item member))
    annotate number
  have own : '\n' ∉ item.text.toList := newline_notMem_text (valid item member)
  simpa [Line.text_remark] using own

/-- The lines of the blocks of sound items are clean, with remarks or without. -/
theorem clean_of_mem_blocks {items : List Item} (sound : ∀ item ∈ items, item.Sound)
    (annotate : Bool) (number : Nat) :
    ∀ line ∈ (blocks number items).flatMap (Block.lines annotate), line.Clean :=
  forall_mem_blocks (fun item member => newline_notMem_text (sound item member).valid)
    (fun item member => Code.clean_ofItem (sound item member)) annotate number

end HackToolchain.Codegen
