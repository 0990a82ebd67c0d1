import HackToolchain.Proofs.Codegen.Mentions

/-!
# Names inside symbols

The text of a symbol is a name, which may be empty, and an ending of symbol
characters.  In the code of a valid item the name is a symbol itself, unless it
comes from outside the source: the name of the item's unit, or the entry.
-/

namespace HackToolchain.Vm.Item

/-- The name that an item spells out: of a label, of a function or of the entry. -/
def name? : Item → Option String
  | start name | command _ (.label name) | command _ (.goto name) | command _ (.ifGoto name)
  | command _ (.function name _) | command _ (.call name _) => some name
  | _ => none

/-- The name from outside the source that the code of an item carries: its unit's, or the entry. -/
def carried? : Item → Option String
  | start entry => some entry
  | command unit (.push .statics _) | command unit (.pop .statics _)
  | command unit (.operate (.compare _)) => some unit
  | _ => none

variable {item : Item} {name : String}

theorem name?_of_declared? (declares : item.declared? = some name) : item.name? = some name := by
  unfold declared? at declares
  split at declares <;> first | exact declares | cases declares

theorem name?_of_target? (continues : item.target? = some name) : item.name? = some name := by
  unfold target? at continues
  split at continues <;> first | exact continues | cases continues

/-- The source is held to symbols for its names, the entry is not. -/
theorem Valid.isSymbol_name (valid : item.Valid) (named : item.name? = some name) :
    isSymbol name.toList ∨ item = .start name := by
  cases item with
  | start entry =>
      cases named
      exact .inr rfl
  | command unit command =>
      refine .inl ?_
      cases command with
      | label | goto | ifGoto | function | call =>
          cases named
          exact valid
      | push | pop | operate | ret => cases named

theorem Sound.isSymbol_name (sound : item.Sound) (named : item.name? = some name) :
    isSymbol name.toList := by
  rcases sound.valid.isSymbol_name named with symbol | rfl
  · exact symbol
  · exact sound

theorem carried?_command {unit : String} {command : Command}
    (carries : (Item.command unit command).carried? = some name) : name = unit := by
  unfold carried? at carries
  split at carries <;> simp_all

theorem Sound.keepsLine_carried (sound : item.Sound) (carries : item.carried? = some name) :
    Asm.KeepsLine name.toList := by
  unfold carried? at carries
  split at carries <;> cases carries
  next => exact keepsLine_of_isSymbol sound
  all_goals exact sound.1

end HackToolchain.Vm.Item

namespace HackToolchain.Codegen

open HackToolchain.Asm (Line)
open HackToolchain.Vm

/-! ## Symbols in two parts -/

theorem isSymbolChar_numeral (number : Nat) :
    ∀ character ∈ Text.numeral number, isSymbolChar character := by
  intro character member
  simp [isSymbolChar, Char.isAlphanum, Line.digit_of_mem_numeral member]

/-- A symbol stays one with symbol characters behind it. -/
theorem isSymbol_append {front back : List Char} (symbol : isSymbol front)
    (symbolic : ∀ character ∈ back, isSymbolChar character) : isSymbol (front ++ back) := by
  cases front with
  | nil => cases symbol
  | cons first rest =>
      simp only [isSymbol, Bool.and_eq_true, List.cons_append] at symbol ⊢
      refine ⟨symbol.1, ?_⟩
      rw [← List.cons_append, List.all_append, symbol.2, Bool.true_and]
      exact List.all_eq_true.2 symbolic

theorem isSymbol_of_append {front back : List Char} (symbol : isSymbol (front ++ back))
    (nonempty : front ≠ []) : isSymbol front := by
  cases front with
  | nil => exact absurd rfl nonempty
  | cons first rest =>
      simp only [isSymbol, Bool.and_eq_true, List.cons_append] at symbol ⊢
      refine ⟨symbol.1, ?_⟩
      rw [← List.cons_append, List.all_append, Bool.and_eq_true] at symbol
      exact symbol.2.1

theorem isSymbol_toString {front : String} (symbol : isSymbol front.toList) (number : Nat) :
    isSymbol (front ++ toString number).toList := by
  rw [String.toList_append, Text.toString_eq_numeral, String.toList_ofList]
  exact isSymbol_append symbol (isSymbolChar_numeral number)

namespace Symbol

/-- The name that the text of a symbol starts with. -/
def root : Symbol → String
  | register _ | cell _ => ""
  | given name => name
  | static unit _ | mark unit _ _ => unit
  | returnPoint callee _ => callee

/-- What follows the name in the text of a symbol. -/
def ending : Symbol → String
  | register named => named.name
  | cell number => "R" ++ toString number
  | given _ => ""
  | static _ index => ".static." ++ toString index.toNat
  | mark _ place number => "$CMP_" ++ place.name ++ "." ++ toString number
  | returnPoint _ number => "$ret." ++ toString number

theorem text_eq (symbol : Symbol) : symbol.text = symbol.root ++ symbol.ending := by
  cases symbol <;> simp only [text, root, ending, String.append_assoc, String.empty_append,
    String.append_empty]

/-- Whatever follows the name is a symbol in its own right. -/
theorem isSymbol_ending {symbol : Symbol} (more : symbol.ending ≠ "") :
    isSymbol symbol.ending.toList := by
  cases symbol with
  | register named => cases named <;> decide
  | cell number => exact @isSymbol_toString "R" (by decide) number
  | given name => exact absurd rfl more
  | static unit index => exact @isSymbol_toString ".static." (by decide) index.toNat
  | mark unit place number =>
      refine @isSymbol_toString ("$CMP_" ++ place.name ++ ".") ?_ number
      cases place <;> decide
  | returnPoint callee number => exact @isSymbol_toString "$ret." (by decide) number

theorem isSymbolChar_ending (symbol : Symbol) :
    ∀ character ∈ symbol.ending.toList, isSymbolChar character := by
  intro character member
  refine isSymbolChar_of_isSymbol (isSymbol_ending fun empty => ?_) member
  rw [empty] at member
  cases member

/-- The text of a symbol has characters of its name and symbol characters. -/
theorem mem_text {symbol : Symbol} {character : Char} (member : character ∈ symbol.text.toList) :
    character ∈ symbol.root.toList ∨ isSymbolChar character := by
  rw [text_eq, String.toList_append, List.mem_append] at member
  exact member.imp_right (isSymbolChar_ending symbol character)

/-- The text of a symbol is a symbol exactly if its name is, or is empty with something behind. -/
theorem isSymbol_text_iff {symbol : Symbol} :
    isSymbol symbol.text.toList ↔
      isSymbol symbol.root.toList ∨ symbol.root = "" ∧ symbol.ending ≠ "" := by
  rw [text_eq, String.toList_append]
  constructor
  · intro whole
    by_cases empty : symbol.root = ""
    · refine .inr ⟨empty, fun bare => ?_⟩
      rw [empty, bare] at whole
      cases whole
    · refine .inl (isSymbol_of_append whole fun nothing => empty ?_)
      exact String.toList_eq_nil_iff.1 nothing
  · rintro (own | ⟨empty, more⟩)
    · exact isSymbol_append own (isSymbolChar_ending symbol)
    · rw [empty]
      exact isSymbol_ending more

end Symbol

/-! ## Names that code mentions -/

section mentioned

variable {number : Nat} {item : Item}

/-- The labels of the code of an item are named after its unit or after the name it spells out. -/
theorem named_of_mem_itemLabels {symbol : Symbol} (member : symbol ∈ itemLabels number item) :
    (∃ unit place, item.carried? = some unit ∧ symbol = .mark unit place number) ∨
      ∃ callee, item.name? = some callee ∧ symbol = .returnPoint callee number := by
  unfold itemLabels at member
  split at member <;> simp only [List.mem_cons, List.not_mem_nil, or_false] at member
  next entry => exact .inr ⟨entry, rfl, member⟩
  next unit =>
    refine .inl ?_
    rcases member with rfl | rfl <;> exact ⟨unit, _, rfl, rfl⟩
  next unit _ _ =>
    refine .inl ?_
    rcases member with rfl | rfl | rfl | rfl | rfl <;> exact ⟨unit, _, rfl, rfl⟩
  next callee _ => exact .inr ⟨callee, rfl, member⟩

theorem Mentioned.given {name : String} (mentioned : Mentioned number item (.given name)) :
    item.name? = some name :=
  mentioned.elim Item.name?_of_declared? Item.name?_of_target?

theorem Mentioned.static {unit : String} {index : UInt16}
    (mentioned : Mentioned number item (.static unit index)) : item.carried? = some unit := by
  have owned : item.static? = some (unit, index) := mentioned
  unfold Item.static? at owned
  split at owned <;> cases owned <;> rfl

theorem Mentioned.mark {unit : String} {place : Mark} {own : Nat}
    (mentioned : Mentioned number item (.mark unit place own)) : item.carried? = some unit := by
  rcases named_of_mem_itemLabels mentioned with ⟨_, _, carries, same⟩ | ⟨_, -, same⟩
  · cases same
    exact carries
  · cases same

theorem Mentioned.returnPoint {callee : String} {own : Nat}
    (mentioned : Mentioned number item (.returnPoint callee own)) : item.name? = some callee := by
  rcases named_of_mem_itemLabels mentioned with ⟨_, _, -, same⟩ | ⟨_, named, same⟩
  · cases same
  · cases same
    exact named

/-- The names in the symbols of a valid item are symbols, but for one from outside. -/
theorem Mentioned.root {symbol : Symbol} (valid : item.Valid)
    (mentioned : Mentioned number item symbol) :
    symbol.root = "" ∧ symbol.ending ≠ "" ∨ isSymbol symbol.root.toList ∨
      item.carried? = some symbol.root := by
  have spelled {name : String} (named : item.name? = some name) :
      isSymbol name.toList ∨ item.carried? = some name := by
    rcases valid.isSymbol_name named with symbol | rfl
    · exact .inl symbol
    · exact .inr rfl
  cases symbol with
  | register named => exact .inl ⟨rfl, by cases named <;> decide⟩
  | cell index => exact .inl ⟨rfl, by simp [Symbol.ending]⟩
  | given name => exact .inr (spelled mentioned.given)
  | static unit index => exact .inr (.inr mentioned.static)
  | mark unit place own => exact .inr (.inr mentioned.mark)
  | returnPoint callee own => exact .inr (spelled mentioned.returnPoint)

/-- A character of a mentioned symbol is a symbol character, unless a name from outside has it. -/
theorem Mentioned.mem_text {symbol : Symbol} (valid : item.Valid)
    (mentioned : Mentioned number item symbol) {character : Char}
    (member : character ∈ symbol.text.toList) :
    (∃ name ∈ item.carried?, character ∈ name.toList) ∨ isSymbolChar character := by
  rcases Symbol.mem_text member with inRoot | symbolic
  · rcases mentioned.root valid with ⟨empty, -⟩ | symbol | carries
    · rw [empty] at inRoot
      cases inRoot
    · exact .inr (isSymbolChar_of_isSymbol symbol inRoot)
    · exact .inl ⟨_, carries, inRoot⟩
  · exact .inr symbolic

end mentioned

end HackToolchain.Codegen
