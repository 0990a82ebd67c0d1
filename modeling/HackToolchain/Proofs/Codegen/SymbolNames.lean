import HackToolchain.Proofs.Codegen.Names

/-!
# Which names make well-formed lines

Generated code declares and loads symbols only, provided that the names from
outside the source which it carries are symbols themselves: the entry, and the
names of units that use a static or compare.  Every such name that is no symbol
shows in the text.
-/

namespace HackToolchain.Asm

/-- A line whose name is a symbol; a numeral may be loaded as well. -/
def Line.WellFormed : Line String → Prop
  | declare name => Vm.isSymbol name.toList
  | load name => Vm.isSymbol name.toList ∨ (Text.readNumeral? name.toList).isSome
  | number _ | compute _ | remark _ => True

end HackToolchain.Asm

namespace HackToolchain.Codegen

open HackToolchain.Asm (Line)
open HackToolchain.Vm

/-! ## Lines of an item -/

section item

variable {item : Item} {number : Nat}

theorem Mentioned.isSymbol_text {symbol : Symbol} (valid : item.Valid)
    (outside : ∀ name ∈ item.carried?, isSymbol name.toList)
    (mentioned : Mentioned number item symbol) : isSymbol symbol.text.toList := by
  rw [Symbol.isSymbol_text_iff]
  rcases mentioned.root valid with empty | symbolic | carries
  · exact .inr empty
  · exact .inl symbolic
  · exact .inl (outside _ carries)

theorem Code.wellFormed_named (valid : item.Valid)
    (outside : ∀ name ∈ item.carried?, isSymbol name.toList) (number : Nat) :
    ∀ line ∈ (ofItem number item).named, line.WellFormed :=
  forall_mem_named valid (fun _ => trivial) (fun _ => trivial)
    (fun _ mentioned => .inl (mentioned.isSymbol_text valid outside))
    fun _ mentioned => mentioned.isSymbol_text valid outside

/-- The code of an item has a numbered symbol after each name from outside that it carries. -/
theorem exists_numbered_of_carried {name : String} (carries : item.carried? = some name)
    (number : Nat) : ∃ symbol : Symbol, symbol.root = name ∧ symbol.isNumbered ∧
      (symbol ∈ (Code.ofItem number item).declared ∨
        symbol ∈ (Code.ofItem number item).loaded) := by
  have label {symbol : Symbol} (member : symbol ∈ itemLabels number item) :
      symbol ∈ (Code.ofItem number item).declared := by
    rw [← Code.labels_ofItem] at member
    exact List.mem_of_mem_filter member
  cases item with
  | start entry =>
      cases carries
      exact ⟨.returnPoint name number, rfl, rfl, .inl (label (List.mem_singleton.2 rfl))⟩
  | command unit command =>
      cases command with
      | push segment index | pop segment index =>
          cases segment with
          | statics =>
              cases carries
              exact ⟨.static name index, rfl, rfl, .inr (Code.static_mem_loaded_iff.2 rfl)⟩
          | _ => cases carries
      | operate operator =>
          cases operator with
          | compare comparison =>
              cases carries
              refine ⟨.mark name .holds number, rfl, rfl, .inl (label ?_)⟩
              cases comparison <;> simp [itemLabels]
          | unary | binary => cases carries
      | label | goto | ifGoto | function | call | ret => cases carries

theorem Code.mem_named_of_declared {code : Code} {symbol : Symbol}
    (member : symbol ∈ code.declared) : .declare symbol.text ∈ code.named :=
  List.mem_map_of_mem (declare_mem_of_mem_declared member)

theorem Code.mem_named_of_loaded {code : Code} {symbol : Symbol} (member : symbol ∈ code.loaded) :
    .load symbol.text ∈ code.named :=
  List.mem_map_of_mem (load_mem_of_mem_loaded member)

end item

theorem readNumeral?_eq_none_of_dot {text : List Char} (dot : '.' ∈ text) :
    Text.readNumeral? text = none := by
  rw [Text.readNumeral?, if_neg]
  rintro ⟨-, digits⟩
  exact absurd (List.all_eq_true.1 digits '.' dot) (by decide)

/-! ## Lines of a program -/

section program

variable {items : List Item} (valid : ∀ item ∈ items, item.Valid) (annotate : Bool)

include valid

/-- All lines are well-formed exactly if all names from outside that they carry are symbols. -/
theorem wellFormed_iff (units : ∀ unit command, .command unit command ∈ items → unit ≠ "") :
    (∀ line ∈ (blocks 0 items).flatMap (Block.lines annotate), line.WellFormed) ↔
      ∀ item ∈ items, ∀ name ∈ item.carried?, isSymbol name.toList := by
  constructor
  · intro formed item member name carries
    obtain ⟨number, all⟩ := exists_named_of_mem annotate 0 member
    obtain ⟨symbol, rfl, numbered, mentioned⟩ := exists_numbered_of_carried carries number
    have own : isSymbol symbol.text.toList := by
      rcases mentioned with declared | loaded
      · exact formed _ (all _ (Code.mem_named_of_declared declared))
      · rcases formed _ (all _ (Code.mem_named_of_loaded loaded)) with own | numeral
        · exact own
        · rw [readNumeral?_eq_none_of_dot (Symbol.dot_mem_text numbered)] at numeral
          cases numeral
    rcases Symbol.isSymbol_text_iff.1 own with root | ⟨empty, -⟩
    · exact root
    · -- Only an entry may be empty, and then its load is no symbol.
      rw [empty] at carries
      cases item with
      | command unit command => exact absurd (Item.carried?_command carries).symm (units _ _ member)
      | start entry =>
          cases carries
          have loaded : Symbol.given "" ∈ (Code.ofItem number (.start "")).loaded :=
            Code.given_mem_loaded_iff.2 rfl
          rcases formed _ (all _ (Code.mem_named_of_loaded loaded)) with symbol | numeral
          · cases symbol
          · cases numeral
  · intro outside
    exact forall_mem_blocks (fun item member => trivial)
      (fun item member => Code.wellFormed_named (valid item member) (outside item member))
      annotate 0

/-- All lines are one line each exactly if all names from outside that they carry are. -/
theorem newline_notMem_iff :
    (∀ line ∈ (blocks 0 items).flatMap (Block.lines annotate), '\n' ∉ line.text.toList) ↔
      ∀ item ∈ items, ∀ name ∈ item.carried?, '\n' ∉ name.toList := by
  constructor
  · intro single item member name carries newline
    obtain ⟨number, all⟩ := exists_named_of_mem annotate 0 member
    obtain ⟨symbol, rfl, -, mentioned⟩ := exists_numbered_of_carried carries number
    have inside : '\n' ∈ symbol.text.toList := by
      rw [Symbol.text_eq, String.toList_append]
      exact List.mem_append_left _ newline
    rcases mentioned with declared | loaded
    · refine single _ (all _ (Code.mem_named_of_declared declared)) ?_
      simp [Line.text_declare, inside]
    · refine single _ (all _ (Code.mem_named_of_loaded loaded)) ?_
      simp [Line.text_load, inside]
  · exact fun single => newline_notMem_blocks valid single annotate 0

end program

end HackToolchain.Codegen
