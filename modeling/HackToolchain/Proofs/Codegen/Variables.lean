import HackToolchain.Proofs.Asm.Acceptance
import HackToolchain.Proofs.Codegen.Mentions
import HackToolchain.Proofs.Codegen.Names

/-!
# Which variables a program needs

The variables of an assembled program stem from its source.  They are its
static variables, the names it aims at but does not declare, and the numbers
beyond sixteen bits that calls load, which are read as names.  Registers,
numbered cells and labels that code makes for itself never become variables.
So the items of a program tell whether there is room for its variables.
-/

namespace HackToolchain.Codegen

open HackToolchain.Asm (Line loadedNames)
open HackToolchain.Vm

/-- The name that a number beyond sixteen bits is read as. -/
def numeralName? (value : Nat) : Option String :=
  if value < UInt16.size then none else some (toString value)

/-- The names of the source that the code of an item loads, in order. -/
def sourcedNames (item : Item) : List String :=
  (item.distance?.bind numeralName?).toList ++ item.target?.toList ++
    (item.static?.map fun owned => (Symbol.static owned.1 owned.2).text).toList

/-- The variables that items make, in the order they are loaded. -/
def sourceVariables (items : List Item) : List String :=
  (items.flatMap sourcedNames).filter fun name =>
    Asm.predefined? name = none ∧ name ∉ givenNames items ∧
      name ∉ (blockLabels (blocks 0 items)).map Symbol.text

/-- Before the last load of a variable there is an address for another cell. -/
def VariablesFit (items : List Item) : Prop :=
  (sourceVariables items).dropLast.dedup.length < Asm.variableLimit

instance : DecidablePred VariablesFit := fun items =>
  inferInstanceAs (Decidable ((sourceVariables items).dropLast.dedup.length < Asm.variableLimit))

/-! ## Names in code -/

/-- The name that a line of code loads. -/
def loadedName? : Line Symbol → Option String
  | .number value => numeralName? value
  | .load symbol => some symbol.text
  | .compute _ | .declare _ | .remark _ => none

/-- The name of the source that a line of code loads. -/
def sourcedName? : Line Symbol → Option String
  | .number value => numeralName? value
  | .load symbol => if symbol.isSourced then some symbol.text else none
  | .compute _ | .declare _ | .remark _ => none

namespace Code

theorem loadedNames_named (code : Code) : loadedNames code.named = code.filterMap loadedName? := by
  rw [loadedNames, named, List.filterMap_map]
  refine List.filterMap_congr fun line _ => ?_
  cases line with
  | number value =>
      by_cases small : value < UInt16.size <;>
        simp [Line.map, Line.statement?, loadedName?, numeralName?, small]
  | load | compute | declare | remark => rfl

/-- Code without large numbers loads the names of its symbols. -/
theorem filterMap_sourcedName? {code : Code}
    (small : ∀ value, .number value ∈ code → value < UInt16.size) :
    code.filterMap sourcedName? = (code.loaded.filter Symbol.isSourced).map Symbol.text := by
  rw [loaded, List.filter_filterMap, List.map_filterMap]
  refine List.filterMap_congr fun line member => ?_
  cases line with
  | number value => exact if_pos (small value member)
  | load symbol =>
      by_cases sourced : symbol.isSourced <;>
        simp [sourcedName?, Line.loaded?, Option.filter, sourced]
  | compute | declare | remark => rfl

/-- A call loads how far down ARG is before it loads its callee. -/
theorem filterMap_sourcedName?_call (number : Nat) (callee : String) (arguments : UInt16) :
    (call number callee arguments).filterMap sourcedName? =
      (numeralName? (5 + arguments.toNat)).toList ++ [callee] := by
  cases name : numeralName? (5 + arguments.toNat) <;>
    simp [call, pushRegister, pushD, setD, setM, setA, reg, jump, List.filterMap_cons,
      sourcedName?, Symbol.isSourced, Symbol.text, name]

theorem sourcedNames_ofItem {item : Item} (valid : item.Valid) (number : Nat) :
    (ofItem number item).filterMap sourcedName? = sourcedNames item := by
  cases distance : item.distance? with
  | none =>
      have small : ∀ value, .number value ∈ ofItem number item → value < UInt16.size := by
        intro value member
        have loaded := (mentions_ofItem valid number _ member).2.2.1 value rfl
        exact loaded.resolve_right (by simp [distance])
      rw [filterMap_sourcedName? small, sourced_ofItem, sourcedNames, distance, List.map_append]
      cases item.target? <;> cases item.static? <;> rfl
  | some value =>
      cases item with
      | start entry => cases distance
      | command unit command =>
          cases command with
          | call callee arguments =>
              cases distance
              exact (filterMap_sourcedName?_call number callee arguments).trans
                (List.append_nil _).symm
          | push | pop | operate | label | goto | ifGoto | function | ret => cases distance

/-- What is no name of the source is dropped by a test that registers, cells and labels fail. -/
theorem filter_loadedNames {item : Item} (valid : item.Valid) {number : Nat}
    {free : String → Bool} (fixed : ∀ name, (Asm.predefined? name).isSome → free name = false)
    (own : ∀ label ∈ itemLabels number item, free label.text = false) :
    (loadedNames (ofItem number item).named).filter free = (sourcedNames item).filter free := by
  rw [loadedNames_named, ← sourcedNames_ofItem valid number, List.filter_filterMap,
    List.filter_filterMap]
  refine List.filterMap_congr fun line member => ?_
  have mentioned := (mentions_ofItem valid number line member).2.1
  cases line with
  | number | compute | declare | remark => rfl
  | load symbol =>
      have mentioned : Mentioned number item symbol := mentioned symbol rfl
      have dropped (bound : free symbol.text = false) :
          (some symbol.text).filter free = none := by
        simp [Option.filter, bound]
      cases symbol with
      | given | static => rfl
      | register named =>
          exact dropped (fixed _ (by rw [Symbol.text, Asm.predefined?_register]; rfl))
      | cell index =>
          exact dropped (fixed _ (by rw [Symbol.text, Asm.predefined?_cell mentioned]; rfl))
      | mark | returnPoint => exact dropped (own _ mentioned)

end Code

section blocks

variable {items : List Item}

theorem filter_loadedNames_blocks (valid : ∀ item ∈ items, item.Valid) {number : Nat}
    (annotate : Bool) {free : String → Bool}
    (fixed : ∀ name, (Asm.predefined? name).isSome → free name = false)
    (own : ∀ label ∈ blockLabels (blocks number items), free label.text = false) :
    (loadedNames ((blocks number items).flatMap (Block.lines annotate))).filter free =
      (items.flatMap sourcedNames).filter free := by
  induction items generalizing number with
  | nil => rfl
  | cons item rest ih =>
      obtain ⟨valid, others⟩ := List.forall_mem_cons.1 valid
      rw [blockLabels_cons, List.forall_mem_append] at own
      have block : loadedNames (Block.lines annotate (.ofItem number item)) =
          loadedNames (Code.ofItem number item).named :=
        filterMap_lines (fun _ => rfl) annotate (.ofItem number item)
      rw [blocks, List.flatMap_cons, List.flatMap_cons, Asm.loadedNames_append, List.filter_append,
        List.filter_append, block, Code.filter_loadedNames valid fixed own.1, ih others own.2]

/-- The variables that the text of items loads are those of the items. -/
theorem variableLoads_blocks (valid : ∀ item ∈ items, item.Valid) (annotate : Bool) :
    Asm.variableLoads ((blocks 0 items).flatMap (Block.lines annotate)) =
      sourceVariables items := by
  have same : (fun name : String => decide (Asm.predefined? name = none ∧
      name ∉ Asm.declaredNames ((blocks 0 items).flatMap (Block.lines annotate)))) =
        fun name => decide (Asm.predefined? name = none ∧ name ∉ givenNames items ∧
          name ∉ (blockLabels (blocks 0 items)).map Symbol.text) := by
    funext name
    rw [decide_eq_decide, mem_declaredNames_iff, not_or, List.mem_map]
  rw [Asm.variableLoads, same]
  refine filter_loadedNames_blocks valid annotate (fun name known => ?_) fun label member => ?_
  · rw [decide_eq_false_iff_not]
    rintro ⟨none, -⟩
    rw [none] at known
    cases known
  · rw [decide_eq_false_iff_not]
    rintro ⟨-, -, absent⟩
    exact absent (List.mem_map_of_mem member)

/-- The text of items has room for its variables if the items have. -/
theorem variablesFit_blocks_iff (valid : ∀ item ∈ items, item.Valid) (annotate : Bool) :
    Asm.VariablesFit ((blocks 0 items).flatMap (Block.lines annotate)) ↔ VariablesFit items := by
  rw [Asm.VariablesFit, variableLoads_blocks valid annotate, VariablesFit]

/-- Variables that are all different are told by their number. -/
theorem variablesFit_iff_length_le (distinct : (sourceVariables items).Nodup) :
    VariablesFit items ↔ (sourceVariables items).length ≤ Asm.variableLimit := by
  have positive : 0 < Asm.variableLimit := by decide
  have earlier : (sourceVariables items).dropLast.Nodup :=
    distinct.sublist (List.dropLast_sublist _)
  rw [VariablesFit, earlier.dedup, List.length_dropLast]
  omega

theorem length_sourcedNames_le (item : Item) : (sourcedNames item).length ≤ 2 := by
  cases item with
  | start entry => exact Nat.le_succ 1
  | command unit command =>
      cases command with
      | push segment index | pop segment index =>
          cases segment <;> simp [sourcedNames, Item.distance?, Item.target?, Item.static?]
      | call callee arguments =>
          cases name : numeralName? (5 + arguments.toNat) <;>
            simp [sourcedNames, Item.distance?, Item.target?, Item.static?, name]
      | operate | label | goto | ifGoto | function | ret =>
          simp [sourcedNames, Item.distance?, Item.target?, Item.static?]

theorem length_flatMap_sourcedNames_le (items : List Item) :
    (items.flatMap sourcedNames).length ≤ 2 * items.length := by
  induction items with
  | nil => exact Nat.le_refl 0
  | cons item rest ih =>
      have own := length_sourcedNames_le item
      rw [List.flatMap_cons, List.length_append, List.length_cons]
      omega

/-- An item makes two variables at most, so short programs have room for them. -/
theorem variablesFit_of_length (few : 2 * items.length ≤ Asm.variableLimit) :
    VariablesFit items := by
  have names := length_flatMap_sourcedNames_le items
  have loads : (sourceVariables items).length ≤ (items.flatMap sourcedNames).length :=
    List.length_filter_le _ _
  have once := (List.dedup_sublist (sourceVariables items).dropLast).length_le
  have positive : 0 < Asm.variableLimit := by decide
  rw [List.length_dropLast] at once
  rw [VariablesFit]
  omega

end blocks

end HackToolchain.Codegen
