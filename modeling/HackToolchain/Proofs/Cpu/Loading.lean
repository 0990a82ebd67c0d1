import HackToolchain.Proofs.Codegen.Names
import HackToolchain.Proofs.Cpu.Blocks
import Mathlib.Data.List.Dedup
import Mathlib.Data.List.Perm.Subperm

/-!
# Assembled programs are linked

When the text of a program is assembled, its blocks stand one after the other,
its statics have different cells from 16 on, and so have the numbers that no
load can hold.
-/

namespace HackToolchain.Cpu

open HackToolchain.Asm (Line instructionCount nameValue?)
open HackToolchain.Codegen
open HackToolchain.Vm

section loading

variable {items : List Item} {annotate : Bool} {program : Asm.Program}

/-- What assembling the text of items finds. -/
theorem assembled_itemsText (linkable : Linkable items)
    (assembled : Asm.Program.assemble (itemsText annotate items) = .ok program) :
    Asm.Collects ((blocks 0 items).flatMap (Block.lines annotate)) 0 [] program.labels ∧
      Asm.Places program.labels ((blocks 0 items).flatMap (Block.lines annotate)) [] #[]
        program.rom program.variableNames :=
  Asm.Program.assemble_render (clean_of_mem_blocks linkable.sound annotate 0) assembled

/-- The number of instructions that written lines are assembled to, if they are. -/
def assembledSize? (lines : List (List Char)) : Option Nat :=
  match Asm.collectLabels lines 0 [] with
  | .error _ => none
  | .ok labels =>
      match Asm.placeInstructions labels (lines.filter fun line => !Asm.isAside line) [] #[] with
      | .error _ => none
      | .ok (rom, _) => some rom.size

/-- Sound items are assembled if the written lines of their blocks are. -/
theorem exists_assembled (sound : ∀ item ∈ items, item.Sound) {size : Nat}
    (known : assembledSize? (Asm.spoken ((blocks 0 items).flatMap (Block.lines annotate))) =
      some size) :
    ∃ program, Asm.Program.assemble (itemsText annotate items) = .ok program ∧
      program.rom.size = size := by
  rw [itemsText, Asm.Program.assemble, Asm.contents_render (clean_of_mem_blocks sound annotate 0)]
  rw [assembledSize?] at known
  generalize Asm.spoken ((blocks 0 items).flatMap (Block.lines annotate)) = lines at known ⊢
  cases collected : Asm.collectLabels lines 0 [] with
  | error fault =>
      rw [collected] at known
      cases known
  | ok labels =>
      rw [collected] at known
      dsimp only at known ⊢
      cases placed : Asm.placeInstructions labels (lines.filter fun line => !Asm.isAside line) []
          #[] with
      | error fault =>
          rw [placed] at known
          cases known
      | ok result =>
          rw [placed] at known
          exact ⟨_, rfl, Option.some.inj known⟩

theorem grounded_linkingOf (program : Asm.Program) : Grounded (linkingOf program) where
  register named := by
    have value : nameValue? program.labels program.variableNames named.name =
        some (.ofNat named.address) := by
      rw [nameValue?, Asm.predefined?_register]
    simp only [linkingOf, Symbol.text, value]
    rfl
  cell number small := by
    have value : nameValue? program.labels program.variableNames ("R" ++ toString number) =
        some (.ofNat number) := by
      rw [nameValue?, Asm.predefined?_cell small]
    simp only [linkingOf, Symbol.text, value]
    rfl
  number value small := if_pos small

/-- Assembled programs of own names are linked. -/
theorem linked_of_assembled (linkable : Linkable items)
    (assembled : Asm.Program.assemble (itemsText annotate items) = .ok program)
    (small : program.rom.size ≤ memorySize) : Linked items program.rom (linkingOf program) := by
  obtain ⟨collects, places⟩ := assembled_itemsText linkable assembled
  refine ⟨grounded_linkingOf program, ?_, ?_, small, linkable.sound⟩
  · intro position item here
    obtain ⟨before, after, cut, count⟩ := exists_cut annotate 0 here
    refine ⟨0 + labelTotal (items.take position), ?_⟩
    rw [← count]
    rw [cut] at collects places
    refine stands_of_assembled collects places fun symbol member => ?_
    refine @predefined?_of_mem_declaredNames items annotate linkable.own 0 _ ?_
    rw [cut]
    exact mem_declaredNames_of_mem member fun line within =>
      List.mem_append_right _ (List.mem_append_left _ within)
  · rw [places.size_eq, instructionCount_blocks]

/-! ## Cells of variables -/

/-- There are no more variables than statics and numbers that no load can hold. -/
theorem length_variableNames (linkable : Linkable items)
    (assembled : Asm.Program.assemble (itemsText annotate items) = .ok program) :
    program.variableNames.length ≤
      (staticsOf items).dedup.length + (largeDistances items).dedup.length := by
  obtain ⟨collects, places⟩ := assembled_itemsText linkable assembled
  have inside : program.variableNames ⊆
      (staticsOf items).dedup.map (fun mentioned => (Symbol.static mentioned.1 mentioned.2).text) ++
        (largeDistances items).dedup.map toString := by
    intro name member
    obtain ⟨loaded, free⟩ := ((places.member name).1 member).resolve_left (by simp)
    rcases static_or_large linkable collects loaded free with
      ⟨unit, index, mentioned, rfl⟩ | ⟨value, large, rfl⟩
    · exact List.mem_append_left _
        (List.mem_map.2 ⟨(unit, index), List.mem_dedup.2 mentioned, rfl⟩)
    · exact List.mem_append_right _ (List.mem_map_of_mem (List.mem_dedup.2 large))
  have bound := (List.subperm_of_subset (places.nodup List.nodup_nil) inside).length_le
  rwa [List.length_append, List.length_map, List.length_map] at bound

/-- There are no more variables than instructions. -/
theorem length_variableNames_le_size (sound : ∀ item ∈ items, item.Sound)
    (assembled : Asm.Program.assemble (itemsText annotate items) = .ok program) :
    program.variableNames.length ≤ program.rom.size := by
  have places := (Asm.Program.assemble_render (clean_of_mem_blocks sound annotate 0) assembled).2
  have inside : program.variableNames ⊆
      Asm.loadedNames ((blocks 0 items).flatMap (Block.lines annotate)) :=
    fun name member => (((places.member name).1 member).resolve_left List.not_mem_nil).1
  refine (List.subperm_of_subset (places.nodup List.nodup_nil) inside).length_le.trans ?_
  rw [places.size_eq, Asm.loadedNames, List.length_filterMap_eq_countP, instructionCount]
  refine List.countP_mono_left fun line _ loads => ?_
  cases line with
  | declare | remark => cases loads
  | number | load | compute => rfl

/-- Calls load at most five numbers that no load can hold. -/
theorem length_largeDistances (items : List Item) : (largeDistances items).dedup.length ≤ 5 := by
  have inside : (largeDistances items).dedup ⊆ List.range' 65536 5 := by
    intro value member
    obtain ⟨distance, beyond⟩ := List.mem_filter.1 (List.mem_dedup.1 member)
    obtain ⟨item, -, calls⟩ := List.mem_filterMap.1 distance
    have most : value ≤ 65540 := by
      cases item with
      | start => cases calls
      | command unit command =>
          cases command with
          | call name arguments =>
              cases calls
              have bound := arguments.toNat_lt
              omega
          | _ => cases calls
    have least : 65536 ≤ value := by simpa using beyond
    rw [List.mem_range'_1]
    omega
  have bound := (List.subperm_of_subset (List.nodup_dedup _) inside).length_le
  rwa [List.length_range'] at bound

/-- Every static variable has a cell of its own. -/
theorem exists_staticCell (linkable : Linkable items)
    (assembled : Asm.Program.assemble (itemsText annotate items) = .ok program) {unit : String}
    {index : UInt16} (mentioned : (unit, index) ∈ staticsOf items) :
    ∃ position < program.variableNames.length,
      program.variableNames[position]? = some (Symbol.static unit index).text ∧
        (linkingOf program).word (.static unit index) = .ofNat (16 + position) := by
  obtain ⟨collects, places⟩ := assembled_itemsText linkable assembled
  obtain ⟨position, inside, here, value⟩ := places.exists_cell (loaded_static mentioned)
    (isVariable_static linkable collects unit index)
  refine ⟨position, inside, here, ?_⟩
  simp only [linkingOf, value]
  rfl

/-- Different statics have different positions among the variables. -/
theorem static_inj (linkable : Linkable items)
    (assembled : Asm.Program.assemble (itemsText annotate items) = .ok program)
    {first second : String × UInt16} (mentioned : first ∈ staticsOf items)
    (mentioned' : second ∈ staticsOf items) (few : program.variableNames.length ≤ 245)
    (same : (linkingOf program).word (.static first.1 first.2) =
      (linkingOf program).word (.static second.1 second.2)) : first = second := by
  obtain ⟨position, inside, here, word⟩ := exists_staticCell linkable assembled mentioned
  obtain ⟨other, inside', here', word'⟩ := exists_staticCell linkable assembled mentioned'
  rw [word, word'] at same
  have cells := ofNat_word_inj (Nat.lt_of_le_of_lt (show 16 + position ≤ 261 by omega) (by decide))
    (Nat.lt_of_le_of_lt (show 16 + other ≤ 261 by omega) (by decide)) same
  have positions : position = other := Nat.add_left_cancel cells
  rw [← positions, here] at here'
  have symbols := Symbol.text_inj (by rfl) (by rfl) (Option.some.inj here')
  cases first
  cases second
  cases symbols
  rfl

/-- A number that no load can hold is loaded as the cell of a variable. -/
theorem exists_largeCell (linkable : Linkable items)
    (assembled : Asm.Program.assemble (itemsText annotate items) = .ok program) {value : Nat}
    (large : value ∈ largeDistances items) :
    ∃ position < program.variableNames.length,
      (linkingOf program).number value = .ofNat (16 + position) := by
  obtain ⟨collects, places⟩ := assembled_itemsText linkable assembled
  obtain ⟨position, inside, -, cell⟩ := places.exists_cell (loaded_large large)
    (isVariable_toString linkable.sound collects value)
  have beyond : ¬ value < UInt16.size :=
    Nat.not_lt.2 (by simpa using (List.mem_filter.1 large).2)
  refine ⟨position, inside, ?_⟩
  simp only [linkingOf, if_neg beyond, cell]
  rfl

end loading

end HackToolchain.Cpu
