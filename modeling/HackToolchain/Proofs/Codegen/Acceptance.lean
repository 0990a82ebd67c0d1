import HackToolchain.Proofs.Codegen.CleanLines
import HackToolchain.Proofs.Codegen.Variables
import HackToolchain.Proofs.Vm.RoundTrip

/-!
# Which programs are assembled

Besides small numbers of its own, the code of an item loads at most one number
for its operand.  Sources set no limit to an index into a segment that is
addressed from a base, nor to a count of arguments, so the number need not fit
a load.  Nor is there a limit to the names that become variables of the text.
Where the numbers fit and the variables have room, the text of a program with
names of its own is assembled; otherwise the first number that does not fit or
the variable without room is the fault.
-/

namespace HackToolchain.Vm

/-- Segments whose cells are found from a base in a register. -/
def Segment.isBased : Segment → Bool
  | locals | arguments | this | that => true
  | constant | statics | pointer | temp => false

/-- The number that the code of an item loads for its operand. -/
def Item.operand? : Item → Option Nat
  | command _ (.push segment index) =>
      if segment = .constant ∨ segment.isBased then some index.toNat else none
  | command _ (.pop segment index) => if segment.isBased then some index.toNat else none
  | command _ (.call _ arguments) => some (5 + arguments.toNat)
  | _ => none

/-- Commands whose operand makes a number that fits sixteen bits but no load. -/
def Command.Overreaches : Command → Prop
  | push segment index | pop segment index => segment.isBased ∧ 32767 < index.toNat
  | call _ arguments => 32763 ≤ arguments.toNat ∧ arguments.toNat ≤ 65530
  | _ => False

instance : DecidablePred Command.Overreaches
  | .push segment index => inferInstanceAs (Decidable (segment.isBased ∧ 32767 < index.toNat))
  | .pop segment index => inferInstanceAs (Decidable (segment.isBased ∧ 32767 < index.toNat))
  | .call _ arguments =>
      inferInstanceAs (Decidable (32763 ≤ arguments.toNat ∧ arguments.toNat ≤ 65530))
  | .operate _ | .label _ | .goto _ | .ifGoto _ | .function _ _ | .ret =>
      inferInstanceAs (Decidable False)

end HackToolchain.Vm

namespace HackToolchain.Codegen

open HackToolchain.Asm (IsMisfit KeepsLine Line loadedNumbers)
open HackToolchain.Vm

/-! ## Numbers -/

/-- The numbers that the code of an item loads, in order. -/
def itemNumbers : Item → List Nat
  | .start _ => [Code.stackBase, 5]
  | .command _ (.function _ locals) => List.replicate locals.toNat 0
  | .command _ .ret => [5, 1, 2, 3, 4]
  | item => item.operand?.toList

/-- The numbers that the code of items loads for their operands, in order. -/
def operands (items : List Item) : List Nat :=
  items.filterMap Item.operand?

namespace Code

theorem loadedNumbers_function (name : String) (locals : UInt16) :
    loadedNumbers (function name locals) = List.replicate locals.toNat 0 := by
  have zeros (count : Nat) :
      loadedNumbers (List.replicate count (pushNumber 0)).flatten = List.replicate count 0 := by
    induction count with
    | zero => rfl
    | succ count ih =>
        rw [List.replicate_succ, List.flatten_cons, loadedNumbers, List.filterMap_append]
        exact congrArg (0 :: ·) ih
  exact zeros locals.toNat

theorem loadedNumbers_ofItem (number : Nat) (item : Item) :
    loadedNumbers (ofItem number item) = itemNumbers item := by
  cases item with
  | start entry => rfl
  | command unit command =>
      cases command with
      | push segment index => cases segment <;> rfl
      | pop segment index => cases segment <;> rfl
      | operate operator => rcases operator with _ | _ | (_ | _ | _) <;> rfl
      | function name locals => exact loadedNumbers_function name locals
      | label | goto | ifGoto | call | ret => rfl

theorem loadedNumbers_named (code : Code) : loadedNumbers code.named = loadedNumbers code := by
  rw [loadedNumbers, named, List.filterMap_map, loadedNumbers]
  congr 1
  funext line
  cases line <;> rfl

end Code

/-- Blocks load the numbers of their items. -/
theorem loadedNumbers_blocks (annotate : Bool) (number : Nat) (items : List Item) :
    loadedNumbers ((blocks number items).flatMap (Block.lines annotate)) =
      items.flatMap itemNumbers := by
  induction items generalizing number with
  | nil => rfl
  | cons item rest ih =>
      have own : loadedNumbers (Block.lines annotate (.ofItem number item)) = itemNumbers item := by
        rw [loadedNumbers, filterMap_lines (fun _ => rfl)]
        exact (Code.loadedNumbers_named _).trans (Code.loadedNumbers_ofItem number item)
      rw [blocks, List.flatMap_cons, List.flatMap_cons, ← ih (number + labelCount item), ← own]
      exact List.filterMap_append

/-- The numbers of an item are small but for its operand. -/
theorem mem_itemNumbers {item : Item} {value : Nat} (member : value ∈ itemNumbers item) :
    value ≤ Code.stackBase ∨ item.operand? = some value := by
  unfold itemNumbers at member
  split at member
  next => exact .inl (by revert member value; decide)
  next => exact .inl (by rw [List.eq_of_mem_replicate member]; decide)
  next => exact .inl (by revert member value; decide)
  next => exact .inr (Option.mem_toList.1 member)

theorem mem_itemNumbers_of_operand {item : Item} {value : Nat}
    (operand : item.operand? = some value) : value ∈ itemNumbers item := by
  unfold itemNumbers
  split
  next => cases operand
  next => cases operand
  next => cases operand
  next => exact Option.mem_toList.2 operand

/-- All numbers that code loads are within a limit if the operands are. -/
theorem forall_le_iff {items : List Item} {limit : Nat} (enough : Code.stackBase ≤ limit) :
    (∀ value ∈ items.flatMap itemNumbers, value ≤ limit) ↔
      ∀ value ∈ operands items, value ≤ limit := by
  constructor
  · intro all value member
    obtain ⟨item, inside, operand⟩ := List.mem_filterMap.1 member
    exact all value (List.mem_flatMap.2 ⟨item, inside, mem_itemNumbers_of_operand operand⟩)
  · intro all value member
    obtain ⟨item, inside, own⟩ := List.mem_flatMap.1 member
    rcases mem_itemNumbers own with small | operand
    · exact Nat.le_trans small enough
    · exact all value (List.mem_filterMap.2 ⟨item, inside, operand⟩)

/-- The only misfit that the code of an item may load is its operand. -/
theorem find?_itemNumbers (item : Item) :
    (itemNumbers item).find? (IsMisfit ·) = item.operand?.toList.find? (IsMisfit ·) := by
  unfold itemNumbers
  split
  next =>
    change [Code.stackBase, 5].find? (IsMisfit ·) = none
    decide
  next =>
    refine List.find?_eq_none.2 fun value member => ?_
    rw [List.eq_of_mem_replicate member]
    decide
  next =>
    change [5, 1, 2, 3, 4].find? (IsMisfit ·) = none
    decide
  next => rfl

/-- The first misfit that code loads is the first one among the operands. -/
theorem find?_flatMap_itemNumbers (items : List Item) :
    (items.flatMap itemNumbers).find? (IsMisfit ·) = (operands items).find? (IsMisfit ·) := by
  rw [operands, List.filterMap_eq_flatMap_toList, List.find?_flatMap, List.find?_flatMap]
  exact congrArg (items.findSome? ·) (funext find?_itemNumbers)

/-! ## Acceptance -/

/-- A valid command overreaches if its operand is a misfit. -/
theorem overreaches_iff (unit : String) {command : Command} (valid : command.Valid) :
    command.Overreaches ↔ ∃ value ∈ (Item.command unit command).operand?, IsMisfit value := by
  have misfit (value : Nat) : IsMisfit value ↔ 32767 < value ∧ value < 65536 := Iff.rfl
  have based (segment : Segment) (index : UInt16) :
      segment.isBased ∧ 32767 < index.toNat ↔
        ∃ value ∈ (if segment.isBased then some index.toNat else none), IsMisfit value := by
    have bound := index.toNat_lt
    cases segment.isBased with
    | false => simp
    | true =>
        simp only [if_true, Option.mem_def, Option.some.injEq, exists_eq_left', misfit, true_and]
        omega
  cases command with
  | push segment index =>
      cases segment with
      | constant =>
          -- A valid constant fits, so it never overreaches and is no misfit.
          have fits : index.toNat ≤ 32767 := UInt16.le_iff_toNat_le.1 (valid 32767 rfl)
          simp [Command.Overreaches, Segment.isBased, Item.operand?, misfit, Nat.not_lt.2 fits]
      | locals | statics | arguments | this | that | pointer | temp => exact based _ index
  | pop segment index => exact based segment index
  | call name arguments =>
      simp only [Command.Overreaches, Item.operand?, Option.mem_def, Option.some.injEq,
        exists_eq_left', misfit]
      omega
  | operate | label | goto | ifGoto | function | ret =>
      simp [Command.Overreaches, Item.operand?]

/-- The operands of a program are misfits where commands overreach. -/
theorem find?_operands_eq_none_iff {entry : Option String} {units : List SourceUnit}
    (valid : ∀ unit ∈ units, ∀ command ∈ unit.commands, command.Valid) :
    (operands (programItems entry units)).find? (IsMisfit ·) = none ↔
      ∀ unit ∈ units, ∀ command ∈ unit.commands, ¬ command.Overreaches := by
  rw [List.find?_eq_none]
  constructor
  · intro fits unit inside command written overreaches
    obtain ⟨value, operand, misfit⟩ :=
      (overreaches_iff unit.name (valid unit inside command written)).1 overreaches
    have item : Item.command unit.name command ∈ programItems entry units :=
      List.mem_append_right _
        (List.mem_flatMap.2 ⟨unit, inside, List.mem_map_of_mem written⟩)
    exact fits value (List.mem_filterMap.2 ⟨_, item, operand⟩) (decide_eq_true misfit)
  · intro modest value member misfit
    obtain ⟨item, listed, operand⟩ := List.mem_filterMap.1 member
    rcases List.mem_append.1 listed with start | later
    · obtain ⟨name, -, rfl⟩ := Option.map_eq_some_iff.1 (Option.mem_toList.1 start)
      cases operand
    · obtain ⟨unit, inside, mapped⟩ := List.mem_flatMap.1 later
      obtain ⟨command, written, rfl⟩ := List.mem_map.1 mapped
      refine modest unit inside command written ?_
      exact (overreaches_iff unit.name (valid unit inside command written)).2
        ⟨value, operand, of_decide_eq_true misfit⟩

/-- The misfits among lines of blocks are those among the operands of the items. -/
theorem findSome?_misfit?_blocks (annotate : Bool) (number : Nat) (items : List Item) :
    ((blocks number items).flatMap (Block.lines annotate)).findSome? Line.misfit? =
      (operands items).find? (IsMisfit ·) := by
  rw [Asm.findSome?_misfit?, loadedNumbers_blocks, find?_flatMap_itemNumbers]

/-- How assembling sound items ends that declare no name twice. -/
theorem ends_assemble_itemsText {items : List Item} (sound : ∀ item ∈ items, item.Sound)
    {annotate : Bool}
    (nodup : (Asm.declaredNames ((blocks 0 items).flatMap (Block.lines annotate))).Nodup) :
    Asm.Ends (VariablesFit items) ((blocks 0 items).flatMap (Block.lines annotate))
      (Asm.Program.assemble (itemsText annotate items)) := by
  rw [← variablesFit_blocks_iff (fun item member => (sound item member).valid) annotate]
  exact Asm.Program.ends_assemble_render (clean_of_mem_blocks sound annotate 0) nodup

/-- They are assembled if their operands fit and there is room for their variables. -/
theorem exists_assemble_itemsText {items : List Item} (sound : ∀ item ∈ items, item.Sound)
    {annotate : Bool}
    (nodup : (Asm.declaredNames ((blocks 0 items).flatMap (Block.lines annotate))).Nodup)
    (fits : (operands items).find? (IsMisfit ·) = none) (room : VariablesFit items) :
    ∃ program, Asm.Program.assemble (itemsText annotate items) = .ok program := by
  rw [(ends_assemble_itemsText sound nodup).exists_ok_iff, findSome?_misfit?_blocks]
  exact ⟨fits, room⟩

/--
Take accepted sources in units that keep to their lines, as symbols do, with
an entry that is a symbol or none; no name is declared twice or written like a
label that the code makes.  Their text is assembled exactly if no command
overreaches and there is an address for another cell until the last variable
is loaded.  Otherwise the first misfit is the fault if there is room, and the
missing room if there is no misfit.  The numbers in the text are within the
limit of a load exactly if the operands are, and every computation in it is
read back.
-/
theorem assembled_iff_fits {entry : Option String} {annotate : Bool}
    {sources : List (String × String)} {units : List SourceUnit}
    (read : readUnits sources = .ok units)
    (keeps : ∀ source ∈ sources, KeepsLine source.1.toList)
    (starts : ∀ name ∈ entry, isSymbol name.toList)
    (distinct : (givenNames (programItems entry units)).Nodup)
    (apart : ∀ label ∈ blockLabels (blocks 0 (programItems entry units)),
      label.text ∉ givenNames (programItems entry units)) :
    let items := programItems entry units
    let lines := (blocks 0 items).flatMap (Block.lines annotate)
    ((∃ program, Asm.Program.assemble (programText annotate entry units) = .ok program) ↔
      (∀ unit ∈ units, ∀ command ∈ unit.commands, ¬ command.Overreaches) ∧
        VariablesFit items) ∧
    (VariablesFit items → ∀ value, (operands items).find? (IsMisfit ·) = some value →
      Asm.Program.assemble (programText annotate entry units) =
        .error (.numberOutOfRange ("@" ++ toString value))) ∧
    (¬ VariablesFit items →
      (∀ unit ∈ units, ∀ command ∈ unit.commands, ¬ command.Overreaches) →
        Asm.Program.assemble (programText annotate entry units) = .error .variableOverflow) ∧
    ((∀ value ∈ loadedNumbers lines, value ≤ 32767) ↔ ∀ value ∈ operands items, value ≤ 32767) ∧
    ∀ computation, Line.compute computation ∈ lines →
      Asm.Statement.read computation.text.toList = .ok (.compute computation) := by
  intro items lines
  have valid := fun unit inside => (readUnits_spec read unit inside).2
  have sound := sound_of_mem_programItems read starts keeps
  have nodup : (Asm.declaredNames lines).Nodup := nodup_declaredNames_iff.2 ⟨distinct, apart⟩
  have ends : Asm.Ends (VariablesFit items) lines
      (Asm.Program.assemble (programText annotate entry units)) :=
    ends_assemble_itemsText sound nodup
  have misfits : lines.findSome? Line.misfit? = (operands items).find? (IsMisfit ·) :=
    findSome?_misfit?_blocks annotate 0 items
  have modest := @find?_operands_eq_none_iff entry units valid
  refine ⟨?_, fun room value first => ends.of_misfit room (misfits.trans first),
    fun lacks small => ends.of_full lacks (misfits.trans (modest.2 small)), ?_,
    fun computation _ => Line.read_compute computation⟩
  · rw [ends.exists_ok_iff, misfits, modest]
  · rw [loadedNumbers_blocks]
    exact forall_le_iff (by decide)

/-- A unit whose operands are as large as a load allows. -/
def reachingUnit : SourceUnit :=
  ⟨"M", [.function "F" 0, .push .locals 32767, .call "F" 32762]⟩

def reachingSource : String × String :=
  ("M", "function F 0\npush local 32767\ncall F 32762")

/-- A unit whose only operand is beyond that. -/
def overreachingUnit : SourceUnit :=
  ⟨"M", [.push .locals 40000]⟩

def overreachingSource : String × String :=
  ("M", "push local 40000")

/-- A unit that pushes so many static variables, each of them once. -/
def crowdedUnit (count : Nat) : SourceUnit :=
  ⟨"M", (List.range count).map fun index => .push .statics (.ofNat index)⟩

def crowdedSource (count : Nat) : String × String :=
  ("M", listing (crowdedUnit count).commands)

theorem readUnits_crowded (count : Nat) :
    readUnits [crowdedSource count] = .ok [crowdedUnit count] := by
  have valid : ∀ command ∈ (crowdedUnit count).commands, command.Valid := by
    intro command member
    obtain ⟨index, -, rfl⟩ := List.mem_map.1 member
    intro most bounded
    cases bounded
  rw [crowdedSource, readUnits, commands_of_outcomes (outcomes_listing valid)]
  rfl

section crowded

variable {count : Nat}

theorem programItems_crowded : programItems none [crowdedUnit count] =
    (List.range count).map fun index => .command "M" (.push .statics (.ofNat index)) := by
  simp [programItems, crowdedUnit, Function.comp_def]

theorem givenNames_crowded : givenNames (programItems none [crowdedUnit count]) = [] := by
  rw [programItems_crowded, givenNames, List.filterMap_map]
  exact List.filterMap_eq_nil_iff.2 fun _ _ => rfl

theorem blockLabels_crowded :
    blockLabels (blocks 0 (programItems none [crowdedUnit count])) = [] := by
  rw [programItems_crowded]
  generalize List.range count = indices
  induction indices with
  | nil => rfl
  | cons index rest ih => exact ih

theorem sourceVariables_crowded : sourceVariables (programItems none [crowdedUnit count]) =
    (List.range count).map fun index => (Symbol.static "M" (.ofNat index)).text := by
  have names : (programItems none [crowdedUnit count]).flatMap sourcedNames =
      (List.range count).map fun index => (Symbol.static "M" (.ofNat index)).text := by
    rw [programItems_crowded, List.flatMap_map, List.map_eq_flatMap]
    rfl
  rw [sourceVariables, givenNames_crowded, blockLabels_crowded, names]
  refine List.filter_eq_self.2 fun name member => ?_
  obtain ⟨index, -, rfl⟩ := List.mem_map.1 member
  have plain := Asm.predefined?_of_dot (@Symbol.dot_mem_text (.static "M" (.ofNat index)) rfl)
  exact decide_eq_true ⟨plain, List.not_mem_nil, List.not_mem_nil⟩

/-- Different variables have room exactly up to the number of addresses. -/
theorem variablesFit_crowded_iff (words : count ≤ UInt16.size) :
    VariablesFit (programItems none [crowdedUnit count]) ↔ count ≤ Asm.variableLimit := by
  have distinct : (sourceVariables (programItems none [crowdedUnit count])).Nodup := by
    rw [sourceVariables_crowded]
    refine List.Nodup.map_on (fun first left second right same => ?_) List.nodup_range
    have less := Nat.lt_of_lt_of_le (List.mem_range.1 left) words
    have less' := Nat.lt_of_lt_of_le (List.mem_range.1 right) words
    have index := congrArg UInt16.toNat (Symbol.static.inj (Symbol.text_inj rfl rfl same)).2
    rwa [UInt16.toNat_ofNat_of_lt' less, UInt16.toNat_ofNat_of_lt' less'] at index
  rw [variablesFit_iff_length_le distinct, sourceVariables_crowded, List.length_map,
    List.length_range]

end crowded

theorem assembled_iff_fits_reaching :
    (∃ program, Asm.Program.assemble (programText false (some "F") [reachingUnit]) = .ok program) ∧
      Asm.Program.assemble (programText true none [overreachingUnit]) =
        .error (.numberOutOfRange "@40000") ∧
      Asm.Program.assemble (programText false none [crowdedUnit 65521]) =
        .error .variableOverflow := by
  have read : readUnits [reachingSource] = .ok [reachingUnit] := by decide +kernel
  have read' : readUnits [overreachingSource] = .ok [overreachingUnit] := by decide +kernel
  have keeps {source : String × String} (named : source.1 = "M") : KeepsLine source.1.toList :=
    keepsLine_of_isSymbol (by rw [named]; decide)
  obtain ⟨fits, -⟩ := @assembled_iff_fits (some "F") false _ _ read
    (List.forall_mem_singleton.2 (keeps rfl)) (by decide) (by decide +kernel) (by decide +kernel)
  obtain ⟨-, refused, -⟩ := @assembled_iff_fits none true _ _ read'
    (List.forall_mem_singleton.2 (keeps rfl)) (by decide) (by decide +kernel) (by decide +kernel)
  have lacking {count : Nat} (words : count ≤ UInt16.size) (many : Asm.variableLimit < count) :
      Asm.Program.assemble (programText false none [crowdedUnit count]) =
        .error .variableOverflow := by
    obtain ⟨-, -, lacking, -⟩ := @assembled_iff_fits none false _ _ (readUnits_crowded count)
      (List.forall_mem_singleton.2 (keeps rfl)) (by decide)
      (by rw [givenNames_crowded]; exact List.nodup_nil)
      (by rw [blockLabels_crowded]; exact fun label member => absurd member List.not_mem_nil)
    refine lacking (mt (variablesFit_crowded_iff words).1 (Nat.not_le.2 many)) ?_
    intro unit inside command written overreaches
    cases List.mem_singleton.1 inside
    obtain ⟨index, -, rfl⟩ := List.mem_map.1 written
    cases overreaches.1
  exact ⟨fits.2 ⟨by decide, by decide +kernel⟩,
    refused (by decide +kernel) 40000 (by decide +kernel), lacking (by decide) (by decide)⟩

end HackToolchain.Codegen
