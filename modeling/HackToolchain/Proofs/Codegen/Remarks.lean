import HackToolchain.Proofs.Asm.Remarks
import HackToolchain.Proofs.Codegen.CleanLines
import HackToolchain.Proofs.Vm.RoundTrip

/-!
# Remarks of programs

With remarks on, the text of a program differs from the one without only by
lines that begin with `//`.  Read as source text, these lines are the commands
that were compiled, in order.  Units and entries may be called anything that
is one line.
-/

namespace HackToolchain.Codegen

open HackToolchain.Asm (Line)
open HackToolchain.Vm

/-! ## Lines of blocks -/

theorem Code.isRemark_named {item : Item} (valid : item.Valid) (number : Nat) :
    ∀ line ∈ (ofItem number item).named, line.isRemark = false :=
  forall_mem_named valid (fun _ => rfl) (fun _ => rfl) (fun _ _ => rfl) fun _ _ => rfl

section blocks

variable {items : List Item} (valid : ∀ item ∈ items, item.Valid) (number : Nat)

include valid

/-- Without its remarks, a program has the lines it has when remarks are off. -/
theorem filter_not_isRemark_blocks :
    ((blocks number items).flatMap (Block.lines true)).filter (fun line => !line.isRemark) =
      (blocks number items).flatMap (Block.lines false) := by
  induction items generalizing number with
  | nil => rfl
  | cons item rest ih =>
      obtain ⟨own, others⟩ := List.forall_mem_cons.1 valid
      have code : (Code.ofItem number item).named.filter (fun line => !line.isRemark) =
          (Code.ofItem number item).named := by
        refine List.filter_eq_self.2 fun line member => ?_
        simp [Code.isRemark_named own number line member]
      rw [blocks, List.flatMap_cons, List.flatMap_cons, List.filter_append, ih others]
      refine congrArg (· ++ _) ?_
      exact (List.filter_cons_of_neg (by simp [Line.isRemark])).trans code

/-- The remarks of a program show its items in order. -/
theorem filter_isRemark_blocks :
    ((blocks number items).flatMap (Block.lines true)).filter Line.isRemark =
      items.map fun item => .remark item.text := by
  induction items generalizing number with
  | nil => rfl
  | cons item rest ih =>
      obtain ⟨own, others⟩ := List.forall_mem_cons.1 valid
      have code : (Code.ofItem number item).named.filter Line.isRemark = [] := by
        refine List.filter_eq_nil_iff.2 fun line member => ?_
        simp [Code.isRemark_named own number line member]
      rw [blocks, List.flatMap_cons, List.filter_append, ih others, List.map_cons]
      change [Line.remark item.text] ++ (Code.ofItem number item).named.filter Line.isRemark ++ _ = _
      rw [code]
      rfl

end blocks

/-! ## Texts of programs -/

section accepted

variable {entry : Option String} {sources : List (String × String)} {units : List SourceUnit}

theorem newline_notMem_carried (accepted : readUnits sources = .ok units)
    (starts : ∀ name ∈ entry, '\n' ∉ name.toList)
    (single : ∀ source ∈ sources, '\n' ∉ source.1.toList) :
    ∀ item ∈ programItems entry units, ∀ name ∈ item.carried?, '\n' ∉ name.toList := by
  intro item member name carries
  rcases mem_programItems_of_readUnits accepted member with
    ⟨_, same, rfl⟩ | ⟨source, listed, command, rfl, -⟩
  · cases carries
    exact starts name same
  · rw [Item.carried?_command carries]
    exact single source listed

/-- Shown to a reader and read again, the items of a program are its commands; a start is skipped. -/
theorem outcomes_text_programItems (entry : Option String) {units : List SourceUnit}
    (valid : ∀ command ∈ units.flatMap SourceUnit.commands, command.Valid) :
    ((programItems entry units).map fun item => item.text.toList).filterMap outcome? =
      (entry.map fun _ => Outcome.skipped).toList ++
        (units.flatMap SourceUnit.commands).map .command := by
  have shown : (units.flatMap fun unit => unit.commands.map (Item.command unit.name)).map
      (fun item => item.text.toList) =
        (units.flatMap SourceUnit.commands).map fun command => command.text.toList := by
    simp only [List.map_flatMap, List.map_map]
    rfl
  rw [programItems, List.map_append, shown, List.filterMap_append,
    (writes_text valid).outcomes valid]
  cases entry with
  | none => rfl
  | some name =>
      refine congrArg (· ++ _) ?_
      change ["bootstrap".toList].filterMap outcome? = [.skipped]
      decide +kernel

/--
Remarks are faithful and harmless.  Without its remarks, the text with remarks
is the one without, so both are assembled to the same program or refused for
the same fault; and what the remarks say is read as the commands of the units.
-/
theorem remarks_faithful (accepted : readUnits sources = .ok units)
    (starts : ∀ name ∈ entry, '\n' ∉ name.toList)
    (single : ∀ source ∈ sources, '\n' ∉ source.1.toList) :
    Text.withoutRemarks (programText true entry units) = programText false entry units ∧
      Asm.Program.assemble (programText true entry units) =
        Asm.Program.assemble (programText false entry units) ∧
      (readings (sourceOfLines (Text.remarks (programText true entry units)))).map
          Reading.outcome =
        (entry.map fun _ => Outcome.skipped).toList ++
          (units.flatMap SourceUnit.commands).map .command := by
  have valid := @valid_of_mem_programItems entry _ _ accepted
  have lines := newline_notMem_blocks valid (newline_notMem_carried accepted starts single) true 0
  have deleted : Text.withoutRemarks (programText true entry units) =
      programText false entry units := by
    rw [programText, itemsText, Asm.withoutRemarks_render lines,
      filter_not_isRemark_blocks valid, programText, itemsText]
  refine ⟨deleted, ?_, ?_⟩
  · rw [← deleted, Asm.Program.assemble_withoutRemarks]
  · have said : Text.remarks (programText true entry units) =
        (programItems entry units).map fun item => item.text.toList := by
      rw [programText, itemsText, Asm.remarks_render lines, filter_isRemark_blocks valid,
        List.map_map]
      exact List.map_congr_left fun item _ => by simp [Line.text_remark]
    have apart : ∀ line ∈ Text.remarks (programText true entry units), '\n' ∉ line := by
      intro line member
      rw [said] at member
      obtain ⟨item, inside, rfl⟩ := List.mem_map.1 member
      exact newline_notMem_text (valid item inside)
    rw [outcomes_sourceOfLines apart, said]
    refine outcomes_text_programItems entry fun command member => ?_
    obtain ⟨unit, inside, written⟩ := List.mem_flatMap.1 member
    exact (readUnits_spec accepted unit inside).2 command written

end accepted

/-- A unit whose name starts a comment, with commands that take numbers for labels and a static. -/
def slashedUnit : SourceUnit :=
  ⟨"a // b", [.function "F" 1, .push .statics 3, .operate (.compare .lt), .call "F" 0]⟩

def slashedSource : String × String :=
  ("a // b", "function F 01 // one local\n\tpush static 3\nlt\n\n  call F 0")

theorem remarks_faithful_slashed :
    readUnits [slashedSource] = .ok [slashedUnit] ∧
      Text.withoutRemarks (programText true (some "1 // 2") [slashedUnit]) =
        programText false (some "1 // 2") [slashedUnit] ∧
      Asm.Program.assemble (programText true (some "1 // 2") [slashedUnit]) =
        Asm.Program.assemble (programText false (some "1 // 2") [slashedUnit]) ∧
      (readings (sourceOfLines
          (Text.remarks (programText true (some "1 // 2") [slashedUnit])))).map Reading.outcome =
        .skipped :: slashedUnit.commands.map .command := by
  have read : readUnits [slashedSource] = .ok [slashedUnit] := by decide +kernel
  obtain ⟨deleted, assembled, said⟩ :=
    @remarks_faithful (some "1 // 2") _ _ read (by decide) (by decide)
  exact ⟨read, deleted, assembled, said.trans (by simp [slashedUnit])⟩

end HackToolchain.Codegen
