import HackToolchain.Proofs.Codegen.KeptLines
import HackToolchain.Proofs.Cpu.Comparison
import HackToolchain.Proofs.Cpu.Loading

/-!
# Truth values

Wherever a comparison stands in an assembled program, its block puts the truth
value of the two top words, compared as signed numbers, in the place of the
lower one.  Otherwise it changes SP and, unless it compares for equality, the
scratch cell that holds the upper word meanwhile.
-/

namespace HackToolchain.Vm

/-- Whether a comparison holds of a lower and an upper number. -/
def Comparison.holds (lower upper : Int) : Comparison → Bool
  | eq => lower = upper
  | gt => upper < lower
  | lt => lower < upper

theorem Comparison.apply_eq (comparison : Comparison) (lower upper : Word) :
    comparison.apply lower upper =
      if comparison.holds lower.toInt upper.toInt then -1 else 0 := by
  cases comparison with
  | eq =>
      have same : (lower == upper) = (lower.toInt = upper.toInt) := by
        rw [beq_iff_eq, Int16.toInt_inj]
      simp only [apply, truth, same, holds, decide_eq_true_eq]
  | gt | lt => simp only [apply, truth, holds, Int16.lt_iff_toInt_lt, decide_eq_true_eq]

end HackToolchain.Vm

namespace HackToolchain.Cpu

open HackToolchain.Asm (KeepsLine instructionCount)
open HackToolchain.Codegen
open HackToolchain.Vm

/-- What a comparison of the words below a height does to memory. -/
structure Compared (comparison : Comparison) (height : Nat) (before after : Memory) : Prop where
  pointer : after.register .sp = .ofNat (height - 1)
  /-- The truth value replaces the lower word. -/
  top : after.read (.ofNat (height - 2)) =
    if comparison.holds (before.read (.ofNat (height - 2))).toInt
      (before.read (.ofNat (height - 1))).toInt then -1 else 0
  /-- No other cell changes, except R13 if the comparison is one of order. -/
  kept : ∀ cell, 0 < cell → cell < memorySize → cell ≠ height - 2 →
    (cell = 13 → comparison = .eq) → after.read (.ofNat cell) = before.read (.ofNat cell)

theorem read_comparing {memory : Memory} {comparison : Comparison} {cell : Nat}
    (inside : cell < memorySize) (apart : cell = 13 → comparison = .eq) :
    (comparing memory comparison).read (.ofNat cell) = memory.read (.ofNat cell) := by
  cases comparison with
  | eq => rfl
  | gt | lt =>
      refine memory.read_write_cell _ inside fun same => ?_
      exact absurd (apart (same.symm.trans (by decide))) (by simp)

theorem register_comparing (memory : Memory) (comparison : Comparison) (register : Asm.Register) :
    (comparing memory comparison).register register = memory.register register := by
  cases comparison with
  | eq => rfl
  | gt | lt => exact memory.register_write_scratch (by decide) _ register

/-- The effect of a comparison by the cells of memory. -/
theorem compared_act {memory : Memory} {height : Nat}
    (points : memory.register .sp = .ofNat height) (low : 258 ≤ height) (high : height < memorySize)
    (comparison : Comparison) :
    Compared comparison height memory
      (Operator.act (comparing memory comparison) (.compare comparison)) := by
  have start : (comparing memory comparison).register .sp = .ofNat height :=
    (register_comparing memory comparison .sp).trans points
  have upper : (comparing memory comparison).popped = memory.read (.ofNat (height - 1)) := by
    rw [Memory.popped_eq start (by omega) (by omega), read_comparing (by omega) (by omega)]
  have dropped := Memory.register_sp_drop start (by omega)
  have top : (comparing memory comparison).drop.top = .ofNat (height - 2) := by
    rw [Memory.top_eq dropped (by omega), Nat.sub_sub]
  have read (cell : Nat) (positive : 0 < cell) (inside : cell < memorySize)
      (apart : cell = 13 → comparison = .eq) :
      (comparing memory comparison).drop.read (.ofNat cell) = memory.read (.ofNat cell) := by
    rw [Memory.read_drop positive inside, read_comparing inside apart]
  have place : (cellOf (.ofNat (height - 2))).val = height - 2 := cellOf_ofNat (by omega)
  simp only [Operator.act, upper, top, Memory.replaceTop, comparison.apply_eq,
    read (height - 2) (by omega) (by omega) (by omega)]
  refine ⟨?_, Memory.read_write_self _ _ _, ?_⟩
  · rw [Memory.register_write, dropped]
    intro same
    have numbers := congrArg Fin.val same
    rw [place, cellOf_register] at numbers
    exact absurd (show height - 2 = 0 from numbers) (by omega)
  · intro cell positive inside other apart
    rw [Memory.read_write_cell _ _ inside (by rw [place]; exact other.symm),
      read cell positive inside apart]

/-- The labels of a comparison are not predefined. -/
theorem predefined?_of_mem_compare {unit : String} {number : Nat} {comparison : Comparison}
    {symbol : Symbol} (member : symbol ∈ (Code.compare unit number comparison).declared) :
    Asm.predefined? symbol.text = none := by
  have marks : (Code.compare unit number comparison).declared =
      itemLabels number (.command unit (.operate (.compare comparison))) := by
    cases comparison <;> rfl
  rw [marks, ← Code.labels_ofItem] at member
  have synthetic : symbol.isSynthetic := (List.mem_filter.1 member).2
  exact Asm.predefined?_of_dot (Symbol.dot_mem_text (Symbol.isNumbered_of_isSynthetic synthetic))

/--
Take accepted sources in units that keep to their lines, generate a program
with labels numbered from any number on, and assemble it.  Wherever a
comparison stands in it, its code runs from its first instruction to the one
behind the block and compares the two top words.
-/
theorem comparisons_exact {sources : List (String × String)} {units : List SourceUnit}
    {entry : Option String} {annotate : Bool} {number : Nat} {program : Asm.Program}
    (read : readUnits sources = .ok units)
    (keeps : ∀ source ∈ sources, KeepsLine source.1.toList)
    (starts : ∀ name ∈ entry, KeepsLine name.toList)
    (assembled : Asm.Program.assemble (Asm.render
      ((blocks number (programItems entry units)).flatMap (Block.lines annotate))) = .ok program)
    (small : program.rom.size ≤ memorySize) {position : Nat} {unit : String}
    {comparison : Comparison} (here : (programItems entry units)[position]? =
      some (.command unit (.operate (.compare comparison))))
    (machine : Machine) (begins : machine.pc = place (programItems entry units) position)
    {height : Nat} (points : machine.memory.register .sp = .ofNat height) (low : 258 ≤ height)
    (high : height < memorySize) :
    ∃ last, Travels program.rom (place (programItems entry units) position)
        (place (programItems entry units) (position + 1)) machine last ∧
      last.pc = place (programItems entry units) (position + 1) ∧
        Compared comparison height machine.memory last.memory := by
  have kept := kept_of_mem_programItems read starts keeps
  have stands := stands_of_kept kept assembled here fun _ _ => predefined?_of_mem_compare
  have ends : place (programItems entry units) (position + 1) = machine.pc + instructionCount
      (Code.compare unit (number + labelTotal ((programItems entry units).take position))
        comparison) := by
    rw [place_succ here, begins, ← Code.size_ofItem]
    rfl
  have within : place (programItems entry units) (position + 1) ≤ memorySize := by
    refine Nat.le_trans ?_ small
    rw [size_of_kept kept assembled]
    exact place_mono _ (List.getElem?_eq_some_iff.1 here).1
  rw [← begins] at stands ⊢
  obtain ⟨a, d, travels⟩ :=
    travels_compare (grounded_linkingOf program) machine stands ends within
  exact ⟨_, travels, rfl, compared_act points low high comparison⟩

/-- A unit of an odd name that compares what lies below a popped word. -/
def orderingUnit : SourceUnit :=
  ⟨"(1) @b", [.pop .temp 0, .operate (.compare .lt)]⟩

def orderingSource : String × String :=
  ("(1) @b", "pop temp 0\nlt")

/-- The least word directly below the greatest one. -/
def extremes : Memory :=
  ((Memory.cleared.setRegister .sp 258).write 256 (-32768)).write 257 32767

theorem comparisons_exact_extremes : ∃ program last,
    readUnits [orderingSource] = .ok [orderingUnit] ∧
      Asm.Program.assemble (programText true none [orderingUnit]) = .ok program ∧
      Travels program.rom 5 43 ⟨extremes, 5, 0, 0⟩ last ∧ last.pc = 43 ∧
      Compared .lt 258 extremes last.memory ∧ last.memory.read 256 = -1 := by
  have read : readUnits [orderingSource] = .ok [orderingUnit] := by decide +kernel
  have keeps : ∀ source ∈ [orderingSource], KeepsLine source.1.toList := by
    intro source only
    rw [List.mem_singleton.1 only]
    exact ⟨by decide, Text.commentFree_of_notMem (by decide)⟩
  have starts : ∀ name ∈ (none : Option String), KeepsLine name.toList := nofun
  have symbols : ∀ name ∈ (none : Option String), isSymbol name.toList := nofun
  have sound := sound_of_mem_programItems read symbols keeps
  obtain ⟨program, assembled, size⟩ := @exists_assembled _ true sound 43 (by decide +kernel)
  have points : extremes.register .sp = .ofNat 258 := by
    rw [extremes, Memory.register_write _ _ (by decide), Memory.register_write _ _ (by decide),
      Memory.register_setRegister_self]
    rfl
  obtain ⟨last, travels, ends, compared⟩ := @comparisons_exact _ _ _ true 0 _ read keeps starts
    assembled (by rw [size]; decide) 1 _ _ rfl ⟨extremes, 5, 0, 0⟩ rfl _ points (by decide)
    (by decide)
  refine ⟨program, last, read, assembled, travels, ends, compared, ?_⟩
  have lower : extremes.read (.ofNat (258 - 2)) = -32768 := by
    rw [extremes, Memory.read_write_of_ne _ _ (by decide)]
    exact Memory.read_write_self _ _ _
  have upper : extremes.read (.ofNat (258 - 1)) = 32767 := Memory.read_write_self _ _ _
  have top := compared.top
  rw [lower, upper] at top
  exact top

end HackToolchain.Cpu
