import HackToolchain.Proofs.Cpu.Templates

/-!
# Comparisons branch inside their blocks

The code of a comparison jumps to labels of its own.  An ordering comparison
first settles the case of operands with different signs, where the difference
may overflow; then the sign of the word in D decides, and the truth value
replaces the lower operand.
-/

namespace HackToolchain.Cpu

open HackToolchain.Asm (Instruction Line instructionCount)
open HackToolchain.Codegen (Code Linking Mark Symbol)
open HackToolchain.Vm (Comparison Operator truth)

/-! ## Signs -/

/-- A word with the sign of the difference of two words, as ordering comparisons compute it. -/
def differenceWord (lower upper : Word) : Word :=
  if lower < 0 then if upper < 0 then lower - upper else -1
  else if 0 ≤ upper then lower - upper else 1

/-- The difference of words of the same sign does not overflow. -/
theorem toInt_differenceWord (lower upper : Word) :
    (0 < (differenceWord lower upper).toInt ↔ upper.toInt < lower.toInt) ∧
      ((differenceWord lower upper).toInt < 0 ↔ lower.toInt < upper.toInt) := by
  have bounds := lower.toInt_lt
  have bounds' := upper.toInt_lt
  have above := lower.le_toInt
  have above' := upper.le_toInt
  unfold differenceWord
  simp only [Int16.lt_iff_toInt_lt, Int16.le_iff_toInt_le, Int16.reduceToInt]
  split
  · split
    · rw [Int16.toInt_sub, Int.bmod_def]
      split <;> omega
    · simp only [Int16.reduceToInt]
      omega
  · split
    · rw [Int16.toInt_sub, Int.bmod_def]
      split <;> omega
    · simp only [Int16.reduceToInt]
      omega

/-- An ordering comparison is decided by the sign of the difference word. -/
theorem truth_isTaken_differenceWord (comparison : Comparison) (ordering : comparison ≠ .eq)
    (lower upper : Word) :
    truth (isTaken (Code.comparisonJump comparison) (differenceWord lower upper)) =
      comparison.apply lower upper := by
  have signs := toInt_differenceWord lower upper
  cases comparison with
  | eq => exact absurd rfl ordering
  | gt =>
      rw [Comparison.apply, Code.comparisonJump, isTaken]
      simp only [Int16.lt_iff_toInt_lt, Int16.reduceToInt, signs.1]
  | lt =>
      rw [Comparison.apply, Code.comparisonJump, isTaken]
      simp only [Int16.lt_iff_toInt_lt, Int16.reduceToInt, signs.2]

/-- Equality is decided by whether the wrapping difference is zero. -/
theorem truth_isTaken_sub (lower upper : Word) :
    truth (isTaken (Code.comparisonJump .eq) (lower - upper)) =
      Comparison.eq.apply lower upper := by
  rw [Comparison.apply, Code.comparisonJump, isTaken]
  congr 1
  rw [Bool.eq_iff_iff, beq_iff_eq, beq_iff_eq, Int16.sub_eq_iff_eq_add, Int16.zero_add]

/-! ## From the sign to the truth value -/

variable {linking : Linking} {rom : Array Instruction}

/-- The code that turns the sign of D into a truth value and stores it. -/
def truthCode (place : Mark → Symbol) (comparison : Comparison) : Code :=
  [.load (place .holds), Code.jumpD (Code.comparisonJump comparison), Code.setD .zero,
   .load (place .done), Code.jump, .declare (place .holds), Code.setD .minusOne,
   .declare (place .done), Code.reg .sp, Code.setA (.xMinusOne .memory), Code.setM .d]

/-- The truth value of the jump on D replaces the top word. -/
theorem travels_truth (grounded : Grounded linking) (machine : Machine) (lower : Nat)
    {place : Mark → Symbol} {comparison : Comparison}
    (stands : linking.Stands rom machine.pc (truthCode place comparison))
    (above : lower < machine.pc) (small : machine.pc + 9 ≤ memorySize) :
    ∃ a d, Travels rom lower (machine.pc + 9) machine
      ⟨machine.memory.replaceTop (truth (isTaken (Code.comparisonJump comparison) machine.d)),
        machine.pc + 9, a, d⟩ := by
  obtain ⟨memory, pc, a, d⟩ := machine
  dsimp only at *
  have fits : pc + 9 < UInt16.size := Nat.lt_of_le_of_lt small (by decide)
  have holds : linking.word (place .holds) = .ofNat (pc + 5) :=
    (Linking.stands_drop 5 stands).1 _ rfl
  have done : linking.word (place .done) = .ofNat (pc + 6) :=
    (Linking.stands_drop 7 stands).1 _ rfl
  -- The last lines store D, whichever way they are reached.
  have store (a value : Word) : Travels rom lower (pc + 9) ⟨memory, pc + 6, a, value⟩
      (afterAll linking [Code.reg .sp, Code.setA (.xMinusOne .memory), Code.setM .d]
        ⟨memory, pc + 6, a, value⟩) :=
    travels_straight _ _ (Linking.stands_drop 8 stands) rfl (by simp) (by dsimp only; omega)
      (Nat.le_refl _)
  have stored (a value : Word) :
      (afterAll linking [Code.reg .sp, Code.setA (.xMinusOne .memory), Code.setM .d]
        ⟨memory, pc + 6, a, value⟩) =
      ⟨memory.replaceTop value, pc + 9, memory.top, value⟩ := by
    simp only [afterAll, Code.setA, Code.setM, Code.reg, List.foldl_cons, List.foldl_nil, after,
      Linking.instruction?, grounded.register]
    rfl
  have first : Travels rom lower (pc + 9) ⟨memory, pc, a, d⟩
      ⟨memory, if isTaken (Code.comparisonJump comparison) d then pc + 5 else pc + 2,
        linking.word (place .holds), d⟩ :=
    travels_branch [.load (place .holds)] ⟨memory, pc, a, d⟩
      ⟨memory, pc + 1, linking.word (place .holds), d⟩ (pc + 5) stands rfl (by simp)
      (by dsimp only; omega) (by dsimp only [List.length_singleton]; omega) rfl holds (by omega)
  cases taken : isTaken (Code.comparisonJump comparison) d with
  | true =>
      rw [taken, if_pos rfl] at first
      have one : Travels rom lower (pc + 9) ⟨memory, pc + 5, linking.word (place .holds), d⟩
          ⟨memory, pc + 6, linking.word (place .holds), -1⟩ :=
        .step (@step?_of_stands _ _ (Code.setD .minusOne) _ ⟨_, pc + 5, _, _⟩
          (Linking.stands_drop 6 stands) rfl)
      refine ⟨memory.top, -1, ?_⟩
      have last := store (linking.word (place .holds)) (-1)
      rw [stored] at last
      exact first.trans (by dsimp only; omega) (by dsimp only; omega)
        (one.trans (by dsimp only; omega) (by dsimp only; omega) last)
  | false =>
      rw [taken, if_neg (by simp)] at first
      have one : Travels rom lower (pc + 9) ⟨memory, pc + 2, linking.word (place .holds), d⟩
          ⟨memory, pc + 6, linking.word (place .done), 0⟩ :=
        travels_jump [Code.setD .zero, .load (place .done)]
          ⟨memory, pc + 2, linking.word (place .holds), d⟩
          ⟨memory, pc + 4, linking.word (place .done), 0⟩ (pc + 6) (Linking.stands_drop 2 stands)
          rfl (by simp) (by dsimp only; omega)
          (by dsimp only [List.length_cons, List.length_nil]; omega) rfl done (by omega)
      refine ⟨memory.top, 0, ?_⟩
      have last := store (linking.word (place .done)) 0
      rw [stored] at last
      exact first.trans (by dsimp only; omega) (by dsimp only; omega)
        (one.trans (by dsimp only; omega) (by dsimp only; omega) last)

/-! ## From the operands to the sign -/

/-- Both operands of an ordering comparison are looked at, and D gets the sign of the difference. -/
theorem travels_difference (grounded : Grounded linking) (machine : Machine)
    {place : Mark → Symbol} {lower upper : Nat}
    (stands : linking.Stands rom machine.pc (Code.difference place))
    (above : lower ≤ machine.pc) (below : machine.pc + 29 < upper) (small : upper ≤ memorySize) :
    ∃ a, Travels rom lower upper machine
      (let stored := machine.memory.drop.write stashCell machine.memory.popped
       ⟨stored, machine.pc + 29, a,
        differenceWord (stored.read stored.top) machine.memory.popped⟩) := by
  obtain ⟨memory, pc, a, d⟩ := machine
  dsimp only at *
  have fits : upper < UInt16.size := Nat.lt_of_le_of_lt small (by decide)
  have negative : linking.word (place .negative) = .ofNat (pc + 17) :=
    (Linking.stands_drop 17 stands).1 _ rfl
  have same : linking.word (place .sameSign) = .ofNat (pc + 24) :=
    (Linking.stands_drop 25 stands).1 _ rfl
  have test : linking.word (place .test) = .ofNat (pc + 29) :=
    (Linking.stands_drop 31 stands).1 _ rfl
  generalize storedEq : memory.drop.write stashCell memory.popped = stored
  have kept : stored.read stashCell = memory.popped := by
    rw [← storedEq, Memory.read_write_self]
  have first : Travels rom lower upper ⟨memory, pc, a, d⟩
      ⟨stored, if isTaken .lt (stored.read stored.top) then pc + 17 else pc + 10,
        linking.word (place .negative), stored.read stored.top⟩ := by
    refine travels_branch
      (Code.popD ++ [Code.scratch, Code.setM .d, Code.reg .sp, Code.setA (.xMinusOne .memory),
        Code.setD Code.m, .load (place .negative)])
      ⟨memory, pc, a, d⟩
      ⟨stored, pc + 9, linking.word (place .negative), stored.read stored.top⟩ (pc + 17) stands rfl
      (by simp) above ?_ ?_ negative (by omega)
    · change pc + 9 < upper
      omega
    · subst storedEq
      simp only [afterAll, Code.popD, Code.scratch, Code.setA, Code.setAM, Code.setM, Code.setD,
        Code.reg, List.foldl_append, List.foldl_cons, List.foldl_nil, after,
        Linking.instruction?, grounded.register, grounded.cell 13 (by decide)]
      rfl
  -- The upper operand is looked at in the same way whatever the sign of the lower one.
  have look (start next : Nat) (jump : Asm.Jump) (rest : Code) (a d : Word)
      (code : linking.Stands rom start
        ([Code.scratch, Code.setD Code.m, .load (place .sameSign)] ++ Code.jumpD jump :: rest))
      (inside : lower < start) (early : start + 3 < upper) (follows : next = start + 4) :
      Travels rom lower upper ⟨stored, start, a, d⟩
        ⟨stored, if isTaken jump memory.popped then pc + 24 else next,
          linking.word (place .sameSign), memory.popped⟩ := by
    subst follows
    refine travels_branch _ ⟨stored, start, a, d⟩
      ⟨stored, start + 3, linking.word (place .sameSign), memory.popped⟩ (pc + 24) code rfl
      (by simp) (by dsimp only; omega) early ?_ same (by omega)
    rw [← kept]
    simp only [afterAll, Code.scratch, Code.setD, List.foldl_cons, List.foldl_nil, after,
      Linking.instruction?, grounded.cell 13 (by decide)]
    rfl
  -- So is the sign settled where the operands differ in it.
  have settle (start : Nat) (comp : Asm.Comp) (value : Word) (rest : Code) (a d : Word)
      (code : linking.Stands rom start
        ([Code.setD comp, .load (place .test)] ++ Code.jump :: rest))
      (inside : lower < start) (early : start + 2 < upper)
      (yields : ∀ a d m, evaluate comp a d m = value) :
      Travels rom lower upper ⟨stored, start, a, d⟩
        ⟨stored, pc + 29, linking.word (place .test), value⟩ := by
    refine travels_jump _ ⟨stored, start, a, d⟩
      ⟨stored, start + 2, linking.word (place .test), value⟩ (pc + 29) code rfl
      (by simp) (by dsimp only; omega) early ?_ test (by omega)
    rw [← yields a d (stored.read a)]
    rfl
  have subtract (a d : Word) : Travels rom lower upper ⟨stored, pc + 24, a, d⟩
      ⟨stored, pc + 29, stored.top, stored.read stored.top - memory.popped⟩ := by
    have effect : afterAll linking
        [Code.scratch, Code.setD Code.m, Code.reg .sp, Code.setA (.xMinusOne .memory),
          Code.setD (.xMinusD .memory)] ⟨stored, pc + 24, a, d⟩ =
        ⟨stored, pc + 29, stored.top, stored.read stored.top - memory.popped⟩ := by
      rw [← kept]
      simp only [afterAll, Code.scratch, Code.setA, Code.setD, Code.reg, List.foldl_cons,
        List.foldl_nil, after, Linking.instruction?, grounded.register,
        grounded.cell 13 (by decide)]
      rfl
    rw [← effect]
    have code := Linking.stands_drop 26 stands
    refine travels_straight _ _ (Linking.stands_append.1 code).1 rfl (by simp) ?_ ?_
    · dsimp only
      omega
    · change pc + 24 + 5 ≤ upper
      omega
  have before : lower < pc + 17 ∧ pc + 17 < upper ∧ lower < pc + 10 ∧ pc + 10 < upper := by omega
  have between : lower < pc + 24 ∧ pc + 24 < upper := by omega
  unfold differenceWord
  cases sign : isTaken .lt (stored.read stored.top) with
  | true =>
      have less : stored.read stored.top < 0 := by simpa [isTaken] using sign
      rw [sign, if_pos rfl] at first
      have second := look (pc + 17) (pc + 21) .lt _ (linking.word (place .negative))
        (stored.read stored.top) (Linking.stands_drop 18 stands) (by omega) (by omega) rfl
      have start := first.trans before.1 before.2.1 second
      rw [if_pos less]
      cases upperSign : isTaken .lt memory.popped with
      | true =>
          have less' : memory.popped < 0 := by simpa [isTaken] using upperSign
          rw [upperSign, if_pos rfl] at start
          rw [if_pos less']
          exact ⟨_, start.trans between.1 between.2 (subtract _ _)⟩
      | false =>
          have notLess : ¬ memory.popped < 0 := by simpa [isTaken] using upperSign
          rw [upperSign, if_neg (by simp)] at start
          rw [if_neg notLess]
          have last := settle (pc + 21) .minusOne (-1) _ (linking.word (place .sameSign))
            memory.popped (Linking.stands_drop 22 stands) (by omega) (by omega) fun _ _ _ => rfl
          exact ⟨_, start.trans (by dsimp only; omega) (by dsimp only; omega) last⟩
  | false =>
      have notLess : ¬ stored.read stored.top < 0 := by simpa [isTaken] using sign
      rw [sign, if_neg (by simp)] at first
      have second := look (pc + 10) (pc + 14) .ge _ (linking.word (place .negative))
        (stored.read stored.top) (Linking.stands_drop 10 stands) (by omega) (by omega) rfl
      have start := first.trans before.2.2.1 before.2.2.2 second
      rw [if_neg notLess]
      cases upperSign : isTaken .ge memory.popped with
      | true =>
          have atLeast : 0 ≤ memory.popped := by simpa [isTaken] using upperSign
          rw [upperSign, if_pos rfl] at start
          rw [if_pos atLeast]
          exact ⟨_, start.trans between.1 between.2 (subtract _ _)⟩
      | false =>
          have notLeast : ¬ 0 ≤ memory.popped := by simpa [isTaken] using upperSign
          rw [upperSign, if_neg (by simp)] at start
          rw [if_neg notLeast]
          have last := settle (pc + 14) .one 1 _ (linking.word (place .sameSign))
            memory.popped (Linking.stands_drop 14 stands) (by omega) (by omega) fun _ _ _ => rfl
          exact ⟨_, start.trans (by dsimp only; omega) (by dsimp only; omega) last⟩

/-! ## Whole comparisons -/

/-- Memory while a comparison is made: an ordering comparison keeps its upper operand. -/
def comparing (memory : Memory) : Comparison → Memory
  | .eq => memory
  | .gt | .lt => memory.write stashCell memory.popped

/-- The code of an ordering comparison finds the sign first. -/
theorem compare_eq_append (unit : String) (number : Nat) {comparison : Comparison}
    (ordering : comparison ≠ .eq) :
    Code.compare unit number comparison =
      Code.difference (.mark unit · number) ++ truthCode (.mark unit · number) comparison := by
  cases comparison with
  | eq => exact absurd rfl ordering
  | gt | lt => rfl

/-- A comparison replaces its operands by their truth value. -/
theorem travels_compare (grounded : Grounded linking) (machine : Machine) {unit : String}
    {number : Nat} {comparison : Comparison} {upper : Nat}
    (stands : linking.Stands rom machine.pc (Code.compare unit number comparison))
    (ends : upper = machine.pc + instructionCount (Code.compare unit number comparison))
    (small : upper ≤ memorySize) :
    ∃ a d, Travels rom machine.pc upper machine
      ⟨Operator.act (comparing machine.memory comparison) (.compare comparison), upper, a, d⟩ := by
  obtain ⟨memory, pc, a, d⟩ := machine
  dsimp only at *
  by_cases equality : comparison = .eq
  · subst equality
    have size : upper = pc + 5 + 9 := ends
    subst size
    have front : linking.Stands rom pc
        (Code.popD ++ [Code.setA (.xMinusOne .address), Code.setD (.xMinusD .memory)]) :=
      (Linking.stands_append.1 stands).1
    have first := travels_straight _ ⟨memory, pc, a, d⟩ front rfl (by simp) (Nat.le_refl pc)
      (show pc + 5 ≤ pc + 5 + 9 by omega)
    have below : memory.drop.top = memory.top - 1 := by
      rw [Memory.top, Memory.drop, Memory.register_setRegister_self]
    have effect : afterAll linking
        (Code.popD ++ [Code.setA (.xMinusOne .address), Code.setD (.xMinusD .memory)])
          ⟨memory, pc, a, d⟩ =
        ⟨memory.drop, pc + 5, memory.drop.top,
          memory.drop.read memory.drop.top - memory.popped⟩ := by
      rw [below]
      simp only [afterAll, Code.popD, Code.setA, Code.setAM, Code.setD, Code.reg,
        List.foldl_append, List.foldl_cons, List.foldl_nil, after, Linking.instruction?,
        grounded.register]
      rfl
    rw [effect] at first
    have code : linking.Stands rom (pc + 5) (truthCode (.mark unit · number) .eq) :=
      (Linking.stands_append.1 stands).2
    obtain ⟨a', d', second⟩ := travels_truth grounded
      ⟨memory.drop, pc + 5, memory.drop.top, memory.drop.read memory.drop.top - memory.popped⟩ pc
      code (by dsimp only; omega) small
    rw [truth_isTaken_sub] at second
    exact ⟨a', d', first.trans (by dsimp only; omega) (by dsimp only; omega) second⟩
  · rw [compare_eq_append unit number equality, Linking.stands_append] at stands
    have size : upper = pc + 29 + 9 := by
      rw [ends, compare_eq_append unit number equality, Asm.instructionCount_append, Nat.add_assoc]
      rfl
    subst size
    have stash : comparing memory comparison = memory.write stashCell memory.popped := by
      cases comparison with
      | eq => exact absurd rfl equality
      | gt | lt => rfl
    have own : IsScratch stashCell := by decide
    obtain ⟨a', first⟩ := travels_difference grounded ⟨memory, pc, a, d⟩ stands.1
      (Nat.le_refl pc) (show pc + 29 < pc + 29 + 9 by omega) small
    have code : linking.Stands rom (pc + 29) (truthCode (.mark unit · number) comparison) :=
      stands.2
    obtain ⟨a'', d'', second⟩ := travels_truth grounded
      (let stored := memory.drop.write stashCell memory.popped
       ⟨stored, pc + 29, a', differenceWord (stored.read stored.top) memory.popped⟩) pc code
      (by dsimp only; omega) small
    rw [truth_isTaken_differenceWord comparison equality] at second
    refine ⟨a'', d'', ?_⟩
    simp only [Operator.act, stash, memory.drop_write_scratch own,
      memory.popped_write_scratch own]
    exact first.trans (by dsimp only; omega) (by dsimp only; omega) second

end HackToolchain.Cpu
