import HackToolchain.Cpu.Machine
import HackToolchain.Proofs.Codegen.Placement
import HackToolchain.Proofs.Stack

/-!
# Executing code that stands in a program

A stretch of code without jumps is executed line by line, and the machine stays
inside the stretch until its end.  So what such code does is one function of the
machine, and a block runs from its place without touching another place on the
way.  What a run within a limit finds is what a number of steps leads to.
-/

namespace HackToolchain.Cpu

open HackToolchain.Asm (Instruction Line instructionCount)
open HackToolchain.Codegen (Code Linking)

namespace Machine

def steps? (rom : Array Instruction) : Nat → Machine → Option Machine
  | 0, machine => some machine
  | count + 1, machine => (machine.step? rom).bind (steps? rom count)

theorem steps?_add (rom : Array Instruction) (first second : Nat) (machine : Machine) :
    steps? rom (first + second) machine = (steps? rom first machine).bind (steps? rom second) := by
  induction first generalizing machine with
  | zero => rw [Nat.zero_add, steps?, Option.bind_some]
  | succ first ih =>
      rw [Nat.add_right_comm, steps?, steps?, Option.bind_assoc]
      exact congrArg _ (funext ih)

theorem step?_of_getElem? {rom : Array Instruction} {machine : Machine} {instruction : Instruction}
    (here : rom[machine.pc]? = some instruction) :
    machine.step? rom = some (machine.execute instruction) := by
  obtain ⟨inside, same⟩ := Array.getElem?_eq_some_iff.1 here
  rw [step?, dif_pos inside, same]

section runs

variable {rom : Array Instruction} {machine next : Machine}

theorem steps?_succ (moves : machine.step? rom = some next) (count : Nat) :
    steps? rom (count + 1) machine = steps? rom count next := by
  rw [steps?, moves, Option.bind_some]

/-- A machine that does not move gets nowhere else. -/
theorem eq_of_stops (stops : machine.step? rom = none) {count : Nat} {last : Machine}
    (reached : steps? rom count machine = some last) : last = machine := by
  cases count with
  | zero =>
      cases reached
      rfl
  | succ count =>
      rw [steps?, stops] at reached
      cases reached

/-- A run comes to its end if a state without a next one is reached within the limit. -/
theorem runFor_eq_ok_iff {limit : Nat} {stopped : Machine} :
    runFor rom limit machine = (.ok (), stopped) ↔
      ∃ count < limit, steps? rom count machine = some stopped ∧ stopped.step? rom = none := by
  induction limit generalizing machine with
  | zero => simp [runFor]
  | succ limit ih =>
      rw [runFor_succ]
      cases moves : machine.step? rom with
      | none =>
          constructor
          · intro same
            cases same
            exact ⟨0, Nat.succ_pos limit, rfl, moves⟩
          · rintro ⟨count, -, reached, -⟩
            rw [eq_of_stops moves reached]
      | some next =>
          refine ih.trans ⟨?_, ?_⟩
          · rintro ⟨count, less, reached, stops⟩
            exact ⟨count + 1, Nat.succ_lt_succ less, (steps?_succ moves count).trans reached, stops⟩
          · rintro ⟨_ | count, less, reached, stops⟩
            · cases reached
              cases moves.symm.trans stops
            · rw [steps?_succ moves] at reached
              exact ⟨count, Nat.lt_of_succ_lt_succ less, reached, stops⟩

/-- A run to a label ends in the first state at its place, if one is reached within the limit. -/
theorem runToFor_eq_ok_iff {label : String} {place limit : Nat} {there : Machine} :
    runToFor rom label place limit machine = (.ok (), there) ↔
      ∃ count < limit, steps? rom count machine = some there ∧ there.pc = place ∧
        ∀ earlier < count, ∀ before ∈ steps? rom earlier machine, before.pc ≠ place := by
  induction limit generalizing machine with
  | zero => simp [runToFor]
  | succ limit ih =>
      rw [runToFor_succ]
      by_cases here : machine.pc = place
      · rw [if_pos here]
        constructor
        · intro same
          cases same
          exact ⟨0, Nat.succ_pos limit, rfl, here, fun earlier less => absurd less (by omega)⟩
        · rintro ⟨_ | count, -, reached, -, first⟩
          · cases reached
            rfl
          · exact absurd here (first 0 (Nat.succ_pos count) machine rfl)
      · rw [if_neg here]
        cases moves : machine.step? rom with
        | none =>
            refine iff_of_false (fun refused => by cases refused) ?_
            rintro ⟨count, -, reached, arrived, -⟩
            exact here (eq_of_stops moves reached ▸ arrived)
        | some next =>
            refine ih.trans ⟨?_, ?_⟩
            · rintro ⟨count, less, reached, arrived, first⟩
              refine ⟨count + 1, Nat.succ_lt_succ less, (steps?_succ moves count).trans reached,
                arrived, ?_⟩
              rintro (_ | earlier) sooner before passed
              · cases passed
                exact here
              · rw [steps?_succ moves] at passed
                exact first earlier (Nat.lt_of_succ_lt_succ sooner) before passed
            · rintro ⟨_ | count, less, reached, arrived, first⟩
              · cases reached
                exact absurd arrived here
              · rw [steps?_succ moves] at reached
                refine ⟨count, Nat.lt_of_succ_lt_succ less, reached, arrived, ?_⟩
                intro earlier sooner before passed
                rw [← steps?_succ moves] at passed
                exact first (earlier + 1) (Nat.succ_lt_succ sooner) before passed

end runs

end Machine

/-- A run of at least one step that stays strictly between two places on its way. -/
inductive Travels (rom : Array Instruction) (lower upper : Nat) : Machine → Machine → Prop where
  | step {machine next : Machine} (moves : machine.step? rom = some next) :
      Travels rom lower upper machine next
  | cons {machine middle last : Machine} (moves : machine.step? rom = some middle)
      (above : lower < middle.pc) (below : middle.pc < upper)
      (rest : Travels rom lower upper middle last) : Travels rom lower upper machine last

namespace Travels

variable {rom : Array Instruction} {lower upper : Nat} {machine middle last : Machine}

theorem trans (first : Travels rom lower upper machine middle)
    (above : lower < middle.pc) (below : middle.pc < upper)
    (second : Travels rom lower upper middle last) : Travels rom lower upper machine last := by
  induction first with
  | step moves => exact .cons moves above below second
  | cons moves higher lesser rest ih => exact .cons moves higher lesser (ih above below second)

theorem exists_steps? (travels : Travels rom lower upper machine last) :
    ∃ count, machine.steps? rom (count + 1) = some last := by
  induction travels with
  | step moves => exact ⟨0, Machine.steps?_succ moves 0⟩
  | cons moves above below rest ih =>
      obtain ⟨count, reached⟩ := ih
      exact ⟨count + 1, (Machine.steps?_succ moves (count + 1)).trans reached⟩

end Travels

/-! ## Lines one by one -/

/-- Lines that are instructions and do not jump. -/
def isStraight {Symbol : Type} : Line Symbol → Bool
  | .number _ | .load _ => true
  | .compute instruction => instruction.jump == .never
  | .declare _ | .remark _ => false

/-- The machine after a line. -/
def after (linking : Linking) (machine : Machine) (line : Line Codegen.Symbol) : Machine :=
  match linking.instruction? line with
  | some instruction => machine.execute instruction
  | none => machine

def afterAll (linking : Linking) (code : Code) (machine : Machine) : Machine :=
  code.foldl (after linking) machine

variable {linking : Linking} {rom : Array Instruction}

theorem afterAll_append (linking : Linking) (first second : Code) (machine : Machine) :
    afterAll linking (first ++ second) machine =
      afterAll linking second (afterAll linking first machine) :=
  List.foldl_append

theorem pc_after (linking : Linking) {line : Line Codegen.Symbol} (straight : isStraight line)
    (machine : Machine) : (after linking machine line).pc = machine.pc + 1 := by
  cases line with
  | number | load => rfl
  | compute instruction =>
      obtain ⟨dest, comp, jump⟩ := instruction
      have never : jump = .never := by simpa [isStraight] using straight
      subst never
      rfl
  | declare | remark => cases straight

theorem pc_afterAll (linking : Linking) {code : Code} (straight : code.all isStraight)
    (machine : Machine) : (afterAll linking code machine).pc = machine.pc + code.length := by
  induction code generalizing machine with
  | nil => rfl
  | cons line rest ih =>
      rw [List.all_cons, Bool.and_eq_true] at straight
      rw [afterAll, List.foldl_cons, ← afterAll, ih straight.2, pc_after linking straight.1,
        List.length_cons]
      omega

theorem isInstruction_of_isStraight {line : Line Codegen.Symbol} (straight : isStraight line) :
    line.isInstruction := by
  cases line with
  | declare | remark => cases straight
  | _ => rfl

theorem length_eq_instructionCount {code : Code} (straight : code.all isStraight) :
    code.length = instructionCount code := by
  rw [List.all_eq_true] at straight
  rw [instructionCount, List.countP_eq_length.2 fun line member =>
    isInstruction_of_isStraight (straight line member)]

/-- An instruction line that stands at the program counter is executed. -/
theorem step?_of_stands {line : Line Codegen.Symbol} {rest : Code} {machine : Machine}
    (stands : linking.Stands rom machine.pc (line :: rest))
    (instruction : line.isInstruction) :
    machine.step? rom = some (after linking machine line) := by
  unfold after
  cases line with
  | number | load | compute => exact Machine.step?_of_getElem? (stands.2.1 _ rfl)
  | declare | remark => cases instruction

/-- Code without jumps is executed from its place to its end. -/
theorem travels_straight (code : Code) (machine : Machine) {lower upper : Nat}
    (stands : linking.Stands rom machine.pc code) (straight : code.all isStraight)
    (nonempty : code ≠ []) (above : lower ≤ machine.pc)
    (below : machine.pc + code.length ≤ upper) :
    Travels rom lower upper machine (afterAll linking code machine) := by
  induction code generalizing machine with
  | nil => exact absurd rfl nonempty
  | cons line rest ih =>
      rw [List.all_cons, Bool.and_eq_true] at straight
      have instruction := isInstruction_of_isStraight straight.1
      have moves := step?_of_stands stands instruction
      have pc := pc_after linking straight.1 machine
      rw [List.length_cons] at below
      cases rest with
      | nil => exact .step moves
      | cons second others =>
          have one : instructionCount [line] = 1 := by
            rw [instructionCount, List.countP_singleton, if_pos instruction]
          have later := stands.2.2
          rw [one, ← pc] at later
          rw [List.length_cons] at below
          refine .cons moves (by omega) (by omega) (ih _ later straight.2 (by simp) (by omega) ?_)
          rw [List.length_cons]
          omega

/-- Code without jumps and one more instruction are executed from the place of the code. -/
theorem travels_last (code : Code) (machine : Machine) {rest : Code}
    {line : Line Codegen.Symbol} {lower upper : Nat}
    (stands : linking.Stands rom machine.pc (code ++ line :: rest))
    (straight : code.all isStraight) (nonempty : code ≠ []) (instruction : line.isInstruction)
    (above : lower ≤ machine.pc) (below : machine.pc + code.length < upper) :
    Travels rom lower upper machine (after linking (afterAll linking code machine) line) := by
  rw [Linking.stands_append, ← length_eq_instructionCount straight] at stands
  obtain ⟨front, last⟩ := stands
  have pc := pc_afterAll linking straight machine
  have positive := List.length_pos_iff.2 nonempty
  rw [← pc] at last
  refine (travels_straight code machine front straight nonempty above (by omega)).trans ?_ ?_
    (.step (step?_of_stands last instruction))
  · omega
  · omega

/-- Code that ends in a jump on D goes on at the loaded place or behind the jump. -/
theorem travels_branch (code : Code) (machine middle : Machine) (target : Nat) {rest : Code}
    {jump : Asm.Jump} {lower upper : Nat}
    (stands : linking.Stands rom machine.pc (code ++ Code.jumpD jump :: rest))
    (straight : code.all isStraight) (nonempty : code ≠ []) (above : lower ≤ machine.pc)
    (below : machine.pc + code.length < upper) (effect : afterAll linking code machine = middle)
    (loaded : middle.a = .ofNat target) (small : target < UInt16.size) :
    Travels rom lower upper machine
      { middle with pc := if isTaken jump middle.d then target else middle.pc + 1 } := by
  have travels := travels_last code machine stands straight nonempty rfl above below
  have jumps : after linking middle (Code.jumpD jump) =
      { middle with pc := if isTaken jump middle.d then middle.a.toUInt16.toNat
                          else middle.pc + 1 } := rfl
  rw [effect, jumps, loaded, toNat_ofNat_word small, ← loaded] at travels
  exact travels

/-- Code that ends in a jump goes on at the loaded place. -/
theorem travels_jump (code : Code) (machine middle : Machine) (target : Nat) {rest : Code}
    {lower upper : Nat} (stands : linking.Stands rom machine.pc (code ++ Code.jump :: rest))
    (straight : code.all isStraight) (nonempty : code ≠ []) (above : lower ≤ machine.pc)
    (below : machine.pc + code.length < upper) (effect : afterAll linking code machine = middle)
    (loaded : middle.a = .ofNat target) (small : target < UInt16.size) :
    Travels rom lower upper machine { middle with pc := target } := by
  have travels := travels_last code machine stands straight nonempty rfl above below
  have jumps : after linking middle Code.jump =
      { middle with pc := middle.a.toUInt16.toNat } := rfl
  rw [effect, jumps, loaded, toNat_ofNat_word small, ← loaded] at travels
  exact travels

end HackToolchain.Cpu
