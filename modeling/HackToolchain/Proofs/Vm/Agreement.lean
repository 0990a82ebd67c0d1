import HackToolchain.Proofs.Scratch
import HackToolchain.Vm.Machine

/-!
# The stack machine and the scratch cells

The stack machine knows nothing of scratch cells.  As long as a command uses
none of them, what it does is the same on memories that agree elsewhere.
-/

namespace HackToolchain.Vm

open HackToolchain.Memory (Agrees)

/--
The addresses whose words an item depends on, registers left aside: what it
takes from the stack and from segments, and for a return the words saved below
the frame and the cell of the answer.
-/
def Item.uses (layout : Layout) (memory : Memory) : Item → List Word
  | .command unit (.push segment index) =>
      (segment.address? layout unit memory index).toList
  | .command _ (.pop _ _) | .command _ (.operate (.unary _)) | .command _ (.ifGoto _) =>
      [memory.top]
  | .command _ (.operate _) => [memory.top, memory.drop.top]
  | .command _ .ret =>
      let frame := memory.register .lcl
      [memory.top, memory.register .arg, frame - 1, frame - 2, frame - 3, frame - 4, frame - 5]
  | _ => []

variable {first second : Memory}

theorem agrees_clearLocals (agrees : Agrees first second) (count : Nat) :
    Agrees (clearLocals first count) (clearLocals second count) := by
  induction count generalizing first second with
  | zero => exact agrees
  | succ count ih => exact ih (agrees.push 0)

/-- Basing ARG below and LCL at the top keeps the agreement. -/
theorem agrees_rebase (agrees : Agrees first second) (distance : Word) :
    let based (memory : Memory) :=
      memory.setRegister .arg (memory.register .sp - distance)
    Agrees ((based first).setRegister .lcl ((based first).register .sp))
      ((based second).setRegister .lcl ((based second).register .sp)) := by
  intro based
  have args : Agrees (based first) (based second) := by
    simp only [based, ← agrees.register .sp]
    exact agrees.setRegister .arg _
  rw [← args.register .sp]
  exact args.setRegister .lcl _

theorem agrees_enter (agrees : Agrees first second) (back : Word) (arguments : UInt16) :
    Agrees (enter first back arguments) (enter second back arguments) :=
  agrees_rebase (((((agrees.push back).pushRegister .lcl).pushRegister .arg).pushRegister
    .this).pushRegister .that) (5 + arguments.toInt16)

theorem agrees_restore (agrees : Agrees first second) {frame distance : Word}
    (plain : ¬ IsScratch (frame - distance)) (register : Asm.Register) :
    Agrees (restore frame distance register first) (restore frame distance register second) := by
  rw [restore, restore, agrees _ plain]
  exact agrees.setRegister register _

/-- A return depends on the words below the frame and on where the answer goes. -/
theorem agrees_leave (agrees : Agrees first second) {layout : Layout} {unit : String}
    (plain : ∀ address ∈ (Item.command unit .ret).uses layout first, ¬ IsScratch address) :
    Agrees (leave first) (leave second) ∧ backWord first = backWord second := by
  have frame := agrees.register .lcl
  have top := plain first.top (by simp [Item.uses])
  have below (distance : Word)
      (member : first.register .lcl - distance ∈ (Item.command unit .ret).uses layout first) :
      ¬ IsScratch (first.register .lcl - distance) := plain _ member
  constructor
  · have answered := agrees.drop.write (first.drop.register .arg) first.popped
    have shortened := answered.setRegister .sp
      ((first.drop.write (first.drop.register .arg) first.popped).register .arg + 1)
    rw [leave, leave, ← frame, ← agrees.drop.register, ← agrees.popped top, ← answered.register .arg]
    refine agrees_restore (agrees_restore (agrees_restore (agrees_restore shortened ?_ _) ?_ _) ?_ _)
      ?_ _
    · exact below 1 (by simp [Item.uses])
    · exact below 2 (by simp [Item.uses])
    · exact below 3 (by simp [Item.uses])
    · exact below 4 (by simp [Item.uses])
  · rw [backWord, backWord, ← frame]
    exact agrees _ (below 5 (by simp [Item.uses]))

namespace Segment

/-- Segments lie at the same addresses. -/
theorem address?_agrees (agrees : Agrees first second) (layout : Layout) (unit : String)
    (index : UInt16) (segment : Segment) :
    segment.address? layout unit first index = segment.address? layout unit second index := by
  cases segment <;> simp only [address?, agrees.register]

theorem agrees_push (agrees : Agrees first second) {layout : Layout} {unit : String}
    {index : UInt16} {segment : Segment}
    (plain : ∀ address ∈ (Item.command unit (.push segment index)).uses layout first,
      ¬ IsScratch address) :
    Agrees (segment.push layout unit first index) (segment.push layout unit second index) := by
  rw [push, push, ← address?_agrees agrees]
  cases found : segment.address? layout unit first index with
  | none => exact agrees.push _
  | some address =>
      have own : address ∈ (Item.command unit (.push segment index)).uses layout first := by
        simp [Item.uses, found]
      dsimp only
      rw [← agrees address (plain address own)]
      exact agrees.push _

theorem agrees_pop (agrees : Agrees first second) {layout : Layout} {unit : String}
    {index : UInt16} {segment : Segment} (plain : ¬ IsScratch first.top) :
    Agrees (segment.pop layout unit first index) (segment.pop layout unit second index) := by
  rw [pop, pop, ← address?_agrees agrees, ← agrees.popped plain]
  cases segment.address? layout unit first index with
  | none => exact agrees.drop
  | some address => exact agrees.drop.write _ _

end Segment

theorem agrees_act (agrees : Agrees first second) {layout : Layout} {unit : String}
    {operator : Operator}
    (plain : ∀ address ∈ (Item.command unit (.operate operator)).uses layout first,
      ¬ IsScratch address) :
    Agrees (operator.act first) (operator.act second) := by
  have top : ¬ IsScratch first.top := plain _ (by cases operator <;> simp [Item.uses])
  cases operator with
  | unary operator =>
      rw [Operator.act, Operator.act, ← agrees.top, ← agrees _ top]
      exact agrees.replaceTop _
  | binary operator | compare comparison =>
      have lower : ¬ IsScratch first.drop.top := plain _ (by simp [Item.uses])
      rw [Operator.act, Operator.act]
      simp only [← agrees.drop.top, ← agrees.drop _ lower, ← agrees.popped top]
      exact agrees.drop.replaceTop _

/-- Memories that agree step to the same position and still agree. -/
theorem step?_agrees {layout : Layout} {items : List Item} {position : Nat} {item : Item}
    {next : State} (agrees : Agrees first second) (here : items[position]? = some item)
    (plain : ∀ address ∈ item.uses layout first, ¬ IsScratch address)
    (moves : State.step? layout items ⟨position, first⟩ = some next) :
    ∃ memory, State.step? layout items ⟨position, second⟩ = some ⟨next.position, memory⟩ ∧
      Agrees next.memory memory := by
  rw [State.step?, here] at moves ⊢
  cases item with
  | start entry =>
      obtain ⟨target, declares, rfl⟩ := Option.map_eq_some_iff.1 moves
      refine ⟨_, Option.map_eq_some_iff.2 ⟨target, declares, rfl⟩, ?_⟩
      exact agrees_enter (agrees.setRegister .sp 256) _ _
  | command unit command =>
      cases command with
      | push segment index =>
          cases moves
          exact ⟨_, rfl, Segment.agrees_push agrees plain⟩
      | pop segment index =>
          cases moves
          exact ⟨_, rfl, Segment.agrees_pop agrees (plain _ (by simp [Item.uses]))⟩
      | operate operator =>
          cases moves
          exact ⟨_, rfl, agrees_act agrees plain⟩
      | label name =>
          cases moves
          exact ⟨_, rfl, agrees⟩
      | goto name =>
          obtain ⟨target, declares, rfl⟩ := Option.map_eq_some_iff.1 moves
          exact ⟨_, Option.map_eq_some_iff.2 ⟨target, declares, rfl⟩, agrees⟩
      | ifGoto name =>
          have popped := agrees.popped (plain _ (by simp [Item.uses]))
          simp only [State.command?, ← popped] at moves ⊢
          split at moves
          next zero =>
            cases moves
            exact ⟨_, if_pos zero, agrees.drop⟩
          next nonzero =>
            obtain ⟨target, declares, rfl⟩ := Option.map_eq_some_iff.1 moves
            rw [if_neg nonzero]
            exact ⟨_, Option.map_eq_some_iff.2 ⟨target, declares, rfl⟩, agrees.drop⟩
      | function name locals =>
          cases moves
          exact ⟨_, rfl, agrees_clearLocals agrees _⟩
      | call name arguments =>
          obtain ⟨target, declares, rfl⟩ := Option.map_eq_some_iff.1 moves
          refine ⟨_, Option.map_eq_some_iff.2 ⟨target, declares, rfl⟩, ?_⟩
          exact agrees_enter agrees _ _
      | ret =>
          obtain ⟨left, back⟩ := agrees_leave agrees plain
          obtain ⟨target, found, rfl⟩ := Option.map_eq_some_iff.1 moves
          rw [back] at found
          exact ⟨_, Option.map_eq_some_iff.2 ⟨target, found, rfl⟩, left⟩

end HackToolchain.Vm
