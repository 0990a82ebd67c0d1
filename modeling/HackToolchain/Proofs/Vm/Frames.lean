import HackToolchain.Proofs.Vm.Effects
import HackToolchain.Proofs.Vm.Agreement

/-!
# The frames of active calls

While a called function runs, the words its call saved lie below its LCL, and
so do those of the calls around it, each frame above the other.  Commands that
take no words from below LCL and store into none of these cells keep the frames;
a call adds a frame, and a return removes the innermost one.
-/

namespace HackToolchain.Vm

open Asm (Register)

/-! ## What commands may do -/

/--
The cells that pops leave alone: SP, LCL and ARG, the scratch cells, the cells
from 256 up to a number, and the words saved at the bases of the active calls.
-/
def Guarded (low : Nat) (bases : List Nat) (cell : Nat) : Prop :=
  cell ≤ 2 ∨ (13 ≤ cell ∧ cell ≤ 15) ∨ (256 ≤ cell ∧ cell < low) ∨
    ∃ base ∈ bases, base ≤ cell ∧ cell < base + 5

/-- A command that takes only words of its own function, fits memory and stores to no guarded cell. -/
structure Tame (layout : Layout) (low : Nat) (bases : List Nat) (unit : String) (memory : Memory)
    (command : Command) : Prop where
  /-- What the command takes lies above LCL. -/
  taken : memory.pointer .lcl + command.taken ≤ memory.pointer .sp
  /-- What the command adds lies inside memory. -/
  added : memory.pointer .sp + command.added ≤ memorySize
  /-- What the command stores to is not guarded. -/
  stored : ∀ address ∈ command.stored? layout unit memory, ¬ Guarded low bases (cellOf address).val

/-- A tame command other than a call and a return stays inside its function. -/
theorem Tame.confined {layout : Layout} {items : List Item} {low position : Nat} {bases : List Nat}
    {unit : String} {memory : Memory} {command : Command} {next : State}
    (tame : Tame layout low bases unit memory command) (positive : 0 < memory.pointer .lcl)
    (calls : ∀ name arguments, command ≠ .call name arguments) (returns : command ≠ .ret)
    (moves : State.command? layout items unit ⟨position, memory⟩ command = some next) :
    Confined (memory.pointer .lcl) (command.stored? layout unit memory) memory next.memory := by
  obtain ⟨taken, added, stored⟩ := tame
  have points := memory.register_eq_ofNat .sp
  have inside := Nat.le_trans (Nat.le_add_right _ _) added
  have above := Nat.le_trans (Nat.le_add_right _ _) taken
  cases command with
  | push segment index =>
      cases moves
      have pushed (word : Word) : Confined (memory.pointer .lcl) none memory (memory.push word) :=
        confined_pushAll points [word] positive above added
      dsimp only [State.next, Segment.push]
      cases segment.address? layout unit memory index with
      | none => exact pushed _
      | some address => exact pushed _
  | pop segment index =>
      cases moves
      change ∀ address ∈ segment.address? layout unit memory index, _ at stored
      change Confined _ (segment.address? layout unit memory index) _ _
      dsimp only [State.next, Segment.pop]
      cases found : segment.address? layout unit memory index with
      | none => exact confined_drop points taken inside
      | some address =>
          refine confined_store points address _ taken inside fun zero => ?_
          exact stored address found (.inl (by omega))
  | operate operator =>
      cases moves
      exact confined_act points operator positive taken inside
  | label name =>
      cases moves
      exact confined_same points above inside
  | goto name =>
      obtain ⟨target, -, rfl⟩ := Option.map_eq_some_iff.1 moves
      exact confined_same points above inside
  | ifGoto name =>
      have dropped : Confined (memory.pointer .lcl) none memory memory.drop :=
        confined_drop points taken inside
      simp only [State.command?] at moves
      split at moves
      next =>
        cases moves
        exact dropped
      next =>
        obtain ⟨target, -, rfl⟩ := Option.map_eq_some_iff.1 moves
        exact dropped
  | function name locals =>
      cases moves
      dsimp only [State.next]
      rw [clearLocals_eq]
      refine confined_pushAll points _ positive above ?_
      rw [List.length_replicate]
      exact added
  | call name arguments => exact absurd rfl (calls name arguments)
  | ret => exact absurd rfl returns

/-- Commands are as tame in memories that differ in scratch cells. -/
theorem Tame.of_agrees {layout : Layout} {low : Nat} {bases : List Nat} {unit : String}
    {first second : Memory} {command : Command} (tame : Tame layout low bases unit first command)
    (agrees : Memory.Agrees first second) :
    Tame layout low bases unit second command := by
  have pointer (register : Register) : second.pointer register = first.pointer register := by
    rw [Memory.pointer, Memory.pointer, agrees.register]
  have stored : command.stored? layout unit second = command.stored? layout unit first := by
    cases command with
    | pop segment index => exact (Segment.address?_agrees agrees layout unit index segment).symm
    | _ => rfl
  refine ⟨?_, ?_, ?_⟩
  · rw [pointer, pointer]
    exact tame.taken
  · rw [pointer]
    exact tame.added
  · rw [stored]
    exact tame.stored

/-! ## Frames -/

/--
An active call: the cell of its first saved word, the number of arguments it
passed, the position it returns to and the bases of its caller.
-/
structure Frame where
  base : Nat
  arguments : Nat
  back : Nat
  lcl : Word
  arg : Word
  this : Word
  that : Word

/-- The five words that are saved for a call. -/
def Frame.words (layout : Layout) (frame : Frame) : List Word :=
  [layout.placeWord frame.back, frame.lcl, frame.arg, frame.this, frame.that]

/-- The saved words are where the call put them. -/
def Frame.Saved (layout : Layout) (frame : Frame) (memory : Memory) : Prop :=
  ∀ index word, (frame.words layout)[index]? = some word →
    memory.read (.ofNat (frame.base + index)) = word

/--
Frames that lie above each other, the innermost first: each one saved the
bases of the next one, and the outermost one passed the arguments from `low` on.
-/
def Chained (low : Nat) : Frame → List Frame → Prop
  | inner, [] => inner.base = low + inner.arguments
  | inner, outer :: rest =>
      outer.base + 5 + inner.arguments ≤ inner.base ∧ inner.lcl = .ofNat (outer.base + 5) ∧
        inner.arg = .ofNat (outer.base - outer.arguments) ∧ Chained low outer rest

/-- Frames lie above `low`, and outer frames below inner ones. -/
theorem Chained.bounds {low : Nat} {inner : Frame} {outer : List Frame}
    (chained : Chained low inner outer) :
    low + inner.arguments ≤ inner.base ∧
      ∀ frame ∈ outer, low ≤ frame.base ∧ frame.base + 5 + inner.arguments ≤ inner.base := by
  induction outer generalizing inner with
  | nil => exact ⟨Nat.le_of_eq (Eq.symm chained), fun _ member => absurd member List.not_mem_nil⟩
  | cons next rest ih =>
      obtain ⟨apart, -, -, deeper⟩ := chained
      obtain ⟨least, others⟩ := ih deeper
      refine ⟨by omega, fun frame member => ?_⟩
      rcases List.mem_cons.1 member with rfl | later
      · omega
      · have below := others frame later
        omega

theorem Chained.within {low : Nat} {inner : Frame} {outer : List Frame}
    (chained : Chained low inner outer) {frame : Frame} (member : frame ∈ inner :: outer) :
    low ≤ frame.base ∧ frame.base ≤ inner.base := by
  obtain ⟨lowest, others⟩ := chained.bounds
  rcases List.mem_cons.1 member with rfl | later
  · omega
  · have below := others frame later
    omega

/-- A saved word lies less than five cells above the base. -/
theorem Frame.lt_of_words {layout : Layout} {frame : Frame} {index : Nat} {word : Word}
    (found : (frame.words layout)[index]? = some word) : index < 5 :=
  (List.getElem?_eq_some_iff.1 found).1

/-- Memory in which the active calls have their frames, and the cells below them their old words. -/
structure Framed (layout : Layout) (items : List Item) (low : Nat) (original : Memory)
    (inner : Frame) (outer : List Frame) (memory : Memory) : Prop where
  /-- The frames lie in the stack. -/
  least : 256 ≤ low
  /-- Every frame lies above the ones around it. -/
  chained : Chained low inner outer
  /-- Calls return behind an item. -/
  backs : ∀ frame ∈ inner :: outer, 0 < frame.back ∧ frame.back ≤ items.length
  /-- LCL points above the innermost frame. -/
  lcl : memory.register .lcl = .ofNat (inner.base + 5)
  /-- ARG points to the arguments below the innermost frame. -/
  arg : memory.register .arg = .ofNat (inner.base - inner.arguments)
  /-- The stack of the running function lies above its frame. -/
  above : inner.base + 5 ≤ memory.pointer .sp
  /-- The stack lies inside memory. -/
  inside : memory.pointer .sp ≤ memorySize
  /-- Every frame has its words. -/
  saved : ∀ frame ∈ inner :: outer, frame.Saved layout memory
  /-- The cells below the frames keep their words. -/
  kept : ∀ cell, 256 ≤ cell → cell < low → memory.read (.ofNat cell) = original.read (.ofNat cell)

namespace Framed

variable {layout : Layout} {items : List Item} {low : Nat} {original memory : Memory}
  {inner : Frame} {outer : List Frame}

theorem pointer_lcl (framed : Framed layout items low original inner outer memory) :
    memory.pointer .lcl = inner.base + 5 :=
  Memory.pointer_eq framed.lcl (Nat.le_trans framed.above framed.inside)

/-- Frames stay where LCL, ARG, the saved words and the cells below stay and SP stays above. -/
theorem transfer (framed : Framed layout items low original inner outer memory) {after : Memory}
    (above : inner.base + 5 ≤ after.pointer .sp) (inside : after.pointer .sp ≤ memorySize)
    (same : ∀ cell, Guarded low ((inner :: outer).map Frame.base) cell → 0 < cell →
      ¬ (13 ≤ cell ∧ cell ≤ 15) → cell < inner.base + 5 →
        after.read (.ofNat cell) = memory.read (.ofNat cell)) :
    Framed layout items low original inner outer after := by
  obtain ⟨least, chained, backs, lcl, arg, -, -, saved, kept⟩ := framed
  obtain ⟨lowest, -⟩ := chained.bounds
  refine ⟨least, chained, backs, ?_, ?_, above, inside, ?_, ?_⟩
  · rw [← lcl]
    exact same 1 (.inl (by decide)) (by decide) (by decide) (by omega)
  · rw [← arg]
    exact same 2 (.inl (by decide)) (by decide) (by decide) (by omega)
  · intro frame member index word found
    have few := Frame.lt_of_words found
    have bounds := chained.within member
    rw [← saved frame member index word found]
    refine same _ (.inr (.inr (.inr ⟨frame.base, List.mem_map_of_mem member, ?_, ?_⟩)))
      (by omega) (by omega) (by omega)
    · exact Nat.le_add_right _ _
    · omega
  · intro cell high below
    rw [← kept cell high below]
    exact same cell (.inr (.inr (.inl ⟨high, below⟩))) (by omega) (by omega) (by omega)

/-- Scratch cells are no part of the frames. -/
theorem of_agrees (framed : Framed layout items low original inner outer memory) {after : Memory}
    (agrees : Memory.Agrees memory after) :
    Framed layout items low original inner outer after := by
  have pointer : after.pointer .sp = memory.pointer .sp := by
    rw [Memory.pointer, Memory.pointer, agrees.register]
  have above := framed.above
  have inside := framed.inside
  refine framed.transfer (pointer ▸ above) (pointer ▸ inside) fun cell _ _ plain below => ?_
  refine (agrees _ fun scratch => plain ?_).symm
  rw [IsScratch, cellOf_ofNat (by omega)] at scratch
  exact scratch

/-- A command inside a function keeps the frames. -/
theorem command (framed : Framed layout items low original inner outer memory) {unit : String}
    {command : Command}
    (tame : Tame layout low ((inner :: outer).map Frame.base) unit memory command)
    {after : Memory}
    (confined : Confined (memory.pointer .lcl) (command.stored? layout unit memory) memory after) :
    Framed layout items low original inner outer after := by
  rw [framed.pointer_lcl] at confined
  refine framed.transfer confined.above confined.inside fun cell guarded positive _ below => ?_
  exact confined.kept cell positive below fun address stores same =>
    tame.stored address stores (same ▸ guarded)

def frameOf (memory : Memory) (arguments : UInt16) (back : Nat) : Frame :=
  ⟨memory.pointer .sp, arguments.toNat, back, memory.register .lcl, memory.register .arg,
    memory.register .this, memory.register .that⟩

/-- A call from outside any frame makes the first one. -/
theorem enter_first {memory : Memory} {arguments : UInt16} {back : Nat}
    (least : 256 + arguments.toNat ≤ memory.pointer .sp) (room : memory.pointer .sp + 5 ≤ memorySize)
    (returns : 0 < back ∧ back ≤ items.length) :
    Framed layout items (memory.pointer .sp - arguments.toNat) memory
      (frameOf memory arguments back) [] (enter memory (layout.placeWord back) arguments) := by
  obtain ⟨moved, lcl, arg, saved, kept⟩ := enter_spec (layout.placeWord back) arguments
    (memory.register_eq_ofNat .sp) (by omega) room (by omega)
  have height := Memory.pointer_eq moved room
  refine ⟨by omega, ?_, ?_, lcl, arg, ?_, ?_, ?_, ?_⟩
  · change memory.pointer .sp = memory.pointer .sp - arguments.toNat + arguments.toNat
    omega
  · intro frame member
    rw [List.mem_singleton.1 member]
    exact returns
  · rw [height]
    exact Nat.le_refl _
  · rw [height]
    exact room
  · intro frame member
    rw [List.mem_singleton.1 member]
    exact saved
  · intro cell high below
    exact kept cell (by omega) (by omega)

/-- A call that finds its arguments inside its function adds a frame. -/
theorem enter_next (framed : Framed layout items low original inner outer memory)
    {arguments : UInt16} {back : Nat}
    (passes : memory.pointer .lcl + arguments.toNat ≤ memory.pointer .sp)
    (room : memory.pointer .sp + 5 ≤ memorySize) (returns : 0 < back ∧ back ≤ items.length) :
    Framed layout items low original (frameOf memory arguments back) (inner :: outer)
      (enter memory (layout.placeWord back) arguments) := by
  have frame := framed.pointer_lcl
  obtain ⟨least, chained, backs, lcl, arg, above, -, saved, kept⟩ := framed
  obtain ⟨lowest, -⟩ := chained.bounds
  obtain ⟨moved, lcl', arg', saved', kept'⟩ := enter_spec (layout.placeWord back) arguments
    (memory.register_eq_ofNat .sp) (by omega) room (by omega)
  have height := Memory.pointer_eq moved room
  refine ⟨least, ⟨?_, lcl, arg, chained⟩, ?_, lcl', arg', ?_, ?_, ?_, ?_⟩
  · change inner.base + 5 + arguments.toNat ≤ memory.pointer .sp
    omega
  · intro other member
    rcases List.mem_cons.1 member with rfl | older
    · exact returns
    · exact backs other older
  · rw [height]
    exact Nat.le_refl _
  · rw [height]
    exact room
  · intro other member
    rcases List.mem_cons.1 member with rfl | older
    · exact saved'
    -- Older frames lie below the height at which the new one is saved.
    · intro index word found
      have few := Frame.lt_of_words found
      have bounds := chained.within older
      rw [kept' _ (by omega) (by omega)]
      exact saved other older index word found
  · intro cell high below
    rw [kept' cell (by omega) (by omega)]
    exact kept cell high below

/-- A return finds the place that the innermost call saved. -/
theorem backWord (framed : Framed layout items low original inner outer memory) :
    Vm.backWord memory = layout.placeWord inner.back := by
  rw [backWord_eq framed.lcl (Nat.le_add_left 5 _), Nat.add_sub_cancel]
  exact framed.saved inner List.mem_cons_self 0 _ rfl

/-- A return gives the bases of the caller back, answers and leaves the other cells alone. -/
theorem leave (framed : Framed layout items low original inner outer memory)
    (taken : memory.pointer .lcl + 1 ≤ memory.pointer .sp) :
    (Vm.leave memory).register .sp = .ofNat (inner.base - inner.arguments + 1) ∧
      (Vm.leave memory).register .lcl = inner.lcl ∧ (Vm.leave memory).register .arg = inner.arg ∧
      (Vm.leave memory).register .this = inner.this ∧
      (Vm.leave memory).register .that = inner.that ∧
      (Vm.leave memory).read (.ofNat (inner.base - inner.arguments)) = memory.read memory.top ∧
      ∀ cell, 4 < cell → cell < memorySize → cell ≠ inner.base - inner.arguments →
        (Vm.leave memory).read (.ofNat cell) = memory.read (.ofNat cell) := by
  have frame := framed.pointer_lcl
  have least := framed.least
  obtain ⟨lowest, -⟩ := framed.chained.bounds
  have words := framed.saved inner List.mem_cons_self
  obtain ⟨sp, lcl, arg, this, that, answer, cells⟩ := leave_spec (memory.register_eq_ofNat .sp)
    (by omega) framed.inside framed.lcl framed.arg (by omega) (by omega)
  refine ⟨sp, lcl.trans (words 1 _ rfl), arg.trans (words 2 _ rfl), this.trans (words 3 _ rfl),
    that.trans (words 4 _ rfl), answer, cells⟩

/-- A return to a caller with a frame of its own removes the innermost frame. -/
theorem leave_next {next : Frame}
    (framed : Framed layout items low original inner (next :: outer) memory)
    (taken : memory.pointer .lcl + 1 ≤ memory.pointer .sp) :
    Framed layout items low original next outer (Vm.leave memory) := by
  obtain ⟨sp, lcl, arg, -, -, -, cells⟩ := framed.leave taken
  have frame := framed.pointer_lcl
  obtain ⟨least, ⟨apart, saved_lcl, saved_arg, deeper⟩, backs, -, -, above, inside, saved, kept⟩ :=
    framed
  obtain ⟨lowest, -⟩ := deeper.bounds
  have height := Memory.pointer_eq sp (by omega)
  refine ⟨least, deeper, fun other member => backs other (List.mem_cons_of_mem _ member),
    lcl.trans saved_lcl, arg.trans saved_arg, by omega, by omega, ?_, ?_⟩
  · intro other member index word found
    have few := Frame.lt_of_words found
    have bounds := deeper.within member
    rw [cells _ (by omega) (by omega) (by omega)]
    exact saved other (List.mem_cons_of_mem _ member) index word found
  · intro cell high below
    rw [cells _ (by omega) (by omega) (by omega)]
    exact kept cell high below

end Framed

end HackToolchain.Vm
