import HackToolchain.Proofs.Stack
import HackToolchain.Vm.Machine

/-!
# What commands do to the cells of memory

A command inside a function changes SP, the stack above the words it leaves
alone and, if it is a pop, the cell it stores to.  A call saves five words above
the stack and bases LCL and ARG anew; a return stores its answer and takes the
bases from the words saved below its frame.
-/

namespace HackToolchain.Vm

open Asm (Register)

/-! ## What commands take, add and store -/

namespace Command

/-- How many words of the stack a command takes or, if it is a call, passes on. -/
def taken : Command → Nat
  | pop _ _ | operate (.unary _) | ifGoto _ | ret => 1
  | operate (.binary _) | operate (.compare _) => 2
  | call _ arguments => arguments.toNat
  | push _ _ | label _ | goto _ | function _ _ => 0

/-- How many words a command puts on the stack without having taken others. -/
def added : Command → Nat
  | push _ _ => 1
  | call _ _ => 5
  | function _ locals => locals.toNat
  | pop _ _ | operate _ | label _ | goto _ | ifGoto _ | ret => 0

/-- The address that a pop stores to. -/
def stored? (layout : Layout) (unit : String) (memory : Memory) : Command → Option Word
  | pop segment index => segment.address? layout unit memory index
  | _ => none

end Command

/-! ## Calls -/

/-- Pushing a register after other words pushes the word it had before them. -/
theorem pushRegister_pushAll {memory : Memory} {height : Nat} (words : List Word)
    (points : memory.register .sp = .ofNat height) (above : 4 < height)
    (room : height + words.length ≤ memorySize) {register : Register} (other : register ≠ .sp) :
    (memory.pushAll words).pushRegister register =
      memory.pushAll (words ++ [memory.register register]) := by
  obtain ⟨-, -, kept⟩ := Memory.pushAll_spec words points (by omega) room
  have same : (memory.pushAll words).register register = memory.register register := by
    refine kept register.address ?_ ?_
    · cases register <;> first | exact absurd rfl other | decide
    · have few : register.address ≤ 4 := by cases register <;> decide
      omega
  rw [Memory.pushRegister, same, Memory.pushAll, Memory.pushAll, List.foldl_append]
  rfl

/-- The words that a call saves, in order. -/
def savedWords (memory : Memory) (back : Word) : List Word :=
  [back, memory.register .lcl, memory.register .arg, memory.register .this, memory.register .that]

theorem enter_eq {memory : Memory} {height : Nat} (back : Word) (arguments : UInt16)
    (points : memory.register .sp = .ofNat height) (above : 4 < height)
    (room : height + 5 ≤ memorySize) (passed : arguments.toNat ≤ height) :
    enter memory back arguments =
      ((memory.pushAll (savedWords memory back)).setRegister .arg
        (.ofNat (height - arguments.toNat))).setRegister .lcl (.ofNat (height + 5)) := by
  have saved : ((((memory.push back).pushRegister .lcl).pushRegister .arg).pushRegister
      .this).pushRegister .that = memory.pushAll (savedWords memory back) := by
    have first : memory.push back = memory.pushAll [back] := rfl
    rw [first, pushRegister_pushAll _ points above (by simp; omega) (by decide),
      pushRegister_pushAll _ points above (by simp; omega) (by decide),
      pushRegister_pushAll _ points above (by simp; omega) (by decide),
      pushRegister_pushAll _ points above (by simp; omega) (by decide)]
    rfl
  obtain ⟨moved, -, -⟩ :=
    Memory.pushAll_spec (savedWords memory back) points (by omega) room
  have top : (memory.pushAll (savedWords memory back)).register .sp = .ofNat (height + 5) := moved
  have base : Int16.ofNat (height + 5) - (5 + arguments.toInt16) =
      .ofNat (height - arguments.toNat) := by
    have distance : (5 : Word) + arguments.toInt16 = .ofNat (5 + arguments.toNat) := by
      rw [Int16.ofNat_add, ofNat_toNat_index]
      rfl
    have gap : height + 5 - (5 + arguments.toNat) = height - arguments.toNat := by omega
    rw [distance, ← Int16.ofNat_sub _ _ (by omega), gap]
  have apart (value : Word) : ((memory.pushAll (savedWords memory back)).setRegister .arg
      value).register .sp = .ofNat (height + 5) := by
    rw [Memory.register_setRegister_of_ne _ _ (by decide), top]
  rw [enter, saved, top, base, apart]

/-- A call leaves its saved words above the old height and bases LCL above them, ARG below. -/
theorem enter_spec {memory : Memory} {height : Nat} (back : Word) (arguments : UInt16)
    (points : memory.register .sp = .ofNat height) (above : 4 < height)
    (room : height + 5 ≤ memorySize) (passed : arguments.toNat ≤ height) :
    (enter memory back arguments).register .sp = .ofNat (height + 5) ∧
      (enter memory back arguments).register .lcl = .ofNat (height + 5) ∧
      (enter memory back arguments).register .arg = .ofNat (height - arguments.toNat) ∧
      (∀ index word, (savedWords memory back)[index]? = some word →
        (enter memory back arguments).read (.ofNat (height + index)) = word) ∧
      ∀ cell, 2 < cell → cell < height →
        (enter memory back arguments).read (.ofNat cell) = memory.read (.ofNat cell) := by
  obtain ⟨moved, pushed, kept⟩ :=
    Memory.pushAll_spec (savedWords memory back) points (by omega) room
  have based {cell : Nat} (high : 2 < cell) (inside : cell < memorySize) :
      (enter memory back arguments).read (.ofNat cell) =
        (memory.pushAll (savedWords memory back)).read (.ofNat cell) := by
    rw [enter_eq back arguments points above room passed,
      Memory.read_setRegister_cell _ _ inside (show Register.lcl.address ≠ cell from
        Nat.ne_of_lt (Nat.lt_trans (by decide) high)),
      Memory.read_setRegister_cell _ _ inside (show Register.arg.address ≠ cell from
        Nat.ne_of_lt high)]
  refine ⟨?_, ?_, ?_, ?_, ?_⟩
  · rw [enter_eq back arguments points above room passed,
      Memory.register_setRegister_of_ne _ _ (by decide),
      Memory.register_setRegister_of_ne _ _ (by decide)]
    exact moved
  · rw [enter_eq back arguments points above room passed, Memory.register_setRegister_self]
  · rw [enter_eq back arguments points above room passed,
      Memory.register_setRegister_of_ne _ _ (by decide), Memory.register_setRegister_self]
  · intro index word found
    have few := (List.getElem?_eq_some_iff.1 found).1
    have five : index < 5 := few
    rw [based (by omega) (by omega)]
    exact pushed index word found
  · intro cell high below
    rw [based high (by omega)]
    exact kept cell (by omega) below

theorem clearLocals_eq (memory : Memory) (count : Nat) :
    clearLocals memory count = memory.pushAll (List.replicate count 0) := by
  induction count generalizing memory with
  | zero => rfl
  | succ count ih =>
      rw [clearLocals, ih, List.replicate_succ]
      rfl

/-- A called function that has cleared its locals has its bases and zeros on its stack. -/
theorem clearLocals_enter {memory : Memory} {height : Nat} (back : Word)
    (arguments locals : UInt16) (points : memory.register .sp = .ofNat height) (above : 4 < height)
    (room : height + 5 + locals.toNat ≤ memorySize) (passed : arguments.toNat ≤ height) :
    let ready := clearLocals (enter memory back arguments) locals.toNat
    ready.pointer .lcl = height + 5 ∧ ready.pointer .arg = height - arguments.toNat ∧
      ready.pointer .sp = height + 5 + locals.toNat ∧
      ∀ index < locals.toNat, ready.read (.ofNat (height + 5 + index)) = 0 := by
  obtain ⟨sp, lcl, arg, -, -⟩ := enter_spec back arguments points above (by omega) passed
  have length : (List.replicate locals.toNat (0 : Word)).length = locals.toNat :=
    List.length_replicate
  obtain ⟨moved, pushed, kept⟩ := Memory.pushAll_spec (List.replicate locals.toNat 0) sp
    (by omega) (by omega)
  rw [length] at moved
  rw [clearLocals_eq]
  refine ⟨?_, ?_, Memory.pointer_eq moved room, fun index inside => ?_⟩
  · exact Memory.pointer_eq ((kept 1 (by decide) (by omega)).trans lcl) (by omega)
  · exact Memory.pointer_eq ((kept 2 (by decide) (by omega)).trans arg) (by omega)
  · exact pushed index 0 (List.getElem?_replicate_of_lt inside)

/-! ## Returns -/

/-- One register has taken its word from a cell, and only cells of registers have changed. -/
structure Restored (register : Register) (cell : Nat) (before after : Memory) : Prop where
  taken : after.register register = before.read (.ofNat cell)
  others : ∀ other, other ≠ register → after.register other = before.register other
  cells : ∀ cell, 4 < cell → cell < memorySize → after.read (.ofNat cell) = before.read (.ofNat cell)

theorem restore_spec (memory : Memory) {frame distance : Nat} (register : Register)
    (least : distance ≤ frame) :
    Restored register (frame - distance) memory
      (restore (.ofNat frame) (.ofNat distance) register memory) := by
  rw [restore, ← Int16.ofNat_sub _ _ least]
  refine ⟨Memory.register_setRegister_self _ _ _, fun other differ =>
    Memory.register_setRegister_of_ne _ _ differ.symm, fun cell high inside => ?_⟩
  have few : register.address ≤ 4 := by cases register <;> decide
  exact Memory.read_setRegister_cell _ _ inside (by omega)

/-- The word to return to is the first one saved below the frame. -/
theorem backWord_eq {memory : Memory} {frame : Nat} (based : memory.register .lcl = .ofNat frame)
    (least : 5 ≤ frame) : backWord memory = memory.read (.ofNat (frame - 5)) := by
  rw [backWord, based, Int16.ofNat_sub _ _ least]
  rfl

/--
A return takes the bases from the words saved below its frame, stores the top
word where the arguments were and points SP above it.  Other cells stay.
-/
theorem leave_spec {memory : Memory} {height frame base : Nat}
    (points : memory.register .sp = .ofNat height) (above : frame < height)
    (inside : height ≤ memorySize) (framed : memory.register .lcl = .ofNat frame)
    (based : memory.register .arg = .ofNat base) (low : 4 < base) (room : base + 5 ≤ frame) :
    (leave memory).register .sp = .ofNat (base + 1) ∧
      (leave memory).register .lcl = memory.read (.ofNat (frame - 4)) ∧
      (leave memory).register .arg = memory.read (.ofNat (frame - 3)) ∧
      (leave memory).register .this = memory.read (.ofNat (frame - 2)) ∧
      (leave memory).register .that = memory.read (.ofNat (frame - 1)) ∧
      (leave memory).read (.ofNat base) = memory.read memory.top ∧
      ∀ cell, 4 < cell → cell < memorySize → cell ≠ base →
        (leave memory).read (.ofNat cell) = memory.read (.ofNat cell) := by
  have target : memory.drop.register .arg = .ofNat base := by
    rw [Memory.drop, Memory.register_setRegister_of_ne _ _ (by decide), based]
  have popped : memory.popped = memory.read memory.top := by
    rw [Memory.popped_eq points (by omega) inside, Memory.top_eq points (by omega)]
  let answered := memory.drop.write (.ofNat base) memory.popped
  have answer : answered.register .arg = .ofNat base := by
    refine (Memory.register_write _ _ fun same => ?_).trans target
    have numbers := congrArg Fin.val same
    rw [cellOf_ofNat (by omega), cellOf_register] at numbers
    exact absurd numbers (Nat.ne_of_gt (Nat.lt_trans (by decide) low))
  have next : Int16.ofNat base + 1 = .ofNat (base + 1) := (Int16.ofNat_add base 1).symm
  let shortened := answered.setRegister .sp (.ofNat (base + 1))
  have left : leave memory = restore (.ofNat frame) (.ofNat 4) .lcl (restore (.ofNat frame)
      (.ofNat 3) .arg (restore (.ofNat frame) (.ofNat 2) .this (restore (.ofNat frame) (.ofNat 1)
        .that shortened))) := by
    rw [leave, framed, target, answer, next]
    rfl
  -- Cells above the registers hold what they held, but for the answer.
  have kept : ∀ cell, 4 < cell → cell < memorySize → cell ≠ base →
      shortened.read (.ofNat cell) = memory.read (.ofNat cell) := by
    intro cell high small apart
    have other : Register.sp.address ≠ cell := Nat.ne_of_lt (Nat.lt_trans (by decide) high)
    rw [Memory.read_setRegister_cell _ _ small other,
      Memory.read_write_cell _ _ small (by rw [cellOf_ofNat (by omega)]; exact apart.symm),
      Memory.read_drop (by omega) small]
  have that := restore_spec shortened .that (show 1 ≤ frame by omega)
  have this := restore_spec (restore (.ofNat frame) (.ofNat 1) .that shortened) .this
    (show 2 ≤ frame by omega)
  have arg := restore_spec (restore (.ofNat frame) (.ofNat 2) .this
    (restore (.ofNat frame) (.ofNat 1) .that shortened)) .arg (show 3 ≤ frame by omega)
  have lcl := restore_spec (restore (.ofNat frame) (.ofNat 3) .arg (restore (.ofNat frame)
    (.ofNat 2) .this (restore (.ofNat frame) (.ofNat 1) .that shortened))) .lcl
    (show 4 ≤ frame by omega)
  have cells : ∀ cell, 4 < cell → cell < memorySize →
      (leave memory).read (.ofNat cell) = shortened.read (.ofNat cell) := by
    intro cell high small
    rw [left, lcl.cells _ high small, arg.cells _ high small, this.cells _ high small,
      that.cells _ high small]
  -- A register passes the restorations after its own; the cell it took lies above all registers.
  refine ⟨?_, ?_, ?_, ?_, ?_, ?_, ?_⟩
  · rw [left, lcl.others _ (by decide), arg.others _ (by decide), this.others _ (by decide),
      that.others _ (by decide)]
    exact Memory.register_setRegister_self _ _ _
  · rw [left, lcl.taken, arg.cells _ (by omega) (by omega), this.cells _ (by omega) (by omega),
      that.cells _ (by omega) (by omega)]
    exact kept _ (by omega) (by omega) (by omega)
  · rw [left, lcl.others _ (by decide), arg.taken, this.cells _ (by omega) (by omega),
      that.cells _ (by omega) (by omega)]
    exact kept _ (by omega) (by omega) (by omega)
  · rw [left, lcl.others _ (by decide), arg.others _ (by decide), this.taken,
      that.cells _ (by omega) (by omega)]
    exact kept _ (by omega) (by omega) (by omega)
  · rw [left, lcl.others _ (by decide), arg.others _ (by decide), this.others _ (by decide),
      that.taken]
    exact kept _ (by omega) (by omega) (by omega)
  · have other : Register.sp.address ≠ base := Nat.ne_of_lt (Nat.lt_trans (by decide) low)
    rw [cells _ low (by omega), Memory.read_setRegister_cell _ _ (by omega) other,
      Memory.read_write_self, popped]
  · intro cell high small apart
    exact (cells cell high small).trans (kept cell high small apart)

/-! ## Commands inside a function -/

/--
Memory after a command that stays inside its function: SP is still above a
floor and inside memory, and below the floor only SP and the cell stored to
may have changed.
-/
structure Confined (floor : Nat) (stored : Option Word) (before after : Memory) : Prop where
  /-- SP is above the floor. -/
  above : floor ≤ after.pointer .sp
  /-- SP is inside memory. -/
  inside : after.pointer .sp ≤ memorySize
  /-- The cells below the floor keep their words. -/
  kept : ∀ cell, 0 < cell → cell < floor → (∀ address ∈ stored, (cellOf address).val ≠ cell) →
    after.read (.ofNat cell) = before.read (.ofNat cell)

section confined

variable {memory : Memory} {floor height : Nat} {stored : Option Word}
  (points : memory.register .sp = .ofNat height)
include points

theorem confined_same (above : floor ≤ height) (inside : height ≤ memorySize) :
    Confined floor stored memory memory := by
  have height_eq := Memory.pointer_eq points inside
  exact ⟨height_eq.symm ▸ above, height_eq.symm ▸ inside, fun _ _ _ _ => rfl⟩

theorem confined_pushAll (words : List Word) (positive : 0 < floor) (above : floor ≤ height)
    (room : height + words.length ≤ memorySize) :
    Confined floor stored memory (memory.pushAll words) := by
  obtain ⟨moved, -, kept⟩ := Memory.pushAll_spec words points (by omega) room
  have height_eq := Memory.pointer_eq moved room
  refine ⟨by omega, by omega, fun cell high low _ => kept cell high (by omega)⟩

theorem confined_drop (above : floor < height) (inside : height ≤ memorySize) :
    Confined floor stored memory memory.drop := by
  have moved := Memory.register_sp_drop points (by omega)
  have height_eq := Memory.pointer_eq moved (by omega)
  exact ⟨by omega, by omega, fun cell high low _ => Memory.read_drop high (by omega)⟩

theorem confined_replaceTop (value : Word) (positive : 0 < floor) (above : floor < height)
    (inside : height ≤ memorySize) : Confined floor stored memory (memory.replaceTop value) := by
  have top : (cellOf memory.top).val = height - 1 := by
    rw [Memory.top_eq points (by omega), cellOf_ofNat (by omega)]
  have other : cellOf memory.top ≠ cellOf Register.sp.cell := by
    intro same
    have numbers := congrArg Fin.val same
    rw [top, cellOf_register] at numbers
    have zero : height - 1 = 0 := numbers
    omega
  have height_eq := Memory.pointer_eq ((memory.register_write value other).trans points) inside
  refine ⟨?_, ?_, fun cell high low _ => memory.read_write_cell value (by omega) (by omega)⟩
  · rw [Memory.replaceTop, height_eq]
    exact Nat.le_of_lt above
  · rw [Memory.replaceTop, height_eq]
    exact inside

/-- A pop changes SP and the cell it stores to, which is not SP. -/
theorem confined_store (address value : Word) (above : floor < height) (inside : height ≤ memorySize)
    (apart : (cellOf address).val ≠ 0) :
    Confined floor (some address) memory (memory.drop.write address value) := by
  have moved := Memory.register_sp_drop points (by omega)
  have other : cellOf address ≠ cellOf Register.sp.cell := by
    intro same
    have numbers := congrArg Fin.val same
    rw [cellOf_register] at numbers
    exact apart numbers
  have height_eq := Memory.pointer_eq ((memory.drop.register_write value other).trans moved) (by omega)
  refine ⟨by omega, by omega, fun cell high low free => ?_⟩
  rw [memory.drop.read_write_cell value (by omega) (free address rfl),
    Memory.read_drop high (by omega)]

theorem confined_act (operator : Operator) (positive : 0 < floor)
    (above : floor + (Command.operate operator).taken ≤ height) (inside : height ≤ memorySize) :
    Confined floor none memory (operator.act memory) := by
  cases operator with
  | unary operator => exact confined_replaceTop points _ positive above inside
  | binary operator | compare comparison =>
      have two : floor + 2 ≤ height := above
      have first : Confined floor none memory memory.drop := confined_drop points (by omega) inside
      have moved := Memory.register_sp_drop points (by omega)
      have second (value : Word) : Confined floor none memory.drop (memory.drop.replaceTop value) :=
        confined_replaceTop moved value positive (by omega) (by omega)
      exact ⟨(second _).above, (second _).inside, fun cell high low free =>
        ((second _).kept cell high low free).trans (first.kept cell high low free)⟩

end confined

end HackToolchain.Vm
