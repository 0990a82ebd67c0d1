import HackToolchain.Memory.Stack
import HackToolchain.Proofs.Scratch

/-!
# The stack by numbered cells

As long as the stack stays inside memory and above the registers, a push
changes SP and the cell that SP points to, and a pop changes SP alone.  Words
are addressed by the numbers of their cells here.
-/

namespace HackToolchain

open Asm (Register)

/-- Addresses within sixteen bits come back from the words they are loaded as. -/
theorem toNat_ofNat_word {address : Nat} (small : address < UInt16.size) :
    (Int16.ofNat address).toUInt16.toNat = address := by
  rw [Int16.toUInt16_ofNat']
  exact UInt16.toNat_ofNat_of_lt small

theorem ofNat_word_inj {first second : Nat} (small : first < UInt16.size)
    (small' : second < UInt16.size) (same : Int16.ofNat first = .ofNat second) : first = second := by
  rw [← toNat_ofNat_word small, same, toNat_ofNat_word small']

/-- Every word is the address it is read as. -/
theorem ofNat_toNat_word (word : Word) : Int16.ofNat word.toUInt16.toNat = word := by
  rw [← UInt16.toInt16_ofNat', UInt16.ofNat_toNat]
  rfl

theorem ofNat_toNat_index (index : UInt16) : Int16.ofNat index.toNat = index.toInt16 := by
  rw [← UInt16.toInt16_ofNat', UInt16.ofNat_toNat]

theorem cellOf_ofNat {cell : Nat} (inside : cell < memorySize) :
    (cellOf (.ofNat cell)).val = cell := by
  have small : cell < UInt16.size := Nat.lt_trans inside (by decide)
  change (Int16.ofNat cell).toUInt16.toNat % memorySize = cell
  rw [toNat_ofNat_word small, Nat.mod_eq_of_lt inside]

theorem ofNat_sub_one {cell : Nat} (positive : 0 < cell) :
    Int16.ofNat cell - 1 = .ofNat (cell - 1) :=
  (Int16.ofNat_sub cell 1 positive).symm

namespace Memory

/-- The number that the word in a register stands for as an address. -/
def pointer (memory : Memory) (register : Register) : Nat :=
  (memory.register register).toUInt16.toNat

theorem register_eq_ofNat (memory : Memory) (register : Register) :
    memory.register register = .ofNat (memory.pointer register) :=
  (ofNat_toNat_word _).symm

theorem pointer_eq {memory : Memory} {register : Register} {number : Nat}
    (holds : memory.register register = .ofNat number) (small : number ≤ memorySize) :
    memory.pointer register = number := by
  rw [pointer, holds, toNat_ofNat_word (Nat.lt_of_le_of_lt small (by decide))]

theorem read_cleared (address : Word) : cleared.read address = 0 := by
  simp [read, cleared]

theorem read_write_cell (memory : Memory) {address : Word} {cell : Nat} (value : Word)
    (inside : cell < memorySize) (apart : (cellOf address).val ≠ cell) :
    (memory.write address value).read (.ofNat cell) = memory.read (.ofNat cell) := by
  refine memory.read_write_of_ne value fun same => apart ?_
  rw [same, cellOf_ofNat inside]

theorem read_setRegister_cell (memory : Memory) {register : Register} {cell : Nat} (value : Word)
    (inside : cell < memorySize) (apart : register.address ≠ cell) :
    (memory.setRegister register value).read (.ofNat cell) = memory.read (.ofNat cell) :=
  memory.read_write_cell value inside (by rw [cellOf_register]; exact apart)

section stack

variable {memory : Memory} {height : Nat} (points : memory.register .sp = .ofNat height)
include points

theorem top_eq (positive : 0 < height) : memory.top = .ofNat (height - 1) := by
  rw [top, points, ofNat_sub_one positive]

theorem push_eq (value : Word) :
    memory.push value = (memory.setRegister .sp (.ofNat (height + 1))).write (.ofNat height) value := by
  have moved : memory.register .sp + 1 = .ofNat (height + 1) := by
    rw [points, Int16.ofNat_add]
    rfl
  have top : (memory.setRegister .sp (.ofNat (height + 1))).top = .ofNat height :=
    top_eq (register_setRegister_self _ _ _) (Nat.succ_pos height)
  rw [push, moved, top]

theorem register_sp_push (value : Word) (positive : 0 < height) (room : height < memorySize) :
    (memory.push value).register .sp = .ofNat (height + 1) := by
  have apart : cellOf (.ofNat height) ≠ cellOf Register.sp.cell := by
    intro same
    have numbers := congrArg Fin.val same
    rw [cellOf_ofNat room, cellOf_register] at numbers
    exact absurd numbers (Nat.ne_of_gt positive)
  rw [push_eq points, register_write _ _ apart, register_setRegister_self]

theorem read_push_self (value : Word) : (memory.push value).read (.ofNat height) = value := by
  rw [push_eq points, read_write_self]

/-- A push over the end of memory lands in SP. -/
theorem register_sp_push_of_sp (value : Word)
    (wraps : cellOf (.ofNat height) = cellOf Register.sp.cell) :
    (memory.push value).register .sp = value := by
  rw [push_eq points, register, ← read_congr _ wraps, read_write_self]

theorem read_push_of_ne (value : Word) (room : height < memorySize) {cell : Nat}
    (positive : 0 < cell) (inside : cell < memorySize) (apart : cell ≠ height) :
    (memory.push value).read (.ofNat cell) = memory.read (.ofNat cell) := by
  have other : Register.sp.address ≠ cell := Nat.ne_of_lt positive
  rw [push_eq points, read_write_cell _ _ inside (by rw [cellOf_ofNat room]; exact apart.symm),
    read_setRegister_cell _ _ inside other]

theorem register_sp_drop (positive : 0 < height) :
    memory.drop.register .sp = .ofNat (height - 1) := by
  rw [drop, register_setRegister_self, top_eq points positive]

omit points in
theorem read_drop {cell : Nat} (positive : 0 < cell) (inside : cell < memorySize) :
    memory.drop.read (.ofNat cell) = memory.read (.ofNat cell) :=
  memory.read_setRegister_cell _ inside (show Register.sp.address ≠ cell from Nat.ne_of_lt positive)

/-- What is popped is the word below the height, unless that is SP itself. -/
theorem popped_eq (above : 1 < height) (inside : height ≤ memorySize) :
    memory.popped = memory.read (.ofNat (height - 1)) := by
  rw [popped, top_eq points (by omega), read_drop (by omega) (by omega)]

end stack

/-! ## Several words -/

/-- Memory after words are pushed, the first one first. -/
def pushAll (memory : Memory) (words : List Word) : Memory :=
  words.foldl push memory

/-- Pushed words lie above the old height in their order; the cells below keep their words. -/
theorem pushAll_spec (words : List Word) {memory : Memory} {height : Nat}
    (points : memory.register .sp = .ofNat height) (positive : 0 < height)
    (room : height + words.length ≤ memorySize) :
    (memory.pushAll words).register .sp = .ofNat (height + words.length) ∧
      (∀ index word, words[index]? = some word →
        (memory.pushAll words).read (.ofNat (height + index)) = word) ∧
      ∀ cell, 0 < cell → cell < height →
        (memory.pushAll words).read (.ofNat cell) = memory.read (.ofNat cell) := by
  induction words generalizing memory height with
  | nil =>
      refine ⟨points, ?_, fun _ _ _ => rfl⟩
      intro index word found
      cases found
  | cons first rest ih =>
      rw [List.length_cons] at room
      have moved := register_sp_push points first positive (by omega)
      obtain ⟨above, pushed, kept⟩ := ih moved (Nat.succ_pos height) (by omega)
      refine ⟨?_, ?_, ?_⟩
      · rw [List.length_cons, ← Nat.add_assoc, Nat.add_right_comm]
        exact above
      · intro index word found
        cases index with
        | zero =>
            cases found
            exact (kept height positive (Nat.lt_succ_self height)).trans (read_push_self points first)
        | succ index =>
            have later := pushed index word found
            rw [Nat.add_right_comm] at later
            exact later
      · intro cell above below
        exact (kept cell above (Nat.lt_succ_of_lt below)).trans
          (read_push_of_ne points first (by omega) above (by omega) (Nat.ne_of_lt below))

end Memory

end HackToolchain
