import HackToolchain.Memory.Stack

/-!
# Scratch cells

Generated code keeps its own intermediate words in the cells 13 to 15.  Two
memories may agree in all other cells; then they agree in the registers, and
they still agree after the same word is stored at the same address.
-/

namespace HackToolchain

open Asm (Register)

/-- An address that selects one of the cells generated code uses for itself. -/
def IsScratch (address : Word) : Prop :=
  13 ≤ (cellOf address).val ∧ (cellOf address).val ≤ 15

instance : DecidablePred IsScratch := fun _ => inferInstanceAs (Decidable (_ ∧ _))

theorem cellOf_register (register : Register) :
    (cellOf register.cell).val = register.address := by
  cases register <;> decide

theorem not_isScratch_register (register : Register) : ¬ IsScratch register.cell := by
  cases register <;> decide

theorem cellOf_register_ne {first second : Register} (differ : first ≠ second) :
    cellOf first.cell ≠ cellOf second.cell := by
  cases first <;> cases second <;> first | exact absurd rfl differ | decide

namespace Memory

theorem read_congr (memory : Memory) {first second : Word} (same : cellOf first = cellOf second) :
    memory.read first = memory.read second := by
  unfold read
  simp only [same]

/-- Words stored in different cells can be stored in either order. -/
theorem write_comm (memory : Memory) {first second : Word} (value other : Word)
    (apart : cellOf first ≠ cellOf second) :
    (memory.write first value).write second other =
      (memory.write second other).write first value :=
  Vector.set_comm value other fun same => apart (Fin.ext same)

theorem register_write (memory : Memory) {address : Word} (value : Word) {register : Register}
    (apart : cellOf address ≠ cellOf register.cell) :
    (memory.write address value).register register = memory.register register :=
  memory.read_write_of_ne value apart

theorem cellOf_ne_of_isScratch {scratch other : Word} (own : IsScratch scratch)
    (plain : ¬ IsScratch other) : cellOf scratch ≠ cellOf other := by
  intro same
  exact plain (by rw [IsScratch, ← same]; exact own)

theorem register_write_scratch (memory : Memory) {scratch : Word} (own : IsScratch scratch)
    (value : Word) (register : Register) :
    (memory.write scratch value).register register = memory.register register :=
  memory.register_write value (cellOf_ne_of_isScratch own (not_isScratch_register register))

theorem register_setRegister_self (memory : Memory) (register : Register) (value : Word) :
    (memory.setRegister register value).register register = value :=
  memory.read_write_self register.cell value

theorem register_setRegister_of_ne (memory : Memory) {first second : Register} (value : Word)
    (differ : first ≠ second) :
    (memory.setRegister first value).register second = memory.register second :=
  memory.read_write_of_ne value (cellOf_register_ne differ)

/-- Memories that agree in all cells but the scratch cells. -/
def Agrees (first second : Memory) : Prop :=
  ∀ address, ¬ IsScratch address → first.read address = second.read address

namespace Agrees

variable {first second third : Memory}

theorem refl (memory : Memory) : Agrees memory memory := fun _ _ => rfl

theorem symm (agrees : Agrees first second) : Agrees second first :=
  fun address plain => (agrees address plain).symm

theorem trans (left : Agrees first second) (right : Agrees second third) : Agrees first third :=
  fun address plain => (left address plain).trans (right address plain)

theorem register (agrees : Agrees first second) (register : Register) :
    first.register register = second.register register :=
  agrees _ (not_isScratch_register register)

theorem top (agrees : Agrees first second) : first.top = second.top := by
  rw [Memory.top, agrees.register, Memory.top]

theorem write (agrees : Agrees first second) (address value : Word) :
    Agrees (first.write address value) (second.write address value) := by
  intro other plain
  rw [read_write, read_write, agrees other plain]

theorem setRegister (agrees : Agrees first second) (register : Register) (value : Word) :
    Agrees (first.setRegister register value) (second.setRegister register value) :=
  agrees.write register.cell value

theorem push (agrees : Agrees first second) (value : Word) :
    Agrees (first.push value) (second.push value) := by
  have moved := agrees.setRegister .sp (first.register .sp + 1)
  rw [Memory.push, Memory.push, ← agrees.register .sp, ← moved.top]
  exact moved.write _ value

theorem pushRegister (agrees : Agrees first second) (register : Register) :
    Agrees (first.pushRegister register) (second.pushRegister register) := by
  rw [Memory.pushRegister, Memory.pushRegister, ← agrees.register register]
  exact agrees.push _

theorem drop (agrees : Agrees first second) : Agrees first.drop second.drop := by
  rw [Memory.drop, Memory.drop, ← agrees.top]
  exact agrees.setRegister .sp _

/-- The popped word is the same unless it comes from a scratch cell. -/
theorem popped (agrees : Agrees first second) (plain : ¬ IsScratch first.top) :
    first.popped = second.popped := by
  rw [Memory.popped, Memory.popped, ← agrees.top]
  exact agrees.drop _ plain

theorem replaceTop (agrees : Agrees first second) (value : Word) :
    Agrees (first.replaceTop value) (second.replaceTop value) := by
  rw [Memory.replaceTop, Memory.replaceTop, ← agrees.top]
  exact agrees.write _ value

end Agrees

/-- A stored scratch word is no difference. -/
theorem agrees_write_scratch (memory : Memory) {scratch : Word} (own : IsScratch scratch)
    (value : Word) : Agrees memory (memory.write scratch value) := by
  intro address plain
  rw [read_write_of_ne memory value (cellOf_ne_of_isScratch own plain)]

theorem top_write_scratch (memory : Memory) {scratch : Word} (own : IsScratch scratch)
    (value : Word) : (memory.write scratch value).top = memory.top := by
  rw [top, register_write_scratch _ own, top]

/-- Dropping the top word and storing a scratch word do not disturb each other. -/
theorem drop_write_scratch (memory : Memory) {scratch : Word} (own : IsScratch scratch)
    (value : Word) : (memory.write scratch value).drop = memory.drop.write scratch value := by
  rw [drop, top_write_scratch _ own, drop]
  exact write_comm _ _ _ (cellOf_ne_of_isScratch own (not_isScratch_register .sp))

/-- The popped word is still popped when it was itself put into a scratch cell. -/
theorem popped_write_scratch (memory : Memory) {scratch : Word} (own : IsScratch scratch) :
    (memory.write scratch memory.popped).popped = memory.popped := by
  rw [popped, drop_write_scratch _ own, top_write_scratch _ own, read_write]
  split <;> rfl

end Memory

end HackToolchain
