import HackToolchain.Asm.Register
import HackToolchain.Memory

/-!
# Registers and the stack in memory

SP, LCL, ARG, THIS and THAT are the first five cells of memory.  The stack
grows upwards; SP points to the cell above its top.
-/

namespace HackToolchain

open Asm (Register)

/-- The address of a register as a word. -/
def Asm.Register.cell (register : Register) : Word :=
  .ofNat register.address

namespace Memory

def register (memory : Memory) (register : Register) : Word :=
  memory.read register.cell

def setRegister (memory : Memory) (register : Register) (value : Word) : Memory :=
  memory.write register.cell value

def top (memory : Memory) : Word :=
  memory.register .sp - 1

/-- Memory after a word is pushed; SP moves first. -/
def push (memory : Memory) (value : Word) : Memory :=
  let moved := memory.setRegister .sp (memory.register .sp + 1)
  moved.write moved.top value

def pushRegister (memory : Memory) (register : Register) : Memory :=
  memory.push (memory.register register)

/-- Memory after SP has left out the top word. -/
def drop (memory : Memory) : Memory :=
  memory.setRegister .sp memory.top

/-- The word a pop yields: the one that SP leaves out. -/
def popped (memory : Memory) : Word :=
  memory.drop.read memory.top

def replaceTop (memory : Memory) (value : Word) : Memory :=
  memory.write memory.top value

end Memory

end HackToolchain
