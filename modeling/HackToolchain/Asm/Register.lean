/-!
# Registers in memory

The first cells of memory are registers with names of their own: the stack
pointer and the bases of the four movable segments.
-/

namespace HackToolchain.Asm

/-- The named registers at the bottom of memory. -/
inductive Register where
  /-- The stack pointer. -/
  | sp
  /-- The base of the locals. -/
  | lcl
  /-- The base of the arguments. -/
  | arg
  /-- The base of one object segment. -/
  | this
  /-- The base of the other object segment. -/
  | that
  deriving DecidableEq, Repr

namespace Register

def name : Register → String
  | sp => "SP"
  | lcl => "LCL"
  | arg => "ARG"
  | this => "THIS"
  | that => "THAT"

/-- The cell that is a register. -/
def address : Register → Nat
  | sp => 0
  | lcl => 1
  | arg => 2
  | this => 3
  | that => 4

def all : List Register :=
  [sp, lcl, arg, this, that]

end Register

end HackToolchain.Asm
