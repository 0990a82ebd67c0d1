import HackToolchain.Asm.Register

/-!
# Symbols of generated code

Generated code refers to registers, numbered cells, names given by the source,
static variables, and labels of its own.  The labels of its own carry a number
that no other piece of generated code uses.
-/

namespace HackToolchain.Codegen

/-- The five places a comparison jumps to. -/
inductive Mark where
  /-- The comparison holds. -/
  | holds
  /-- The truth value is in D. -/
  | done
  /-- The first operand is negative. -/
  | negative
  /-- The operands have the same sign. -/
  | sameSign
  /-- A word with the sign of the difference is in D. -/
  | test
  deriving DecidableEq, Repr

def Mark.name : Mark → String
  | holds => "TRUE"
  | done => "END"
  | negative => "XNEG"
  | sameSign => "SAME"
  | test => "TEST"

/-- What generated code refers to. -/
inductive Symbol where
  | register (named : Asm.Register)
  | cell (number : Nat)
  /-- A label or function of the source, under its own name. -/
  | given (name : String)
  /-- A variable of a source unit. -/
  | static (unit : String) (index : UInt16)
  /-- A place in a comparison of a source unit. -/
  | mark (unit : String) (place : Mark) (number : Nat)
  /-- The place after a call. -/
  | returnPoint (callee : String) (number : Nat)
  deriving DecidableEq, Repr

def Symbol.text : Symbol → String
  | register named => named.name
  | cell number => "R" ++ toString number
  | given name => name
  | static unit index => unit ++ ".static." ++ toString index.toNat
  | mark unit place number => unit ++ "$CMP_" ++ place.name ++ "." ++ toString number
  | returnPoint callee number => callee ++ "$ret." ++ toString number

end HackToolchain.Codegen
