import HackToolchain.Codegen.Block

/-!
# Generator state

Compiling a sequence of commands keeps three things: the name of the source
unit, the next number for labels, and the static indices that the unit has
used.  The label number is never reset, so no two blocks share a label.
-/

namespace HackToolchain.Codegen

open HackToolchain.Vm

/-- Put an index into a strictly increasing list, unless it is there. -/
def insertIndex (index : UInt16) : List UInt16 → List UInt16
  | [] => [index]
  | first :: rest =>
      if index < first then index :: first :: rest
      else if index = first then first :: rest
      else first :: insertIndex index rest

theorem mem_insertIndex {index member : UInt16} {indices : List UInt16} :
    member ∈ insertIndex index indices ↔ member = index ∨ member ∈ indices := by
  induction indices with
  | nil => simp [insertIndex]
  | cons first rest ih =>
      unfold insertIndex
      split
      · simp
      · split
        next same => subst same; simp
        next => simp only [List.mem_cons, ih]; exact or_left_comm

/-- What is kept between the commands of a compilation. -/
structure Generator where
  unit : String
  /-- The number of the next labels. -/
  next : Nat
  /-- The static indices used by the current unit, in strictly increasing order. -/
  statics : List UInt16
  deriving DecidableEq, Repr

namespace Generator

def initial : Generator :=
  ⟨"", 0, []⟩

/-- Start a source unit; its statics are its own. -/
def beginUnit (name : String) (generator : Generator) : Generator :=
  { generator with unit := name, statics := [] }

/-- The static index a command refers to. -/
def staticIndex? : Command → Option UInt16
  | .push .statics index | .pop .statics index => some index
  | _ => none

def block (generator : Generator) (command : Command) : Block :=
  .ofItem generator.next (.command generator.unit command)

def advance (command : Command) (generator : Generator) : Generator :=
  { generator with
    next := generator.next + labelCount (.command generator.unit command)
    statics :=
      match staticIndex? command with
      | some index => insertIndex index generator.statics
      | none => generator.statics }

/-- The block that sets up the stack and calls an entry function. -/
def bootstrapBlock (generator : Generator) (entry : String) : Block :=
  .ofItem generator.next (.start entry)

def advanceBootstrap (generator : Generator) : Generator :=
  { generator with next := generator.next + 1 }

end Generator

end HackToolchain.Codegen
