/-!
# Sizes of programs

A text is searched with a program that is made from an expression, and another
one that reads the text backwards.  Only the size of a program matters here:
the number of instructions, each of a fixed size, and the bytes of the lists of
byte intervals and branches that some instructions have.  A program grows
until it reaches a limit, which bounds what an expression may ask for.
-/

namespace HackToolchain.Pattern

/-- The size of a program. -/
structure Program where
  instructions : Nat
  /-- The bytes of the lists of instructions. -/
  listed : Nat
  deriving DecidableEq, Repr

namespace Program

/-- The greatest number of bytes of a program. -/
def limit : Nat := 10 * 1024 * 1024

def instructionBytes : Nat := 32

/-- The bytes of a byte interval in the list of an instruction. -/
def intervalBytes : Nat := 8

/-- The bytes of a branch in the list of an instruction. -/
def branchBytes : Nat := 4

def empty : Program := ⟨0, 0⟩

def bytes (program : Program) : Nat :=
  instructionBytes * program.instructions + program.listed

end Program

/-- What adds to a program, unless that grows beyond the limit. -/
abbrev Assembly := StateT Program Option

namespace Assembly

/-- Add instructions and bytes of lists; the result is the number of the first instruction. -/
def grow (instructions listed : Nat) : Assembly Nat := fun program =>
  let grown : Program := ⟨program.instructions + instructions, program.listed + listed⟩
  if grown.bytes ≤ Program.limit then some (program.instructions, grown) else none

def instruction : Assembly Nat := grow 1 0

/-- Add an instruction that goes on at bytes of some intervals. -/
def reading (intervals : Nat) : Assembly Nat := grow 1 (Program.intervalBytes * intervals)

/-- Add branches to an instruction. -/
def branch (count : Nat) : Assembly Unit := do
  let _ ← grow 0 (Program.branchBytes * count)

/-- Go on from what was added: one more branch, if that ends with branches. -/
def goOn (endsInBranches : Bool) : Assembly Unit :=
  if endsInBranches then branch 1 else pure ()

/-- Add copies of what follows something else, in a number. -/
def follow (body : Assembly Bool) : Nat → Bool → Assembly Bool
  | 0, previous => fun program => some (previous, program)
  | count + 1, previous => fun program =>
      match body program with
      | none => none
      | some (last, grown) =>
          match goOn previous grown with
          | none => none
          | some (_, grown) => follow body count last grown

/-- Add a number of copies, one after another. -/
def copies (body : Assembly Bool) : Nat → Assembly Bool
  | 0 => do
      let _ ← instruction
      return false
  | count + 1 => do follow body count (← body)

/-- Add a number of copies each of which may be left out together with those that follow. -/
def optionalCopies (body : Assembly Bool) : Nat → Bool → Assembly Bool
  | 0, previous => fun program => some (previous, program)
  | count + 1, previous => fun program =>
      match instruction program with
      | none => none
      | some (_, grown) =>
          match body grown with
          | none => none
          | some (last, grown) =>
              match (do goOn previous; branch 2 : Assembly Unit) grown with
              | none => none
              | some (_, grown) => optionalCopies body count last grown

/-- Add a repetition without an upper bound, of what takes characters or may take none. -/
def unbounded (least : Nat) (isSolid : Bool) (body : Assembly Bool) : Assembly Bool :=
  match least with
  | 0 =>
      if isSolid then do
        let _ ← instruction
        goOn (← body)
        branch 1
        return true
      else do
        let last ← body
        let _ ← grow 3 0
        goOn last
        branch 4
        return false
  | 1 => do
      let last ← body
      let _ ← instruction
      goOn last
      branch 1
      return true
  | count + 2 => do
      let before ← copies body (count + 1)
      let last ← body
      let _ ← instruction
      goOn before
      goOn last
      branch 1
      return true

/-- Add a repetition with an upper bound. -/
def bounded (least greatest : Nat) (body : Assembly Bool) : Assembly Bool :=
  if least = greatest then copies body least
  else if least = 0 ∧ greatest = 1 then do
    let _ ← instruction
    let last ← body
    let _ ← instruction
    branch 2
    goOn last
    return false
  else do
    let before ← copies body least
    let _ ← instruction
    goOn (← optionalCopies body (greatest - least) before)
    return false

end Assembly

/-- The direction in which a program reads a text. -/
inductive Direction where
  | forward
  | backward
  deriving DecidableEq, Repr

end HackToolchain.Pattern
