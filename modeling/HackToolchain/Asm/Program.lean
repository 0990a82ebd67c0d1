import HackToolchain.Asm.Reader
import HackToolchain.Asm.Register
import HackToolchain.Memory

/-!
# Assembled programs

Assembling takes two passes over the lines of a text.  The first counts
instructions and records where labels are declared; the second turns each
instruction into a word or a computation, and gives every symbol that is
neither predefined nor a label the next cell from 16 on, as long as sixteen bits
can address it.
-/

namespace HackToolchain.Asm

/-- An instruction with all its symbols resolved. -/
inductive Instruction where
  | load (value : Word)
  | compute (compute : Compute)
  deriving DecidableEq, Repr, Inhabited

/-- The symbols with fixed values, besides the numbered cells. -/
def predefinedTable : List (String × UInt16) :=
  Register.all.map (fun register => (register.name, .ofNat register.address)) ++
    [("SCREEN", 16384), ("KBD", 24576)]

/-- The value of a symbol that every program knows: a register, R0 to R15, or a device. -/
def predefined? (name : String) : Option UInt16 :=
  match predefinedTable.lookup name with
  | some value => some value
  | none =>
      match name.toList with
      | 'R' :: digits => (Text.readSigned16? digits).filter (· < 16)
      | _ => none

/-- The labels of a program with their places, the latest first. -/
abbrev Labels := List (String × Nat)

/--
Record the labels that lines declare, counting instructions from a place on.
A line that starts with a parenthesis but is not closed counts as well.
-/
def collectLabels : List (List Char) → Nat → Labels → Except Fault Labels
  | [], _, labels => .ok labels
  | line :: rest, place, labels =>
      match declared? line with
      | none => collectLabels rest (place + 1) labels
      | some name =>
          match labels.lookup name with
          | some _ => .error (.duplicateLabel name)
          | none => collectLabels rest place ((name, place) :: labels)

/-- The first cell for variables. -/
def variableBase : Nat := 16

/-- How many variables have cells whose addresses fit sixteen bits. -/
def variableLimit : Nat := UInt16.size - variableBase

def variableCell (position : Nat) : UInt16 :=
  .ofNat (variableBase + position)

/--
The cell of a variable, and the known variables after it was met: an unknown
name becomes the next variable.  The next cell is computed for a known name
as well, so both fail once the known variables have used up the addresses.
-/
def resolveVariable (known : List String) (name : String) :
    Except Fault (UInt16 × List String) :=
  if known.length < variableLimit then
    match known.idxOf? name with
    | some position => .ok (variableCell position, known)
    | none => .ok (variableCell known.length, known ++ [name])
  else .error .variableOverflow

/-- The value of a symbol, and the known variables after it was met. -/
def resolve (labels : Labels) (known : List String) (name : String) :
    Except Fault (UInt16 × List String) :=
  match predefined? name with
  | some value => .ok (value, known)
  | none =>
      match labels.lookup name with
      | some place => .ok (.ofNat place, known)
      | none => resolveVariable known name

/-- The instruction of a statement, and the known variables after it. -/
def Statement.resolve (labels : Labels) (known : List String) :
    Statement → Except Fault (Instruction × List String)
  | number value => .ok (.load value.toInt16, known)
  | load name =>
      match Asm.resolve labels known name with
      | .error fault => .error fault
      | .ok (value, known) => .ok (.load value.toInt16, known)
  | compute instruction => .ok (.compute instruction, known)

/-- Read and resolve the instructions of lines, after those already placed. -/
def placeInstructions (labels : Labels) :
    List (List Char) → List String → Array Instruction →
      Except Fault (Array Instruction × List String)
  | [], known, placed => .ok (placed, known)
  | line :: rest, known, placed =>
      match Statement.read line with
      | .error fault => .error fault
      | .ok statement =>
          match statement.resolve labels known with
          | .error fault => .error fault
          | .ok (instruction, known) =>
              placeInstructions labels rest known (placed.push instruction)

/-- A program ready to run. -/
structure Program where
  rom : Array Instruction
  labels : Labels
  /-- The names of the variables in the order of their cells. -/
  variableNames : List String

namespace Program

def assemble (text : String) : Except Fault Program :=
  let lines := Text.contents text.toList
  match collectLabels lines 0 [] with
  | .error fault => .error fault
  | .ok labels =>
      match placeInstructions labels (lines.filter fun line => !isAside line) [] #[] with
      | .error fault => .error fault
      | .ok (rom, known) => .ok ⟨rom, labels, known⟩

def label? (program : Program) (name : String) : Option Nat :=
  program.labels.lookup name

def cell? (program : Program) (name : String) : Option UInt16 :=
  (program.variableNames.idxOf? name).map variableCell

end Program

end HackToolchain.Asm
