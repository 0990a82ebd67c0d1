import HackToolchain.Asm.Line
import HackToolchain.Text.Decimal
import HackToolchain.Text.Line

/-!
# Reading assembly lines

A line that says something is a declaration, a load or a compute instruction.
A load of a numeral loads that number; a load of anything else loads what the
text stands for, however odd the text is.
-/

namespace HackToolchain.Asm

/-- Why a text cannot be assembled. -/
inductive Fault where
  | duplicateLabel (name : String)
  | numberOutOfRange (line : String)
  /-- The expression of a line is not canonical. -/
  | badComp (line : String)
  | badJump (line : String)
  /-- The destination of a line has letters other than A, D and M. -/
  | badDest (line : String)
  /-- The cell after those of all known variables does not fit sixteen bits. -/
  | variableOverflow
  deriving DecidableEq, Repr

def Fault.message : Fault → String
  | duplicateLabel name => "duplicate label " ++ name
  | numberOutOfRange line => "immediate out of range: " ++ line
  | badComp line => "non-canonical comp in `" ++ line ++ "`"
  | badJump line => "bad jump in `" ++ line ++ "`"
  | badDest line => "bad dest in `" ++ line ++ "`"
  | variableOverflow => "attempt to add with overflow"

/-- The largest number a load instruction holds. -/
def maxNumber : UInt16 := 32767

/-- The name that a line in parentheses declares. -/
def declared? : List Char → Option String
  | '(' :: rest =>
      match rest.reverse with
      | ')' :: name => some (String.ofList name.reverse)
      | _ => none
  | _ => none

/-- A line that is no instruction: whatever starts with a parenthesis. -/
def isAside : List Char → Bool
  | '(' :: _ => true
  | _ => false

/-- The parts of a text before and after the first occurrence of a character. -/
def cutAt? (character : Char) (text : List Char) : Option (List Char × List Char) :=
  match text.span (· != character) with
  | (before, _ :: after) => some (before, after)
  | (_, []) => none

/-- An instruction whose symbols are not resolved yet. -/
inductive Statement where
  | number (value : UInt16)
  | load (name : String)
  | compute (compute : Compute)
  deriving DecidableEq, Repr

namespace Statement

def ofOperand (line operand : List Char) : Except Fault Statement :=
  match Text.readSigned16? operand with
  | some value =>
      if value ≤ maxNumber then .ok (number value)
      else .error (.numberOutOfRange (String.ofList line))
  | none => .ok (load (String.ofList operand))

/-- Read a compute instruction: `dest=comp;jump`, where dest and jump may be missing. -/
def ofCompute (line : List Char) : Except Fault Statement :=
  let (dest, rest) := (cutAt? '=' line).getD ([], line)
  let (comp, jump) := (cutAt? ';' rest).getD (rest, [])
  match Comp.ofText? comp, Jump.ofText? jump, Dest.ofText? dest with
  | none, _, _ => .error (.badComp (String.ofList line))
  | _, none, _ => .error (.badJump (String.ofList line))
  | _, _, none => .error (.badDest (String.ofList line))
  | some comp, some jump, some dest => .ok (compute ⟨dest, comp, jump⟩)

/-- Read a line that is an instruction. -/
def read (line : List Char) : Except Fault Statement :=
  match line with
  | '@' :: operand => ofOperand line operand
  | _ => ofCompute line

end Statement

end HackToolchain.Asm
