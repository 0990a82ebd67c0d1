import HackToolchain.Vm.Command

/-!
# Faults of source lines

A line whose first word is a keyword must have that keyword's operands and
nothing else.  A fault names the first thing that is wrong with it; a located
fault adds the line.
-/

namespace HackToolchain.Vm

/-- The first words of commands. -/
inductive Keyword where
  | push
  | pop
  | label
  | goto
  | ifGoto
  | function
  | call
  | ret
  | operate (operator : Operator)
  deriving DecidableEq, Repr

namespace Keyword

def name : Keyword → String
  | push => "push"
  | pop => "pop"
  | label => "label"
  | goto => "goto"
  | ifGoto => "if-goto"
  | function => "function"
  | call => "call"
  | ret => "return"
  | operate operator => operator.name

def all : List Keyword :=
  [push, pop, label, goto, ifGoto, function, call, ret] ++ Operator.all.map operate

def ofWord? (word : List Char) : Option Keyword :=
  all.find? fun keyword => keyword.name.toList == word

theorem ofWord?_name (keyword : Keyword) : ofWord? keyword.name.toList = some keyword := by
  rcases keyword with _ | _ | _ | _ | _ | _ | _ | _ | ((_ | _) | (_ | _ | _ | _) | (_ | _ | _)) <;>
    rfl

/-- A word is a keyword exactly when it is the keyword's name. -/
theorem ofWord?_eq_some_iff {word : List Char} {keyword : Keyword} :
    ofWord? word = some keyword ↔ word = keyword.name.toList := by
  constructor
  · intro found
    have holds := List.find?_some found
    exact (by simpa using holds : keyword.name.toList = word).symm
  · rintro rfl
    exact ofWord?_name keyword

end Keyword

/-- The operands that keywords ask for. -/
inductive Operand where
  | segment
  | index
  | labelName
  | functionName
  | localCount
  | argumentCount
  deriving DecidableEq, Repr

def Operand.name : Operand → String
  | segment => "segment"
  | index => "index"
  | labelName => "label name"
  | functionName => "function name"
  | localCount => "local count"
  | argumentCount => "argument count"

/-- What can be wrong with a line that starts with a keyword. -/
inductive Fault where
  | missingOperand (keyword : Keyword) (operand : Operand)
  /-- A word stands where a segment is due and names none. -/
  | invalidSegment (word : String)
  /-- A word stands where a number is due and is no sixteen-bit numeral. -/
  | invalidIndex (word : String)
  /-- A word stands where a name is due and is no symbol. -/
  | invalidSymbol (word : String)
  /-- A pop names the constant segment. -/
  | popConstant
  /-- An index exceeds the largest index of its segment. -/
  | indexOutOfRange (segment : Segment) (index limit : UInt16)
  /-- Words follow the last operand. -/
  | extraOperands (words : List String)
  deriving DecidableEq, Repr

def Fault.message : Fault → String
  | missingOperand keyword operand =>
      "`" ++ keyword.name ++ "` is missing its " ++ operand.name
  | invalidSegment word => "unknown segment '" ++ word ++ "'"
  | invalidIndex word => "'" ++ word ++ "' is not a non-negative 16-bit integer"
  | invalidSymbol word => "'" ++ word ++ "' is not a valid symbol"
  | popConstant => "cannot pop into the constant segment"
  | indexOutOfRange segment index limit =>
      "index " ++ toString index.toNat ++ " is out of range for " ++ segment.name ++
        " (max " ++ toString limit.toNat ++ ")"
  | extraOperands words => "unexpected trailing operand(s) '" ++ " ".intercalate words ++ "'"

/-- A fault and the line it is in. -/
structure LocatedFault where
  /-- The number of the line, counted from one. -/
  line : Nat
  text : String
  fault : Fault
  deriving DecidableEq, Repr

def LocatedFault.message (located : LocatedFault) : String :=
  "line " ++ toString located.line ++ ": " ++ located.fault.message ++
    " in `" ++ located.text ++ "`"

end HackToolchain.Vm
