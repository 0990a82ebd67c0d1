import HackToolchain.Text.Decimal
import HackToolchain.Text.Line
import HackToolchain.Vm.Fault

/-!
# Reading source text

Every line that says something is read on its own, by its words, and has one
outcome: a command, a fault, or nothing that is recognized.  The operands of a
line are read from left to right and the first fault wins.
-/

namespace HackToolchain.Vm

/-- What reading a line yields. -/
inductive Outcome where
  | command (command : Command)
  | fault (fault : Fault)
  | skipped
  deriving DecidableEq, Repr

/-- A line that says something, and what reading it yields. -/
structure Reading where
  /-- The number of the line, counted from one. -/
  line : Nat
  text : String
  outcome : Outcome
  deriving DecidableEq, Repr

/-- The words of a line that are still to be read. -/
abbrev Words := List (List Char)

namespace Words

/--
Take the next word as an operand.  A missing word and a word that does not
read are different faults.
-/
def take {Value : Type} (keyword : Keyword) (operand : Operand)
    (read? : List Char → Option Value) (invalid : String → Fault) :
    Words → Except Fault (Value × Words)
  | [] => .error (.missingOperand keyword operand)
  | word :: rest =>
      match read? word with
      | some value => .ok (value, rest)
      | none => .error (invalid (String.ofList word))

/-- The name a word spells, if it is a symbol. -/
def readSymbol? (word : List Char) : Option String :=
  if isSymbol word then some (String.ofList word) else none

def takeSegment (keyword : Keyword) : Words → Except Fault (Segment × Words) :=
  take keyword .segment Segment.ofWord? .invalidSegment

def takeNumber (keyword : Keyword) (operand : Operand) : Words → Except Fault (UInt16 × Words) :=
  take keyword operand Text.readNumeral16? .invalidIndex

def takeSymbol (keyword : Keyword) (operand : Operand) : Words → Except Fault (String × Words) :=
  take keyword operand readSymbol? .invalidSymbol

/-- Take a segment and an index inside it. -/
def takeCell (keyword : Keyword) (words : Words) : Except Fault ((Segment × UInt16) × Words) := do
  let (segment, words) ← takeSegment keyword words
  let (index, words) ← takeNumber keyword .index words
  match segment.maxIndex? with
  | some limit =>
      if limit < index then .error (.indexOutOfRange segment index limit)
      else .ok ((segment, index), words)
  | none => .ok ((segment, index), words)

/-- Accept a command if no word is left. -/
def finish (command : Command) (words : Words) : Except Fault Command :=
  if words.isEmpty then .ok command else .error (.extraOperands (words.map String.ofList))

end Words

namespace Keyword

/-- Read the operands of a keyword. -/
def readOperands (keyword : Keyword) (words : Words) : Except Fault Command :=
  match keyword with
  | push => do
      let ((segment, index), words) ← words.takeCell push
      words.finish (.push segment index)
  | pop => do
      let ((segment, index), words) ← words.takeCell pop
      if segment = .constant then .error .popConstant
      else words.finish (.pop segment index)
  | label => do
      let (name, words) ← words.takeSymbol label .labelName
      words.finish (.label name)
  | goto => do
      let (name, words) ← words.takeSymbol goto .labelName
      words.finish (.goto name)
  | ifGoto => do
      let (name, words) ← words.takeSymbol ifGoto .labelName
      words.finish (.ifGoto name)
  | function => do
      let (name, words) ← words.takeSymbol function .functionName
      let (locals, words) ← words.takeNumber function .localCount
      words.finish (.function name locals)
  | call => do
      let (name, words) ← words.takeSymbol call .functionName
      let (arguments, words) ← words.takeNumber call .argumentCount
      words.finish (.call name arguments)
  | ret => words.finish .ret
  | operate operator => words.finish (.operate operator)

end Keyword

namespace Outcome

/-- Read a line by its words. -/
def ofWords : Words → Outcome
  | [] => skipped
  | word :: rest =>
      match Keyword.ofWord? word with
      | none => skipped
      | some keyword =>
          match keyword.readOperands rest with
          | .ok read => command read
          | .error wrong => fault wrong

end Outcome

namespace Reading

/-- Read what a line says. -/
def ofContent (line : Nat) (content : List Char) : Reading :=
  ⟨line, String.ofList content, .ofWords (Text.words content)⟩

def command? (reading : Reading) : Option Command :=
  match reading.outcome with
  | .command command => some command
  | _ => none

def fault? (reading : Reading) : Option LocatedFault :=
  match reading.outcome with
  | .fault fault => some ⟨reading.line, reading.text, fault⟩
  | _ => none

/-- The note that a line was passed over. -/
def skipNote (reading : Reading) : String :=
  "line " ++ toString reading.line ++ ": skipping unrecognized `" ++ reading.text ++ "`"

end Reading

/-- The readings of the lines of a source that say something, in order. -/
def readings (source : String) : List Reading :=
  ((Text.lines source.toList).zipIdx 1).filterMap fun numbered =>
    let content := Text.content numbered.1
    if content.isEmpty then none else some (.ofContent numbered.2 content)

/-- The commands of a source, or its first fault. -/
def commands (source : String) : Except LocatedFault (List Command) :=
  match (readings source).findSome? Reading.fault? with
  | some located => .error located
  | none => .ok ((readings source).filterMap Reading.command?)

end HackToolchain.Vm
