import HackToolchain.Text.Control

/-!
# Log records

What happens during a run is recorded with a level that says how much it
matters and a target that says which part of the program noted it.
-/

namespace HackToolchain.Log

/-- How much a record matters. -/
inductive Level where
  | error
  | warn
  | info
  | debug
  | trace
  deriving DecidableEq, Repr

namespace Level

def name : Level → String
  | error => "ERROR"
  | warn => "WARN"
  | info => "INFO"
  | debug => "DEBUG"
  | trace => "TRACE"

/-- The position of a level; records with a higher one matter less. -/
def rank : Level → Nat
  | error => 1
  | warn => 2
  | info => 3
  | debug => 4
  | trace => 5

def all : List Level :=
  [error, warn, info, debug, trace]

end Level

/-- The parts of the program that keep records. -/
inductive Target where
  /-- The command line. -/
  | program
  /-- The compilation of files. -/
  | driver
  /-- The reading of sources. -/
  | reader
  deriving DecidableEq, Repr

def Target.name : Target → String
  | program => "hackvm"
  | driver => "hackvm::driver"
  | reader => "hackvm::parser"

/-- One record of the log. -/
structure Record where
  level : Level
  target : Target
  text : String
  deriving DecidableEq, Repr

/-- Indent all lines of a text but the first. -/
def indentRest (text : String) : String :=
  "\n    ".intercalate ((text.toList.splitOn '\n').map String.ofList)

/-- The line of a record: level, target and text; levels have the same width. -/
def Record.line (record : Record) : String :=
  let padding := String.ofList (List.replicate (5 - record.level.name.length) ' ')
  "[" ++ record.level.name ++ padding ++ " " ++ record.target.name ++ "] " ++
    indentRest record.text

/-- What is printed of a record: the visible part of its line with its line feed. -/
def Record.printed (record : Record) : String :=
  Text.visible (record.line ++ "\n")

end HackToolchain.Log
