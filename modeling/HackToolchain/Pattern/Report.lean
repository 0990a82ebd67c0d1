import HackToolchain.Pattern.Fault
import HackToolchain.Text.Line

/-!
# Reports of faults

A report shows the lines of the pattern and marks under them where a fault is.
A pattern with line feeds is shown between rules, with numbers before its
lines; places that go over several lines are then told in words.
-/

namespace HackToolchain.Pattern.Report

/-- The rows of a pattern: its lines without the returns at their ends. -/
def rows (pattern : List Char) : List (List Char) :=
  match (Text.lines pattern).reverse with
  | [] :: before => (before.map withoutReturn).reverse
  | last :: before => ((last :: before.map withoutReturn)).reverse
  | [] => []
where
  /-- A line that ended with a line feed, without a return before it. -/
  withoutReturn (line : List Char) : List Char :=
    if line.getLast? = some '\r' then line.dropLast else line

/-- Whether a pattern is shown with rules and numbers. -/
def isFramed (pattern : List Char) : Bool :=
  pattern.contains '\n'

def numberWidth (pattern : List Char) : Nat :=
  (toString ((rows pattern).length + if pattern.getLast? = some '\n' then 1 else 0)).length

def blanks (count : Nat) : String :=
  String.ofList (List.replicate count ' ')

/-- What stands before the row with a number. -/
def margin (pattern : List Char) (number : Nat) : String :=
  if isFramed pattern then
    let numeral := toString number
    blanks (numberWidth pattern - numeral.length) ++ numeral ++ ": "
  else blanks 4

/-- The marks for spans of one row, from a number of columns on. -/
def marks : Nat → List Span → String
  | _, [] => ""
  | reached, span :: rest =>
      let gap := span.start.column - 1 - reached
      blanks gap ++ String.ofList (List.replicate span.width '^') ++
        marks (reached + gap + span.width) rest

/-- A row with its number, and the marks under it. -/
def markedRow (pattern : List Char) (spans : List Span) (row : List Char × Nat) : String :=
  let number := row.2 + 1
  let own := spans.filter fun span => span.isOneLine && span.start.line = number
  let margin := margin pattern number
  margin ++ String.ofList row.1 ++ "\n" ++
    if own.isEmpty then "" else blanks margin.length ++ marks 0 own ++ "\n"

/-- The rule above and below the rows of a pattern with line feeds. -/
def rule : String := String.ofList (List.replicate 79 '~') ++ "\n"

/-- What is said about a span over several lines. -/
def reach (span : Span) : String :=
  "on line " ++ toString span.start.line ++ " (column " ++ toString span.start.column ++
    ") through line " ++ toString span.stop.line ++ " (column " ++
    toString (span.stop.column - 1) ++ ")\n"

end Report

/-- The report of a located fault of a pattern. -/
def LocatedFault.report (located : LocatedFault) (pattern : List Char) : String :=
  let spans := located.spans
  let shown := String.join ((Report.rows pattern).zipIdx.map (Report.markedRow pattern spans))
  let reaches := String.join ((spans.filter fun span => !span.isOneLine).map Report.reach)
  "regex parse error:\n" ++
    (if Report.isFramed pattern then Report.rule ++ shown ++ Report.rule ++ reaches else shown) ++
    "error: " ++ located.fault.message

end HackToolchain.Pattern
