import HackToolchain.Pattern.Cursor
import HackToolchain.Pattern.Tree
import HackToolchain.Text.Decimal

/-!
# Repetitions

A repetition follows what is repeated.  It is a sign, or counts in braces; a
question mark behind it asks for as few repetitions as possible.
-/

namespace HackToolchain.Pattern

def greatestCount : Nat := UInt32.size - 1

/-- The counts that a sign stands for. -/
def countsOfSign? : Char → Option Counts
  | '?' => some ⟨0, some 1⟩
  | '*' => some ⟨0, none⟩
  | '+' => some ⟨1, none⟩
  | _ => none

/-- Whether the least count is not above the greatest. -/
def Counts.isValid (counts : Counts) : Bool :=
  counts.greatest?.all fun greatest => counts.least ≤ greatest

/-- Go over blanks, whether they are left out or not. -/
def Cursor.skipBlanks (move : Cursor → Cursor) (cursor : Cursor) : Cursor :=
  (cursor.takeWhile Text.isBlank move).2

/-- Read a count, and go over the blanks around it; whether it is one is for the caller to ask. -/
def readCount (cursor : Cursor) : Attempt Nat × Cursor :=
  let first := cursor.skipBlanks Cursor.advance
  let (digits, last) := first.takeWhile Char.isDigit Cursor.step
  let span := last.since first.position
  let count :=
    match Text.readNumeral? digits with
    | none => faultAt span .emptyCount
    | some number =>
        if number ≤ greatestCount then .ok number else faultAt span .invalidDecimal
  (count, last.skipBlanks Cursor.step)

/-- Read counts up to the brace that closes them; the cursor stands before the opening one. -/
def readCounts (cursor : Cursor) : Attempt (Counts × Cursor) := do
  let start := cursor.position
  let inside := cursor.step
  if inside.isAtEnd then faultAt (inside.since start) .unclosedCounts
  let (least, cursor) := readCount inside
  if cursor.isAtEnd then faultAt (cursor.since start) .unclosedCounts
  let (counts, cursor) ←
    if cursor.next? = some ',' then do
      let cursor := cursor.step
      if cursor.isAtEnd then faultAt (cursor.since start) .unclosedCounts
      if cursor.next? = some '}' then pure (Counts.mk (← least) none, cursor)
      else do
        let least ← least
        let (greatest, cursor) := readCount cursor
        pure (⟨least, some (← greatest)⟩, cursor)
    else do
      let count ← least
      pure (⟨count, some count⟩, cursor)
  if cursor.next? = some '}' then return (counts, cursor)
  else faultAt (cursor.since start) .unclosedCounts

/-- Read whether as few repetitions as possible are asked for. -/
def readGreed (cursor : Cursor) : Bool × Cursor :=
  if cursor.next? = some '?' then (false, cursor.advance) else (true, cursor)

/-- What is repeated, with how often, up to a cursor. -/
def Tree.repeated (body : Tree) (counts : Counts) (greedy : Bool) (cursor : Cursor) : Tree :=
  .repetition ⟨body.span.start, cursor.position⟩ counts greedy body

/-- Read a repetition in braces of a body; the cursor stands before the opening brace. -/
def readBracedRepetition (body : Tree) (cursor : Cursor) : Attempt (Tree × Cursor) := do
  let start := cursor.position
  let (counts, brace) ← readCounts cursor
  let (greedy, cursor) := readGreed brace.step
  if counts.isValid then return (body.repeated counts greedy cursor, cursor)
  else faultAt (cursor.since start) .invalidCounts

/-- Read a repetition of a body with a sign; the cursor stands before the sign. -/
def readSignedRepetition (body : Tree) (counts : Counts) (cursor : Cursor) : Tree × Cursor :=
  let (greedy, cursor) := readGreed cursor.advance
  (body.repeated counts greedy cursor, cursor)

end HackToolchain.Pattern
