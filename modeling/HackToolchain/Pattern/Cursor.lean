import HackToolchain.Pattern.Fault
import HackToolchain.Text.Blank

/-!
# Cursors

A cursor stands in a pattern and has the rest of it ahead.  When blanks are
ignored, a step leaves out the blanks and comments after the character that it
goes over.
-/

namespace HackToolchain.Pattern

/-- A place in a pattern and what is known there. -/
structure Cursor where
  rest : List Char
  position : Position
  /-- Whether blanks and comments are left out. -/
  ignoresBlanks : Bool
  /-- The number of groups that are numbered so far. -/
  captures : Nat
  /-- The names of groups so far, with their places. -/
  names : List (List Char × Span)
  deriving Repr

namespace Cursor

/-- The start of a pattern. -/
def start (pattern : List Char) : Cursor := ⟨pattern, .first, false, 0, []⟩

def isAtEnd (cursor : Cursor) : Bool := cursor.rest.isEmpty

def next? (cursor : Cursor) : Option Char := cursor.rest.head?

def advance (cursor : Cursor) : Cursor :=
  match cursor.rest with
  | [] => cursor
  | first :: rest => { cursor with rest, position := cursor.position.after first }

def advanceBy : Nat → Cursor → Cursor
  | 0, cursor => cursor
  | count + 1, cursor => advanceBy count cursor.advance

/-- The span without characters at a cursor. -/
def point (cursor : Cursor) : Span := .point cursor.position

def character (cursor : Cursor) : Span := ⟨cursor.position, cursor.advance.position⟩

/-- The span from a place up to a cursor. -/
def since (cursor : Cursor) (start : Position) : Span := ⟨start, cursor.position⟩

/-- Go over the blanks and comments ahead; a comment goes on to the end of its line. -/
def skipFrom : Bool → List Char → Position → List Char × Position
  | _, [], position => ([], position)
  | true, first :: rest, position => skipFrom (first ≠ '\n') rest (position.after first)
  | false, first :: rest, position =>
      if first = '#' then skipFrom true rest (position.after first)
      else if Text.isBlank first then skipFrom false rest (position.after first)
      else (first :: rest, position)

/-- Go over the blanks and comments ahead, if they are left out. -/
def skipIgnored (cursor : Cursor) : Cursor :=
  if cursor.ignoresBlanks then
    let (rest, position) := skipFrom false cursor.rest cursor.position
    { cursor with rest, position }
  else cursor

/-- Go over one character and what is left out after it. -/
def step (cursor : Cursor) : Cursor :=
  match cursor.rest with
  | [] => cursor
  | _ :: _ => cursor.advance.skipIgnored

/--
The character that is taken to follow the next one.  When blanks are left out,
it is the first character that is neither a blank nor the first sign of a
comment; without one it is what follows at once.
-/
def following? (cursor : Cursor) : Option Char :=
  let ahead := cursor.rest.tail
  if cursor.ignoresBlanks then (visible false ahead).or ahead.head? else ahead.head?
where
  /-- The first visible character, in a comment or before one. -/
  visible : Bool → List Char → Option Char
    | _, [] => none
    | inComment, first :: rest =>
        if Text.isBlank first then visible inComment rest
        else if !inComment && first = '#' then visible true rest
        else some first

/-- The characters that are kept, with a way to move on after each, and the place behind them. -/
def takeWhile (keeps : Char → Bool) (move : Cursor → Cursor) (cursor : Cursor) :
    List Char × Cursor :=
  take cursor.rest.length cursor
where
  /-- At most a number of characters that are kept. -/
  take : Nat → Cursor → List Char × Cursor
    | 0, cursor => ([], cursor)
    | count + 1, cursor =>
        match cursor.rest with
        | [] => ([], cursor)
        | first :: _ =>
            if keeps first then
              let (others, last) := take count (move cursor)
              (first :: others, last)
            else ([], cursor)

def skip? (word : String) (cursor : Cursor) : Option Cursor :=
  if word.toList.isPrefixOf cursor.rest then some (advanceBy word.toList.length cursor) else none

end Cursor

end HackToolchain.Pattern
