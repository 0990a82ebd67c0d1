/-!
# Positions in a pattern

A position counts the characters before it, and it names its line and the
column there; both start at one.  A span reaches from one position up to
another.
-/

namespace HackToolchain.Pattern

/-- A place between two characters of a pattern. -/
structure Position where
  /-- The number of characters before. -/
  offset : Nat
  /-- The line, counted from one. -/
  line : Nat
  /-- The column, counted from one. -/
  column : Nat
  deriving DecidableEq, Repr

namespace Position

def first : Position := ⟨0, 1, 1⟩

/-- The place after a character that stands here. -/
def after (position : Position) (character : Char) : Position :=
  if character = '\n' then ⟨position.offset + 1, position.line + 1, 1⟩
  else ⟨position.offset + 1, position.line, position.column + 1⟩

@[simp] theorem offset_after (position : Position) (character : Char) :
    (position.after character).offset = position.offset + 1 := by
  unfold after
  split <;> rfl

end Position

/-- A part of a pattern. -/
structure Span where
  start : Position
  stop : Position
  deriving DecidableEq, Repr

namespace Span

/-- The span without characters at a place. -/
def point (position : Position) : Span := ⟨position, position⟩

/-- A span that starts where one does and stops where another does. -/
def through (first last : Span) : Span := ⟨first.start, last.stop⟩

def isOneLine (span : Span) : Bool :=
  span.start.line = span.stop.line

/-- The columns that are marked for a span on one line: at least one. -/
def width (span : Span) : Nat :=
  max 1 (span.stop.column - span.start.column)

/-- Whether a span comes before another: it starts earlier, or stops earlier. -/
def isBefore (span other : Span) : Bool :=
  span.start.offset < other.start.offset ||
    (span.start.offset = other.start.offset && span.stop.offset < other.stop.offset)

end Span

end HackToolchain.Pattern
