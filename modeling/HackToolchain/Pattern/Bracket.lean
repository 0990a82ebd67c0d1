import HackToolchain.Pattern.Escape

/-!
# Bracketed classes

A bracketed class holds characters, ranges, named sets, shorthands and further
bracketed classes, and between those it may have operations on sets, which
take everything to their left at once.  Classes that are open are kept on a
stack.
-/

namespace HackToolchain.Pattern

/-- The items of a class between two operations. -/
structure ClassItems where
  span : Span
  items : Array ClassTree

namespace ClassItems

def emptyAt (position : Position) : ClassItems := ⟨.point position, #[]⟩

/-- Add an item; the first one says where the items start. -/
def push (items : ClassItems) (item : ClassTree) : ClassItems :=
  let start := if items.items.isEmpty then item.span.start else items.span.start
  ⟨⟨start, item.span.stop⟩, items.items.push item⟩

/-- The items as one; a single item stands for itself. -/
def toTree (items : ClassItems) : ClassTree :=
  match items.items.toList with
  | [] => .empty items.span
  | [item] => item
  | all => .union items.span all

end ClassItems

/-- A class that is open. -/
structure OpenClass where
  span : Span
  negated : Bool
  /-- The operation that waits for its right side. -/
  waiting? : Option (ClassTree × SetOperator)
  items : ClassItems

namespace OpenClass

def push (level : OpenClass) (item : ClassTree) : OpenClass :=
  { level with items := level.items.push item }

/-- All that the class holds so far. -/
def content (level : OpenClass) : ClassTree :=
  let right := level.items.toTree
  match level.waiting? with
  | none => right
  | some (left, operator) => .operation (left.span.through right.span) operator left right

/-- Begin the right side of an operation at a place. -/
def operate (level : OpenClass) (operator : SetOperator) (position : Position) : OpenClass :=
  { level with waiting? := some (level.content, operator), items := .emptyAt position }

def close (level : OpenClass) (position : Position) : ClassTree :=
  .bracketed ⟨level.span.start, position⟩ level.negated level.content

end OpenClass

/-- The tree of the next character as it stands there. -/
def plainMember (cursor : Cursor) (character : Char) : ClassTree :=
  .member cursor.character (.literal ⟨character, false⟩)

/-- Go over the hyphens at the start of a class, which stand for themselves. -/
def readHyphens (start : Position) : Nat → ClassItems → Cursor → Attempt (ClassItems × Cursor)
  | 0, items, cursor => .ok (items, cursor)
  | count + 1, items, cursor =>
      if cursor.next? = some '-' then
        let items := items.push (plainMember cursor '-')
        if cursor.step.isAtEnd then faultAt (.point start) .unclosedClass
        else readHyphens start count items cursor.step
      else .ok (items, cursor)

/-- Open a class; the cursor stands before its bracket. -/
def openClass (cursor : Cursor) : Attempt (OpenClass × Cursor) := do
  let start := cursor.position
  let cursor := cursor.step
  if cursor.isAtEnd then faultAt (cursor.since start) .unclosedClass
  let negated := decide (cursor.next? = some '^')
  let cursor := if negated then cursor.step else cursor
  if cursor.isAtEnd then faultAt (cursor.since start) .unclosedClass
  let (items, cursor) ←
    readHyphens start cursor.rest.length (.emptyAt cursor.position) cursor
  if items.items.isEmpty ∧ cursor.next? = some ']' then
    let items := items.push (plainMember cursor ']')
    let cursor := cursor.step
    if cursor.isAtEnd then faultAt (cursor.since start) .unclosedClass
    return (⟨cursor.since start, negated, none, items⟩, cursor)
  else return (⟨cursor.since start, negated, none, items⟩, cursor)

/-- Read a named set in a class; the cursor stands before its bracket. -/
def readNamedSet? (cursor : Cursor) : Option (ClassTree × Cursor) := do
  let inside ← cursor.skip? "[:"
  let negated := decide (inside.next? = some '^')
  let inside := if negated then inside.advance else inside
  let (name, last) := inside.takeWhile (· ≠ ':') Cursor.advance
  let set ← NamedSet.ofName? name
  let behind ← last.skip? ":]"
  return (.named (behind.since cursor.position) set negated, behind)

/-- Read a character or an escape in a class. -/
def readClassAtom (character : Char) (cursor : Cursor) : Attempt (Span × Atom × Cursor) :=
  if character = '\\' then do
    let (atom, last) ← readEscape cursor
    return (last.since cursor.position, atom, last)
  else .ok (cursor.character, .member (.literal ⟨character, false⟩), cursor.advance)

/-- What an escape is as an item of a class. -/
def classMember (span : Span) : Atom → Attempt ClassTree
  | .member member => .ok (.member span member)
  | _ => faultAt span .invalidClassEscape

/-- What an escape is as the end of a range. -/
def rangeBoundary (span : Span) : Atom → Attempt Literal
  | .member (.literal literal) => .ok literal
  | _ => faultAt span .classRangeBoundary

/-- Read an item that starts with a character, perhaps a range, in a class with a bracket. -/
def readClassItem (bracket : Span) (character : Char) (cursor : Cursor) :
    Attempt (ClassTree × Cursor) := do
  let (firstSpan, firstAtom, cursor) ← readClassAtom character cursor
  let cursor := cursor.skipIgnored
  if cursor.isAtEnd then faultAt bracket .unclosedClass
  let following := cursor.following?
  if cursor.next? ≠ some '-' ∨ following = some ']' ∨ following = some '-' then
    return (← classMember firstSpan firstAtom, cursor)
  else
    let cursor := cursor.step
    match cursor.next? with
    | none => faultAt bracket .unclosedClass
    | some character =>
        let (lastSpan, lastAtom, cursor) ← readClassAtom character cursor
        let first ← rangeBoundary firstSpan firstAtom
        let last ← rangeBoundary lastSpan lastAtom
        let span := firstSpan.through lastSpan
        if last.character < first.character then faultAt span .invalidClassRange
        else return (.range span (firstSpan, first) (lastSpan, last), cursor)

/-- The operation that stands ahead, and the place behind it. -/
def readOperator? (cursor : Cursor) : Option (SetOperator × Cursor) :=
  ((cursor.skip? "&&").map (SetOperator.intersection, ·)).or
    (((cursor.skip? "--").map (SetOperator.difference, ·)).or
      ((cursor.skip? "~~").map (SetOperator.symmetricDifference, ·)))

/-- Read the rest of a class that is open within others. -/
def readClass : Nat → List OpenClass → OpenClass → Cursor → Attempt (ClassTree × Cursor)
  | 0, _, level, _ => faultAt level.span .unclosedClass
  | fuel + 1, outer, level, cursor => do
      let cursor := cursor.skipIgnored
      match cursor.next? with
      | none => faultAt level.span .unclosedClass
      | some '[' =>
          match readNamedSet? cursor with
          | some (set, cursor) => readClass fuel outer (level.push set) cursor
          | none =>
              let (inner, cursor) ← openClass cursor
              readClass fuel (level :: outer) inner cursor
      | some ']' =>
          let cursor := cursor.advance
          let closed := level.close cursor.position
          match outer with
          | [] => return (closed, cursor)
          | next :: rest => readClass fuel rest (next.push closed) cursor
      | some character =>
          match readOperator? cursor with
          | some (operator, cursor) =>
              readClass fuel outer (level.operate operator cursor.position) cursor
          | none =>
              let (item, cursor) ← readClassItem level.span character cursor
              readClass fuel outer (level.push item) cursor

/-- Read a bracketed class; the cursor stands before its bracket. -/
def readBracketed (cursor : Cursor) : Attempt (ClassTree × Cursor) := do
  let (level, inside) ← openClass cursor
  readClass (cursor.rest.length + 1) [] level inside

end HackToolchain.Pattern
