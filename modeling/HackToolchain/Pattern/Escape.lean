import HackToolchain.Pattern.Hexadecimal

/-!
# Escapes

After a backslash a sign of the notation stands for itself, and a letter
stands for a control character, a class of characters, a property, a character
by number, or an assertion.
-/

namespace HackToolchain.Pattern

def controlOfLetter? : Char → Option Char
  | 'a' => some '\x07'
  | 'f' => some '\x0c'
  | 'n' => some '\n'
  | 'r' => some '\r'
  | 't' => some '\t'
  | 'v' => some '\x0b'
  | _ => none

def shorthandOfLetter? : Char → Option Member
  | 'd' => some (.shorthand .digit false)
  | 'D' => some (.shorthand .digit true)
  | 's' => some (.shorthand .space false)
  | 'S' => some (.shorthand .space true)
  | 'w' => some (.shorthand .word false)
  | 'W' => some (.shorthand .word true)
  | _ => none

def assertionOfLetter? : Char → Option Assertion
  | 'A' => some .textStart
  | 'z' => some .textEnd
  | 'b' => some .wordBoundary
  | 'B' => some .notWordBoundary
  | '<' => some .wordStart
  | '>' => some .wordEnd
  | _ => none

/-- The assertion about words with a name. -/
def wordAssertionOfName? (name : List Char) : Option Assertion :=
  [("start", Assertion.wordStart), ("end", .wordEnd), ("start-half", .wordStartHalf),
    ("end-half", .wordEndHalf)].lookup (String.ofList name)

/-- A sign that stands for itself after a backslash: all of ASCII but letters, digits and angles. -/
def isEscapable (character : Char) : Bool :=
  character.toNat < 0x80 && !character.isAlphanum && character ≠ '<' && character ≠ '>'

/-- The name and the value in the braces of a property. -/
def splitProperty (text : List Char) : Property :=
  match unequal text, text.span (· ≠ ':'), text.span (· ≠ '=') with
  | some property, _, _ => property
  | none, (name, _ :: value), _ => ⟨name, some value⟩
  | none, _, (name, _ :: value) => ⟨name, some value⟩
  | none, _, _ => ⟨text, none⟩
where
  /-- The parts before and after the first sign for unequal values. -/
  unequal : List Char → Option Property
    | [] => none
    | '!' :: '=' :: value => some ⟨[], some value⟩
    | first :: rest =>
        (unequal rest).map fun property => { property with name := first :: property.name }

/-- Read a property; the cursor stands before the letter that says so. -/
def readProperty (cursor : Cursor) : Attempt (Property × Cursor) :=
  let cursor := cursor.step
  match cursor.next? with
  | none => faultAt cursor.point .incompleteEscape
  | some '{' =>
      let (text, cursor) := cursor.step.takeWhile (· ≠ '}') Cursor.step
      if cursor.isAtEnd then faultAt cursor.point .incompleteEscape
      else .ok (splitProperty text, cursor.advance)
  | some '\\' => faultAt cursor.character .invalidProperty
  | some letter => .ok (⟨[letter], none⟩, cursor.step)

/-- A character of the name of an assertion about words. -/
def isWordAssertionCharacter (character : Char) : Bool :=
  character.isAlpha || character = '-'

/--
Read the name in braces that makes an assertion of a word boundary whose
backslash is at a place.  The cursor stands before the opening brace; when the
braces can hold no name, it stays there and the boundary is an ordinary one.
-/
def readWordAssertion (start : Position) (cursor : Cursor) : Attempt (Assertion × Cursor) :=
  let inside := cursor.step
  match inside.next? with
  | none => faultAt (inside.since start) .unfinishedWordAssertion
  | some first =>
      if isWordAssertionCharacter first then
        let (name, last) := inside.takeWhile isWordAssertionCharacter Cursor.step
        if last.next? = some '}' then
          match wordAssertionOfName? name with
          | some assertion => .ok (assertion, last.advance)
          | none => faultAt (last.since inside.position) .unrecognizedWordAssertion
        else faultAt (last.since cursor.position) .unclosedWordAssertion
      else .ok (.wordBoundary, cursor)

/-- Read what a letter after a backslash stands for; the cursor is behind the letter. -/
def readLetter (start : Position) (letter : Char) (cursor : Cursor) : Attempt (Atom × Cursor) :=
  match controlOfLetter? letter, assertionOfLetter? letter with
  | some control, _ => .ok (.member (.literal ⟨control, false⟩), cursor)
  | none, some assertion =>
      if assertion = .wordBoundary ∧ cursor.next? = some '{' then do
        let (assertion, cursor) ← readWordAssertion start cursor
        return (.assertion assertion, cursor)
      else .ok (.assertion assertion, cursor)
  | none, none => faultAt (cursor.since start) .unrecognizedEscape

/-- Read an escape; the cursor stands before its backslash. -/
def readEscape (cursor : Cursor) : Attempt (Atom × Cursor) :=
  let start := cursor.position
  let cursor := cursor.advance
  match cursor.next? with
  | none => faultAt (cursor.since start) .incompleteEscape
  | some letter =>
      if letter.isDigit then faultAt (cursor.advance.since start) .backreference
      else if letter = 'x' ∨ letter = 'u' ∨ letter = 'U' then do
        let (literal, cursor) ← readNumbered letter cursor
        return (.member (.literal literal), cursor)
      else if letter = 'p' ∨ letter = 'P' then do
        let (property, cursor) ← readProperty cursor
        return (.member (.property property (letter = 'P')), cursor)
      else
        match shorthandOfLetter? letter with
        | some shorthand => .ok (.member shorthand, cursor.advance)
        | none =>
            if isEscapable letter then
              .ok (.member (.literal ⟨letter, false⟩), cursor.advance)
            else readLetter start letter cursor.advance

end HackToolchain.Pattern
