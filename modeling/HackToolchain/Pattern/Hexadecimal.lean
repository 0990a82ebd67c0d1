import HackToolchain.Pattern.Cursor
import HackToolchain.Pattern.Tree

/-!
# Characters by number

A character may be written as its code point in hexadecimal digits: a number
of them that the letter before them fixes, or any number of them in braces.
-/

namespace HackToolchain.Pattern

def isHexDigit (character : Char) : Bool :=
  character.isDigit || ('a' ≤ character && character ≤ 'f') ||
    ('A' ≤ character && character ≤ 'F')

def hexDigitValue (digit : Char) : Nat :=
  if digit.isDigit then digit.toNat - '0'.toNat else digit.toLower.toNat - 'a'.toNat + 10

def hexValue (digits : List Char) : Nat :=
  digits.foldl (fun value digit => 16 * value + hexDigitValue digit) 0

def scalar? (number : Nat) : Option Char :=
  if number.isValidChar then some (Char.ofNat number) else none

/-- The number of digits after a letter. -/
def fixedDigitCount (letter : Char) : Nat :=
  if letter = 'x' then 2 else if letter = 'u' then 4 else 8

def readFixedDigits : Nat → Cursor → Attempt (List Char × Cursor)
  | 0, cursor => .ok ([], cursor)
  | count + 1, cursor =>
      match cursor.next? with
      | none => faultAt cursor.point .incompleteEscape
      | some digit =>
          if isHexDigit digit then do
            let (digits, cursor) ← readFixedDigits count cursor.step
            return (digit :: digits, cursor)
          else faultAt cursor.character .invalidHexadecimalDigit

/-- The character with a number of digits that stands at a span. -/
def characterOfDigits (span : Span) (digits : List Char) : Attempt Char :=
  match scalar? (hexValue digits) with
  | none => faultAt span .invalidHexadecimal
  | some character => .ok character

/-- Read digits in braces; the cursor stands before the opening one. -/
def readBracedCharacter (cursor : Cursor) : Attempt (Literal × Cursor) :=
  let brace := cursor.position
  let (digits, cursor) := cursor.step.takeWhile isHexDigit Cursor.step
  match cursor.next? with
  | none => faultAt (cursor.since brace) .incompleteEscape
  | some '}' =>
      if digits.isEmpty then faultAt (cursor.step.since brace) .emptyHexadecimal
      else do
        let character ← characterOfDigits (cursor.since (brace.after '{')) digits
        return (⟨character, false⟩, cursor.step)
  | some _ => faultAt cursor.character .invalidHexadecimalDigit

/-- Read a character by number; the cursor stands before the letter that says so. -/
def readNumbered (letter : Char) (cursor : Cursor) : Attempt (Literal × Cursor) :=
  let cursor := cursor.step
  match cursor.next? with
  | some '{' => readBracedCharacter cursor
  | _ => do
      let (digits, last) ← readFixedDigits (fixedDigitCount letter) cursor
      let character ← characterOfDigits (last.since cursor.position) digits
      return (⟨character, letter = 'x'⟩, last)

end HackToolchain.Pattern
