/-!
# Control sequences

Text that goes to a terminal may hold sequences which start with an escape
character and are not shown.  What is visible of a text is what is left once
those sequences and the other control characters are gone; the line breaks and
tabs among them stay.

Only what is printed of a log goes through here.  It is part of the outer layer
of the program, and no theorem rests on it.
-/

namespace HackToolchain.Text

/-- Where in a control sequence a text stands. -/
inductive Control where
  /-- In no sequence. -/
  | ground
  /-- After the escape character. -/
  | escape
  /-- In an escape sequence that has begun with a mark. -/
  | marked
  /-- In a sequence that ends with a letter. -/
  | command
  /-- At the start of a device string. -/
  | deviceEntry
  /-- In the numbers of a device string. -/
  | deviceNumber
  /-- In the marks of a device string. -/
  | deviceMark
  /-- In the content of a device string, or in a string without a meaning. -/
  | content
  /-- In a system command, such as a window title. -/
  | title
  deriving DecidableEq, Repr

namespace Control

/-- A control character that only moves to another column or line. -/
def isLayout (character : Char) : Bool :=
  character == '\t' || character == '\n' || character == '\x0c' || character == '\r'

/-- A character from another one on to a last one. -/
def isBetween (first last character : Char) : Bool :=
  first ≤ character && character ≤ last

/-- A character whose encoding has the byte that ends strings of content. -/
def endsContent (character : Char) : Bool :=
  (String.utf8EncodeChar character).contains 0x9C

/-- The place after a character of a sequence that is neither cut short nor begun anew. -/
def within (state : Control) (character : Char) : Control :=
  match state with
  | ground => ground
  | escape =>
      if isBetween ' ' '/' character then marked
      else if character = '[' then command
      else if character = ']' then title
      else if character = 'P' then deviceEntry
      else if character = 'X' ∨ character = '^' ∨ character = '_' then content
      else if isBetween '0' '~' character then ground
      else escape
  | marked => if isBetween '0' '~' character then ground else marked
  | command => if isBetween '@' '~' character then ground else command
  | deviceEntry =>
      if isBetween ' ' '/' character then deviceMark
      else if isBetween '0' '?' character then deviceNumber
      else if isBetween '@' '~' character then content
      else deviceEntry
  | deviceNumber =>
      if isBetween ' ' '/' character then deviceMark
      else if isBetween '<' '~' character then content
      else deviceNumber
  | deviceMark => if isBetween '0' '~' character then content else deviceMark
  | content => if endsContent character then ground else content
  | title => if character = '\x07' then ground else title

/-- The place after a character; two characters cut every sequence short, one begins another. -/
def next (state : Control) (character : Char) : Control :=
  if character = '\x18' ∨ character = '\x1a' then ground
  else if character = '\x1b' then escape
  else state.within character

/-- Whether a character is shown. -/
def shows : Control → Char → Bool
  | ground, character => isLayout character || (' ' ≤ character && character ≠ '\x7f')
  | escape, character | marked, character | command, character => isLayout character
  | _, _ => false

end Control

/--
What is visible of the rest of a text.  After a character that is shown, those
that follow are shown as well up to the next control character, which goes on
with the sequence that was left; a character beyond ASCII ends that sequence.
-/
def visibleFrom : Control → Bool → List Char → List Char
  | _, _, [] => []
  | state, shown, first :: rest =>
      if (if shown then Control.ground else state).shows first then
        first :: visibleFrom (if first.toNat < 0x80 then state else .ground) true rest
      else visibleFrom (state.next first) false rest

/-- What is visible of a text. -/
def visible (text : String) : String :=
  String.ofList (visibleFrom .ground false text.toList)

end HackToolchain.Text
