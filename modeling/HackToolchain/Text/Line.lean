import HackToolchain.Text.Blank

/-!
# Lines, comments and words

A text is a sequence of lines.  What a line says is the part before its first
`//`, without blanks at either end.  The words of a line are the runs of
visible characters between separators; a blank that is not a separator ends
the part of the line that is read.
-/

namespace HackToolchain.Text

/-- The lines of a text, without their line feeds. -/
def lines (text : List Char) : List (List Char) :=
  text.splitOn '\n'

/-- The part of a line before its first `//`. -/
def beforeComment : List Char → List Char
  | [] => []
  | '/' :: '/' :: _ => []
  | first :: rest => first :: beforeComment rest

/-- What a line says once its comment and its outer blanks are gone. -/
def content (line : List Char) : List Char :=
  trim (beforeComment line)

/-- The contents of the lines of a text that say something, in order. -/
def contents (text : List Char) : List (List Char) :=
  ((lines text).map content).filter fun line => !line.isEmpty

/-- The part of a line that is read: up to the first blank that is no separator. -/
def reach (line : List Char) : List Char :=
  line.takeWhile fun character => !isBlank character || isSeparator character

/-- The words of a line, in order. -/
def words (line : List Char) : List (List Char) :=
  ((reach line).splitOnP isSeparator).filter fun word => !word.isEmpty

@[simp] theorem words_nil : words [] = [] := rfl

/-- A line that starts with a comment says nothing. -/
@[simp] theorem content_comment (rest : List Char) : content ('/' :: '/' :: rest) = [] := rfl

end HackToolchain.Text
