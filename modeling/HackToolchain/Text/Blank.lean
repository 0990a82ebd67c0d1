/-!
# Blank characters

Two classes of blanks matter to line-oriented text.  The wide class is the
Unicode property `White_Space`; it decides what is trimmed from a line and
where a word ends.  The narrow class holds the four separators that may stand
between two words of a line.
-/

namespace HackToolchain.Text

/-- The inclusive code point ranges of the Unicode property `White_Space`. -/
def blankRanges : List (Nat × Nat) :=
  [(0x9, 0xD), (0x20, 0x20), (0x85, 0x85), (0xA0, 0xA0), (0x1680, 0x1680),
   (0x2000, 0x200A), (0x2028, 0x2029), (0x202F, 0x202F), (0x205F, 0x205F),
   (0x3000, 0x3000)]

/-- A character of the Unicode property `White_Space`. -/
def isBlank (character : Char) : Bool :=
  blankRanges.any fun range => range.1 ≤ character.toNat && character.toNat ≤ range.2

/-- The blanks that may separate two words: space, tab and the two line enders. -/
def isSeparator (character : Char) : Bool :=
  character == ' ' || character == '\t' || character == '\r' || character == '\n'

theorem isBlank_of_isSeparator {character : Char} (separator : isSeparator character) :
    isBlank character := by
  simp only [isSeparator, Bool.or_eq_true, beq_iff_eq] at separator
  rcases separator with ((rfl | rfl) | rfl) | rfl <;> decide

/-- A text without the blanks at its start. -/
def trimStart (text : List Char) : List Char :=
  text.dropWhile isBlank

/-- A text without the blanks at its end. -/
def trimEnd (text : List Char) : List Char :=
  (text.reverse.dropWhile isBlank).reverse

def trim (text : List Char) : List Char :=
  trimEnd (trimStart text)

@[simp] theorem trim_nil : trim [] = [] := rfl

theorem trimStart_of_not_isBlank {first : Char} {rest : List Char}
    (visible : isBlank first = false) : trimStart (first :: rest) = first :: rest := by
  simp [trimStart, List.dropWhile, visible]

end HackToolchain.Text
