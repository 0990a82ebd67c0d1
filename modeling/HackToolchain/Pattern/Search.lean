import HackToolchain.Pattern.Expression
import HackToolchain.Pattern.Reach

/-!
# Search for expressions

An expression is found in a text if some place is reached from another by
what the expression stands for.
-/

namespace HackToolchain.Pattern

/-- A character of words of ASCII. -/
def isWordCharacter (character : Char) : Bool :=
  character.isAlphanum || character = '_'

/-- Whether what is asked about words holds, given whether a word is before and behind. -/
def WordLook.holds (before behind : Bool) : WordLook → Bool
  | boundary => before != behind
  | notBoundary => before == behind
  | start => !before && behind
  | stop => before && !behind
  | startHalf => !before
  | endHalf => !behind

/-- Whether what is asked of a place holds, given the characters before and behind it. -/
def Look.holds (before? behind? : Option Char) : Look → Bool
  | textStart => before?.isNone
  | textEnd => behind?.isNone
  | lineStart false => before?.all (· = '\n')
  | lineEnd false => behind?.all (· = '\n')
  | lineStart true =>
      before?.all fun before => before = '\n' || (before = '\r' && behind? ≠ some '\n')
  | lineEnd true =>
      behind?.all fun behind => behind = '\r' || (behind = '\n' && before? ≠ some '\r')
  | word _ look => look.holds (before?.any isWordCharacter) (behind?.any isWordCharacter)

/-- Whether a character is in intervals. -/
def isWithin (intervals : List Interval) (character : Char) : Bool :=
  intervals.any fun interval => interval.contains character.toNat

/-- The place behind characters, if they stand at a place of a text. -/
def literalEnd? (text : Array Char) (place : Nat) : List Char → Option Nat
  | [] => some place
  | first :: rest =>
      if text[place]? = some first then literalEnd? text (place + 1) rest else none

namespace Expression

mutual

/-- Which places of a text are reached from which by an expression. -/
def reach (text : Array Char) : Expression → Reach
  | empty => .identity (text.size + 1)
  | literal characters => .ofSteps (text.size + 1) fun place => literalEnd? text place characters
  | set _ intervals =>
      .ofSteps (text.size + 1) fun place =>
        if text[place]?.any (isWithin intervals) then some (place + 1) else none
  | .look asked =>
      .stay (text.size + 1) fun place =>
        asked.holds (if place = 0 then none else text[place - 1]?) text[place]?
  | repetition counts _ body => (body.reach text).turns counts.least counts.greatest?
  | capture _ body => body.reach text
  | concatenation items => reachTogether text items
  | alternation branches => reachAmong text branches

/-- Which places are reached by expressions one after another. -/
def reachTogether (text : Array Char) : List Expression → Reach
  | [] => .identity (text.size + 1)
  | first :: rest => (first.reach text).compose (reachTogether text rest)

/-- Which places are reached by any of the expressions. -/
def reachAmong (text : Array Char) : List Expression → Reach
  | [] => .none (text.size + 1)
  | first :: rest => (first.reach text).union (reachAmong text rest)

end

/-- Whether an expression is found in a text. -/
def occursIn (expression : Expression) (text : String) : Bool :=
  (expression.reach text.toList.toArray).isPossible

end Expression

end HackToolchain.Pattern
