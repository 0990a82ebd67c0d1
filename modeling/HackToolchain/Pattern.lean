import HackToolchain.Pattern.Meaning
import HackToolchain.Pattern.Nesting
import HackToolchain.Pattern.Program.Search
import HackToolchain.Pattern.Reader
import HackToolchain.Pattern.Report
import HackToolchain.Pattern.Search

/-!
# Patterns

A pattern is a regular expression as it is written.  It is refused if it is
written wrongly, if it nests too deeply, if it asks for what is not at hand, or
if the programs that search for it would be too large.

The modules on patterns serve log filters only.  Like those they are part of
the outer layer of the program, and no theorem about translation or about files
rests on them.
-/

namespace HackToolchain

/-- A pattern that can be searched for. -/
structure Pattern where
  expression : Pattern.Expression

namespace Pattern

/-- Why a pattern is refused. -/
inductive Rejection where
  | faulty (located : LocatedFault)
  | tooLarge
  /-- It asks about words of all scripts. -/
  | wordsUnavailable
  deriving DecidableEq, Repr

def Rejection.message (pattern : String) : Rejection → String
  | faulty located => located.report pattern.toList
  | tooLarge =>
      "Compiled regex exceeds size limit of " ++ toString Program.limit ++ " bytes."
  | wordsUnavailable => "error building NFA"

/-- The expression that a pattern means. -/
def meaningOf (pattern : String) : Attempt Expression := do
  let tree ← Tree.ofPattern pattern.toList
  tree.checkNesting
  let (expression, _) ← tree.meaning .initial
  return expression

def ofText (text : String) : Except Rejection Pattern :=
  match meaningOf text with
  | .error located => .error (.faulty located)
  | .ok expression =>
      if !expression.fits .forward then .error .tooLarge
      else if expression.asksForWords then .error .wordsUnavailable
      else if !expression.fits .backward then .error .tooLarge
      else .ok ⟨expression⟩

def occursIn (pattern : Pattern) (text : String) : Bool :=
  pattern.expression.occursIn text

end Pattern

end HackToolchain
