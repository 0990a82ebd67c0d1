import HackToolchain.Pattern.CharacterSet

/-!
# Regular expressions

An expression says which texts it stands for, whatever way it was written.
-/

namespace HackToolchain.Pattern

/-- What may be asked of a place about the words around it. -/
inductive WordLook where
  | boundary
  | notBoundary
  | start
  | stop
  /-- No word goes on from before. -/
  | startHalf
  /-- No word goes on behind. -/
  | endHalf
  deriving DecidableEq, Repr

/-- What may be asked of a place in a text. -/
inductive Look where
  | textStart
  | textEnd
  /-- A line starts; lines end with line feeds, or also with returns. -/
  | lineStart (returns : Bool)
  /-- A line ends; lines end with line feeds, or also with returns. -/
  | lineEnd (returns : Bool)
  /-- Something about words, of all scripts or of ASCII. -/
  | word (unicode : Bool) (look : WordLook)
  deriving DecidableEq, Repr

/-- A regular expression. -/
inductive Expression where
  | empty
  | literal (characters : List Char)
  | set (alphabet : Alphabet) (intervals : List Interval)
  | look (look : Look)
  | repetition (counts : Counts) (greedy : Bool) (body : Expression)
  | capture (index : Nat) (body : Expression)
  | concatenation (items : List Expression)
  | alternation (branches : List Expression)

namespace Expression

def fail : Expression := set .bytes []

mutual

/-- Whether two expressions are built in the same way. -/
def isSame : Expression → Expression → Bool
  | empty, empty => true
  | literal characters, literal others => characters == others
  | set alphabet intervals, set other others => alphabet = other && intervals == others
  | look first, look second => first = second
  | repetition counts greedy body, repetition others greed other =>
      counts = others && greedy == greed && body.isSame other
  | capture index body, capture number other => index == number && body.isSame other
  | concatenation items, concatenation others => areSame items others
  | alternation branches, alternation others => areSame branches others
  | _, _ => false

def areSame : List Expression → List Expression → Bool
  | [], [] => true
  | first :: rest, other :: others => first.isSame other && areSame rest others
  | _, _ => false

end

mutual

def size : Expression → Nat
  | empty | literal _ | set _ _ | look _ => 1
  | repetition _ _ body | capture _ body => body.size + 1
  | concatenation parts | alternation parts => sizeAll parts + 1

def sizeAll : List Expression → Nat
  | [] => 0
  | first :: rest => first.size + sizeAll rest

end

end Expression

end HackToolchain.Pattern
