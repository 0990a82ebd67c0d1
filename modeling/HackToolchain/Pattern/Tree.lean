import HackToolchain.Pattern.Position

/-!
# Trees of patterns

A tree holds a pattern as it is written: its parts with their places, before
anything is said about what the parts mean.  Bracketed classes have trees of
their own, which are built from members, ranges and operations on sets.
-/

namespace HackToolchain.Pattern

/-- A character of a pattern. -/
structure Literal where
  character : Char
  /-- Whether it was written as two hexadecimal digits, which may stand for a byte. -/
  isByte : Bool
  deriving DecidableEq, Repr

/-- The sets of characters with a name. -/
inductive NamedSet where
  | alnum
  | alpha
  | ascii
  | blank
  | cntrl
  | digit
  | graph
  | lower
  | print
  | punct
  | space
  | upper
  | word
  | xdigit
  deriving DecidableEq, Repr

namespace NamedSet

def name : NamedSet → String
  | alnum => "alnum"
  | alpha => "alpha"
  | ascii => "ascii"
  | blank => "blank"
  | cntrl => "cntrl"
  | digit => "digit"
  | graph => "graph"
  | lower => "lower"
  | print => "print"
  | punct => "punct"
  | space => "space"
  | upper => "upper"
  | word => "word"
  | xdigit => "xdigit"

def all : List NamedSet :=
  [alnum, alpha, ascii, blank, cntrl, digit, graph, lower, print, punct, space, upper, word,
   xdigit]

def ofName? (name : List Char) : Option NamedSet :=
  all.find? fun set => set.name.toList == name

end NamedSet

/-- A property of characters, as it is asked for. -/
structure Property where
  name : List Char
  /-- The value that the property must have, or must not have. -/
  value? : Option (List Char)
  deriving DecidableEq, Repr

/-- What may stand for characters both in a bracketed class and outside. -/
inductive Member where
  | literal (literal : Literal)
  /-- A class with a letter of its own. -/
  | shorthand (set : NamedSet) (negated : Bool)
  | property (property : Property) (negated : Bool)
  deriving DecidableEq, Repr

/-- What may be asked of the place between two characters. -/
inductive Assertion where
  | lineStart
  | lineEnd
  | textStart
  | textEnd
  | wordBoundary
  | notWordBoundary
  | wordStart
  | wordEnd
  | wordStartHalf
  | wordEndHalf
  deriving DecidableEq, Repr

/-- The smallest parts of patterns. -/
inductive Atom where
  | member (member : Member)
  | assertion (assertion : Assertion)
  | dot
  deriving DecidableEq, Repr

/-- The options of a pattern that a group may switch. -/
inductive Flag where
  | caseInsensitive
  | multiLine
  | dotMatchesLineFeed
  | swapGreed
  | unicode
  | returnsEndLines
  | ignoreBlanks
  deriving DecidableEq, Repr

namespace Flag

def letter : Flag → Char
  | caseInsensitive => 'i'
  | multiLine => 'm'
  | dotMatchesLineFeed => 's'
  | swapGreed => 'U'
  | unicode => 'u'
  | returnsEndLines => 'R'
  | ignoreBlanks => 'x'

def all : List Flag :=
  [caseInsensitive, multiLine, dotMatchesLineFeed, swapGreed, unicode, returnsEndLines,
   ignoreBlanks]

def ofLetter? (letter : Char) : Option Flag :=
  all.find? fun flag => flag.letter == letter

end Flag

/-- An option and whether it is switched on. -/
structure Setting where
  flag : Flag
  value : Bool
  deriving DecidableEq, Repr

/-- What settings say about an option. -/
def Setting.valueOf? (flag : Flag) (settings : List Setting) : Option Bool :=
  (settings.find? fun setting => setting.flag = flag).map Setting.value

/-- The operations on sets in a bracketed class. -/
inductive SetOperator where
  | intersection
  | difference
  | symmetricDifference
  deriving DecidableEq, Repr

/-- What stands in a bracketed class. -/
inductive ClassTree where
  | empty (span : Span)
  | member (span : Span) (member : Member)
  | range (span : Span) (first last : Span × Literal)
  | named (span : Span) (set : NamedSet) (negated : Bool)
  | bracketed (span : Span) (negated : Bool) (content : ClassTree)
  | union (span : Span) (items : List ClassTree)
  | operation (span : Span) (operator : SetOperator) (left right : ClassTree)

def ClassTree.span : ClassTree → Span
  | empty span
  | member span _
  | range span _ _
  | named span _ _
  | bracketed span _ _
  | union span _
  | operation span _ _ _ => span

/-- How often something is repeated. -/
structure Counts where
  least : Nat
  /-- The greatest count; none stands for any number. -/
  greatest? : Option Nat
  deriving DecidableEq, Repr

/-- What a group does besides holding its content together. -/
inductive GroupKind where
  /-- It is numbered. -/
  | capture (index : Nat)
  /-- It switches options for its content. -/
  | settings (settings : List Setting)
  deriving DecidableEq, Repr

/-- A pattern as it is written. -/
inductive Tree where
  | empty (span : Span)
  /-- Options that are switched for the rest of the group. -/
  | settings (span : Span) (settings : List Setting)
  | atom (span : Span) (atom : Atom)
  | bracketed (content : ClassTree)
  | repetition (span : Span) (counts : Counts) (greedy : Bool) (body : Tree)
  | group (span : Span) (kind : GroupKind) (body : Tree)
  | alternation (span : Span) (branches : List Tree)
  | concatenation (span : Span) (items : List Tree)

namespace Tree

def span : Tree → Span
  | empty span
  | settings span _
  | atom span _
  | repetition span _ _ _
  | group span _ _
  | alternation span _
  | concatenation span _ => span
  | bracketed content => content.span

/-- Whether a repetition may follow. -/
def isRepeatable : Tree → Bool
  | empty _ | settings _ _ => false
  | _ => true

/-- Parts one after another; a single part stands for itself. -/
def ofItems (span : Span) : List Tree → Tree
  | [] => empty span
  | [item] => item
  | items => concatenation span items

end Tree

end HackToolchain.Pattern
