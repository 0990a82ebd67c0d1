import HackToolchain.Pattern.Expression

/-!
# Lengths of texts

Of the texts that an expression stands for it is known how many bytes they take
at least and at most.
-/

namespace HackToolchain.Pattern

/-- The number of bytes that encode a code point. -/
def codeSize (code : Nat) : Nat :=
  if code < 0x80 then 1 else if code < 0x800 then 2 else if code < 0x10000 then 3 else 4

def Alphabet.codeSize : Alphabet → Nat → Nat
  | characters, code => Pattern.codeSize code
  | bytes, _ => 1

def encodedSize (characters : List Char) : Nat :=
  characters.foldl (fun size character => size + codeSize character.toNat) 0

namespace Expression

mutual

/--
The bytes of the shortest texts.  It is not known when there are no texts, and
then not known either of what has such a part.
-/
def least? : Expression → Option Nat
  | empty | look _ => some 0
  | literal characters => some (encodedSize characters)
  | set alphabet intervals =>
      intervals.head?.map fun interval => alphabet.codeSize interval.first
  | repetition counts _ body => body.least?.map (counts.least * ·)
  | capture _ body => body.least?
  | concatenation items => leastTogether? items
  | alternation branches => leastAmong? branches

/-- The bytes of the shortest texts one after another. -/
def leastTogether? : List Expression → Option Nat
  | [] => some 0
  | first :: rest =>
      match first.least?, leastTogether? rest with
      | some least, some others => some (least + others)
      | _, _ => none

/-- The bytes of the shortest texts of any of the expressions. -/
def leastAmong? : List Expression → Option Nat
  | [] => none
  | [single] => single.least?
  | first :: rest =>
      match first.least?, leastAmong? rest with
      | some least, some others => some (min least others)
      | _, _ => none

end

mutual

/-- The bytes of the longest texts; it is not known when they have no bound. -/
def greatest? : Expression → Option Nat
  | empty | look _ => some 0
  | literal characters => some (encodedSize characters)
  | set alphabet intervals =>
      intervals.getLast?.map fun interval => alphabet.codeSize interval.last
  | repetition counts _ body =>
      match counts.greatest?, body.greatest? with
      | some count, some greatest => some (count * greatest)
      | _, _ => none
  | capture _ body => body.greatest?
  | concatenation items => greatestTogether? items
  | alternation branches => greatestAmong? branches

/-- The bytes of the longest texts one after another. -/
def greatestTogether? : List Expression → Option Nat
  | [] => some 0
  | first :: rest =>
      match first.greatest?, greatestTogether? rest with
      | some greatest, some others => some (greatest + others)
      | _, _ => none

/-- The bytes of the longest texts of any of the expressions. -/
def greatestAmong? : List Expression → Option Nat
  | [] => none
  | [single] => single.greatest?
  | first :: rest =>
      match first.greatest?, greatestAmong? rest with
      | some greatest, some others => some (max greatest others)
      | _, _ => none

end

/-- Whether only texts without characters are known to be meant. -/
def isHollow (expression : Expression) : Bool :=
  expression.greatest? = some 0

/-- Whether only texts with characters are known to be meant. -/
def isSolid (expression : Expression) : Bool :=
  expression.least?.any (0 < ·)

end Expression

end HackToolchain.Pattern
