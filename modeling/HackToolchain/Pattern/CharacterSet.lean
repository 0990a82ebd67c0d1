import HackToolchain.Pattern.Tree

/-!
# Sets of characters

A set of characters is kept as intervals in increasing order that neither
overlap nor touch.  Its characters are taken from an alphabet: all code points
that are characters, or the bytes.  A set also tells whether it is known to
hold both cases of each of its letters.
-/

namespace HackToolchain.Pattern

/-- What the characters of a set are taken from. -/
inductive Alphabet where
  | characters
  | bytes
  deriving DecidableEq, Repr

namespace Alphabet

def greatest : Alphabet → Nat
  | characters => 0x10FFFF
  | bytes => 0xFF

/-- The code after another; the surrogates are no characters. -/
def after (alphabet : Alphabet) (code : Nat) : Nat :=
  if alphabet = characters ∧ code = 0xD7FF then 0xE000 else code + 1

/-- The code before another; the surrogates are no characters. -/
def before (alphabet : Alphabet) (code : Nat) : Nat :=
  if alphabet = characters ∧ code = 0xE000 then 0xD7FF else code - 1

end Alphabet

/-- The codes from one up to another. -/
structure Interval where
  first : Nat
  last : Nat
  deriving DecidableEq, Repr

namespace Interval

/-- The interval between two codes, whichever comes first. -/
def between (code other : Nat) : Interval := ⟨min code other, max code other⟩

def single (code : Nat) : Interval := ⟨code, code⟩

def contains (interval : Interval) (code : Nat) : Bool :=
  interval.first ≤ code && code ≤ interval.last

/-- The order of intervals: by their first codes, then by their last ones. -/
def isOrdered (interval other : Interval) : Bool :=
  interval.first < other.first ||
    (interval.first = other.first && interval.last ≤ other.last)

/-- The common codes of two intervals. -/
def common? (interval other : Interval) : Option Interval :=
  let first := max interval.first other.first
  let last := min interval.last other.last
  if first ≤ last then some ⟨first, last⟩ else none

/-- What is left of an interval without another. -/
def without (alphabet : Alphabet) (removed interval : Interval) : List Interval :=
  if (interval.common? removed).isNone then [interval]
  else
    (if interval.first < removed.first then
      [between interval.first (alphabet.before removed.first)] else []) ++
    (if removed.last < interval.last then
      [between (alphabet.after removed.last) interval.last] else [])

/-- The small letters of the large ones in an interval, and the other way round. -/
def otherCase (interval : Interval) : List Interval :=
  ((interval.common? ⟨'a'.toNat, 'z'.toNat⟩).map fun small =>
      ⟨small.first - 32, small.last - 32⟩).toList ++
    ((interval.common? ⟨'A'.toNat, 'Z'.toNat⟩).map fun large =>
      ⟨large.first + 32, large.last + 32⟩).toList

/-- Join intervals in order with a first one where they overlap or touch. -/
def join (interval : Interval) : List Interval → List Interval
  | [] => [interval]
  | next :: rest =>
      if next.first ≤ interval.last + 1 then
        join ⟨interval.first, max interval.last next.last⟩ rest
      else interval :: join next rest

/-- Intervals in order that neither overlap nor touch, with the same codes. -/
def arrange (intervals : List Interval) : List Interval :=
  match intervals.mergeSort isOrdered with
  | [] => []
  | first :: rest => join first rest

/-- The intervals between those of an arrangement that starts after a code, up to the greatest. -/
def gaps (alphabet : Alphabet) (reached : Nat) : List Interval → List Interval
  | [] =>
      if reached < alphabet.greatest then
        [between (alphabet.after reached) alphabet.greatest] else []
  | next :: rest =>
      between (alphabet.after reached) (alphabet.before next.first) ::
        gaps alphabet next.last rest

end Interval

/-- A set of characters. -/
structure CharacterSet where
  intervals : List Interval
  /-- Whether both cases of each letter are known to be in it. -/
  ignoresCase : Bool
  deriving DecidableEq, Repr

namespace CharacterSet

def empty : CharacterSet := ⟨[], true⟩

def ofIntervals (intervals : List Interval) : CharacterSet :=
  ⟨Interval.arrange intervals, intervals.isEmpty⟩

def contains (set : CharacterSet) (code : Nat) : Bool :=
  set.intervals.any fun interval => interval.contains code

def isAscii (set : CharacterSet) : Bool :=
  set.intervals.getLast?.all fun interval => interval.last < 0x80

def insert (set : CharacterSet) (interval : Interval) : CharacterSet :=
  ⟨Interval.arrange (set.intervals ++ [interval]), false⟩

def union (set other : CharacterSet) : CharacterSet :=
  if other.intervals.isEmpty || set.intervals == other.intervals then set
  else ⟨Interval.arrange (set.intervals ++ other.intervals), set.ignoresCase && other.ignoresCase⟩

def intersection (set other : CharacterSet) : CharacterSet :=
  if set.intervals.isEmpty then set
  else if other.intervals.isEmpty then empty
  else
    ⟨set.intervals.flatMap fun interval => other.intervals.filterMap interval.common?,
      set.ignoresCase && other.ignoresCase⟩

/-- The characters of the first set that the second does not have. -/
def difference (alphabet : Alphabet) (set other : CharacterSet) : CharacterSet :=
  if set.intervals.isEmpty || other.intervals.isEmpty then set
  else
    ⟨other.intervals.foldl
        (fun left removed => left.flatMap (Interval.without alphabet removed)) set.intervals,
      set.ignoresCase && other.ignoresCase⟩

def symmetricDifference (alphabet : Alphabet) (set other : CharacterSet) : CharacterSet :=
  difference alphabet (set.union other) (set.intersection other)

def complement (alphabet : Alphabet) (set : CharacterSet) : CharacterSet :=
  match set.intervals with
  | [] => ⟨[⟨0, alphabet.greatest⟩], true⟩
  | first :: rest =>
      ⟨(if 0 < first.first then [Interval.between 0 (alphabet.before first.first)] else []) ++
        Interval.gaps alphabet first.last rest, set.ignoresCase⟩

/--
A set with the other cases of its letters.  For characters it is only known
when there are no other cases to be found.
-/
def withCases? (alphabet : Alphabet) (set : CharacterSet) : Option CharacterSet :=
  if set.ignoresCase || set.intervals.isEmpty then some { set with ignoresCase := true }
  else
    match alphabet with
    | .characters => none
    | .bytes =>
        let others := set.intervals.flatMap Interval.otherCase
        some ⟨Interval.arrange (set.intervals ++ others), true⟩

def operate (alphabet : Alphabet) : SetOperator → CharacterSet → CharacterSet → CharacterSet
  | .intersection => intersection
  | .difference => difference alphabet
  | .symmetricDifference => symmetricDifference alphabet

end CharacterSet

def NamedSet.set (name : NamedSet) : CharacterSet :=
  let span (first last : Char) : Interval := ⟨first.toNat, last.toNat⟩
  let one (character : Char) : Interval := .single character.toNat
  let digits := span '0' '9'
  let large := span 'A' 'Z'
  let small := span 'a' 'z'
  .ofIntervals
    (match name with
    | alnum => [digits, large, small]
    | alpha => [large, small]
    | ascii => [⟨0, 0x7F⟩]
    | blank => [one '\t', one ' ']
    | cntrl => [⟨0, 0x1F⟩, .single 0x7F]
    | digit => [digits]
    | graph => [span '!' '~']
    | lower => [small]
    | print => [span ' ' '~']
    | punct => [span '!' '/', span ':' '@', span '[' '\x60', span '\x7b' '~']
    | space => [span '\t' '\r', one ' ']
    | upper => [large]
    | word => [digits, large, one '_', small]
    | xdigit => [digits, span 'A' 'F', span 'a' 'f'])

end HackToolchain.Pattern
