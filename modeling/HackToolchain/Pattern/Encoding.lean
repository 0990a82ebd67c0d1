import HackToolchain.Pattern.CharacterSet

/-!
# Encodings of intervals

A code point is encoded in one to four bytes.  The encodings of an interval of
code points are the byte sequences that lie, byte by byte, in the intervals of
one of a few sequences of intervals.
-/

namespace HackToolchain.Pattern

/-- The bytes that encode a code point. -/
def encode (code : Nat) : List Nat :=
  let trailing (shift : Nat) : Nat := 0x80 + code / shift % 64
  if code < 0x80 then [code]
  else if code < 0x800 then [0xC0 + code / 64, trailing 1]
  else if code < 0x10000 then [0xE0 + code / 4096, trailing 64, trailing 1]
  else [0xF0 + code / 262144, trailing 4096, trailing 64, trailing 1]

namespace Interval

/-- The interval from one code to another, if there is any code in it. -/
def nonempty (first last : Nat) : List Interval :=
  if first ≤ last then [⟨first, last⟩] else []

/-- An interval without the surrogates. -/
def withoutSurrogates (interval : Interval) : List Interval :=
  if interval.first < 0xE000 ∧ 0xD7FF < interval.last then
    nonempty interval.first 0xD7FF ++ nonempty 0xE000 interval.last
  else [interval]

/-- An interval cut behind a code. -/
def cutBehind (code : Nat) (interval : Interval) : List Interval :=
  if interval.first ≤ code ∧ code < interval.last then
    [⟨interval.first, code⟩, ⟨code + 1, interval.last⟩]
  else [interval]

/-- An interval over more than one block of a size, cut so that whole blocks are apart. -/
def cutBlocks (size : Nat) (interval : Interval) : List Interval :=
  if interval.first / size = interval.last / size then [interval]
  else
    let first :=
      if interval.first % size = 0 then interval.first
      else (interval.first / size + 1) * size
    let last := interval.last / size * size
    (if interval.first < first then [⟨interval.first, first - 1⟩] else []) ++
      if first / size = interval.last / size ∨ interval.last % size = size - 1 then
        [⟨first, interval.last⟩]
      else [⟨first, last - 1⟩, ⟨last, interval.last⟩]

/-- An interval cut where the encodings do not agree in all but their last bytes. -/
def cutEncodings (interval : Interval) : List Interval :=
  if interval.last < 0x80 then [interval]
  else
    ((interval.cutBlocks 64).flatMap (cutBlocks 4096)).flatMap (cutBlocks 262144)

/-- The sequences of byte intervals that encode the codes of an interval, in order. -/
def byteSequences (interval : Interval) : List (List Interval) :=
  let parts :=
    (((interval.withoutSurrogates.flatMap (cutBehind 0x7F)).flatMap
      (cutBehind 0x7FF)).flatMap (cutBehind 0xFFFF)).flatMap cutEncodings
  parts.map fun part => List.zipWith Interval.mk (encode part.first) (encode part.last)

end Interval

end HackToolchain.Pattern
