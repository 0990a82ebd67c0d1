/-!
# Memory segments

A push or pop names one of eight segments and an index into it.  Three of the
segments are bounded: constants must fit a load instruction, and the pointer
and temp segments are fixed windows of two and eight cells.
-/

namespace HackToolchain.Vm

/-- The eight places a push reads from and a pop writes to. -/
inductive Segment where
  /-- Literal numbers, which have no cells. -/
  | constant
  /-- The local variables of the running function. -/
  | locals
  /-- The variables of the source unit. -/
  | statics
  /-- The arguments of the running function. -/
  | arguments
  /-- Cells of the object that THIS points to. -/
  | this
  /-- Cells of the object that THAT points to. -/
  | that
  /-- The registers THIS and THAT themselves. -/
  | pointer
  /-- Eight scratch cells. -/
  | temp
  deriving DecidableEq, Repr

namespace Segment

def name : Segment → String
  | constant => "constant"
  | locals => "local"
  | statics => "static"
  | arguments => "argument"
  | this => "this"
  | that => "that"
  | pointer => "pointer"
  | temp => "temp"

def all : List Segment :=
  [constant, locals, statics, arguments, this, that, pointer, temp]

def ofWord? (word : List Char) : Option Segment :=
  all.find? fun segment => segment.name.toList == word

/-- The largest index of a bounded segment. -/
def maxIndex? : Segment → Option UInt16
  | constant => some 32767
  | pointer => some 1
  | temp => some 7
  | _ => none

/-- An index inside a segment. -/
def Allows (segment : Segment) (index : UInt16) : Prop :=
  ∀ limit ∈ segment.maxIndex?, index ≤ limit

instance (segment : Segment) (index : UInt16) : Decidable (segment.Allows index) :=
  @Option.decidableForallMem _ (index ≤ ·) inferInstance segment.maxIndex?

theorem ofWord?_name (segment : Segment) : ofWord? segment.name.toList = some segment := by
  cases segment <;> rfl

/-- A word names a segment exactly when it is the segment's name. -/
theorem ofWord?_eq_some_iff {word : List Char} {segment : Segment} :
    ofWord? word = some segment ↔ word = segment.name.toList := by
  constructor
  · intro found
    have holds := List.find?_some found
    exact (by simpa using holds : segment.name.toList = word).symm
  · rintro rfl
    exact ofWord?_name segment

end Segment

end HackToolchain.Vm
