/-!
# Reach between places

The places of a text are numbered from zero.  A reach says for each place
which places can be reached from it; the places reached are kept as the bits
of a number.  Steps never lead back, so that a place which is reached lies
behind the one it is reached from, or is the same.
-/

namespace HackToolchain.Pattern

/-- The places that are reached from each place. -/
abbrev Reach := Array Nat

namespace Reach

/-- The number with the bit of one place. -/
def bit (place : Nat) : Nat := 1 <<< place

/-- The reach from some of the places, each to a place of its own. -/
def ofSteps (places : Nat) (step? : Nat → Option Nat) : Reach :=
  (Array.range places).map fun place => (step? place).elim 0 bit

/-- The reach of each place to itself where something holds. -/
def stay (places : Nat) (holds : Nat → Bool) : Reach :=
  ofSteps places fun place => if holds place then some place else none

/-- The reach of each place to itself. -/
def identity (places : Nat) : Reach := stay places fun _ => true

def none (places : Nat) : Reach := ofSteps places fun _ => .none

/-- What either of two reaches reaches. -/
def union (reach other : Reach) : Reach :=
  Array.zipWith (· ||| ·) reach other

/-- What is reached from some places, given a bound on their number. -/
def image (reach : Reach) : Nat → Nat → Nat
  | 0, _ => 0
  | bound + 1, starts =>
      if starts = 0 then 0
      else
        let place := starts.log2
        reach.getD place 0 ||| image reach bound (starts ^^^ bit place)

/-- The places from which any place is reached. -/
def sources (reach : Reach) : Nat :=
  (List.range reach.size).foldl
    (fun places place => if reach.getD place 0 = 0 then places else places ||| bit place) 0

/-- What is reached by one reach after another; only sources of the second one matter. -/
def compose (reach next : Reach) : Reach :=
  let onward := sources next
  reach.map fun reached => image next reach.size (reached &&& onward)

/-- What is reached in a number of turns. -/
def power (reach : Reach) (turns : Nat) : Reach :=
  if turns = 0 then identity reach.size
  else
    let half := power reach (turns / 2)
    let even := compose half half
    if turns % 2 = 0 then even else compose even reach
termination_by turns

/--
What is reached in any number of turns.  The reach of a place follows from
those of the places behind it, so the last place comes first.
-/
def closure (reach : Reach) : Reach :=
  (List.range reach.size).reverse.foldl closeAt reach
where
  /-- The closed reach of a place, given those of the places behind it. -/
  closeAt (closed : Reach) (place : Nat) : Reach :=
    let behind := (reach.getD place 0 ||| bit place) ^^^ bit place
    closed.setIfInBounds place (bit place ||| image closed reach.size behind)

/--
What is reached in at least a number of turns, and at most another if there is
one.  More turns than places bring nothing new.
-/
def turns (reach : Reach) (least : Nat) (greatest? : Option Nat) : Reach :=
  let start := power reach (min least (reach.size + 1))
  match greatest? with
  | .none => compose start (closure reach)
  | some greatest =>
      compose start
        (power (union (identity reach.size) reach) (min (greatest - least) (reach.size + 1)))

def isPossible (reach : Reach) : Bool :=
  reach.any (· ≠ 0)

end Reach

end HackToolchain.Pattern
