import HackToolchain.Pattern.Encoding
import HackToolchain.Pattern.Program

/-!
# Programs that read one of some words

A program reads any of some words along a tree, in which words that start alike
share their first branches.
-/

namespace HackToolchain.Pattern

/--
Words divided at the ends of words among them, given the words since the last
end and the divisions before.  Where no word goes on, an end counts once.
-/
def divide : List (List Nat) → List (List Nat) → List (List (List Nat)) → List (List (List Nat))
  | [], current, finished => finished ++ [current]
  | [] :: rest, current, finished =>
      if current.isEmpty ∧ finished = [[]] then divide rest current finished
      else divide rest [] (finished ++ [current])
  | word :: rest, current, finished => divide rest (current ++ [word]) finished

/--
What a tree of words of some length adds.  Between two ends of words, words
that start with the same byte share its branch; an end is a branch as well.
-/
def wordTree : Nat → List (List Nat) → Program
  | 0, _ => .empty
  | length + 1, words =>
      if words.all List.isEmpty then .empty
      else
        let divisions := divide words [] []
        let filled := divisions.filter fun division => !division.isEmpty
        let sizes := filled.flatMap fun division =>
          let starts := (division.filterMap List.head?).eraseDups
          let own : Program :=
            ⟨1, if starts.length = 1 then 0 else Program.intervalBytes * starts.length⟩
          own :: starts.map fun start =>
            wordTree length
              ((division.filter fun word => word.head? = some start).map List.tail)
        ⟨(sizes.map Program.instructions).sum + 1,
          (sizes.map Program.listed).sum +
            Program.branchBytes * (filled.length + divisions.length - 1)⟩

/-- Add what reads one of some words. -/
def addWords (direction : Direction) (words : List (List Char)) : Assembly Unit := do
  let encoded := words.map fun word => word.flatMap fun character => encode character.toNat
  let directed :=
    match direction with
    | .forward => encoded
    | .backward => encoded.map List.reverse
  let longest := (directed.map List.length).foldl max 0
  let size := wordTree (longest + 1) directed
  let _ ← Assembly.grow (size.instructions + 1) size.listed

end HackToolchain.Pattern
