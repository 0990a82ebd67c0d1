import HackToolchain.Pattern.Expression.Length

/-!
# Building expressions

Expressions are built in a reduced form: literals that follow one another are
one literal, concatenations and alternations have no parts of their own kind,
alternatives of single characters are a set, and what alternatives start with
in common stands before them.
-/

namespace HackToolchain.Pattern.Expression

def ofIntervals (alphabet : Alphabet) : List Interval → Expression
  | [] => fail
  | [interval] =>
      if interval.first = interval.last then literal [Char.ofNat interval.first]
      else set alphabet [interval]
  | intervals => set alphabet intervals

/-- Repeat an expression; repeating what is empty more than once says nothing more. -/
def repeated (counts : Counts) (greedy : Bool) (body : Expression) : Expression :=
  let counts :=
    if body.isHollow then ⟨min counts.least 1, some (min (counts.greatest?.getD 1) 1)⟩
    else counts
  if counts = ⟨0, some 0⟩ then empty
  else if counts = ⟨1, some 1⟩ then body
  else repetition counts greedy body

def itemsOf : Expression → List Expression
  | empty => []
  | concatenation items => items
  | other => [other]

/-- Join the literals that follow one another. -/
def joinLiterals : List Expression → List Expression
  | [] => []
  | literal characters :: rest =>
      match joinLiterals rest with
      | literal others :: more => literal (characters ++ others) :: more
      | others => literal characters :: others
  | first :: rest => first :: joinLiterals rest

def concat (expressions : List Expression) : Expression :=
  match joinLiterals (expressions.flatMap itemsOf) with
  | [] => empty
  | [single] => single
  | items => concatenation items

/-- The parts of an expression in an alternation. -/
def branchesOf : Expression → List Expression
  | alternation branches => branches
  | other => [other]

/-- The interval of an expression that stands for one character. -/
def single? : Expression → Option Interval
  | literal [character] => some (.single character.toNat)
  | _ => none

/-- The intervals of an expression that is a set. -/
def intervals? : Expression → Option (List Interval)
  | set _ intervals => some intervals
  | _ => none

/-- The items of an expression that is a concatenation. -/
def items? : Expression → Option (List Expression)
  | concatenation items => some items
  | _ => none

/-- What two concatenations start with in common. -/
def commonStart : List Expression → List Expression → List Expression
  | first :: rest, other :: others =>
      if first.isSame other then first :: commonStart rest others else []
  | _, _ => []

/-- What all alternatives start with in common, and what follows it in each. -/
def factor? (branches : List Expression) : Option (List Expression × List Expression) := do
  let first :: rest ← branches.mapM items? | none
  let common := rest.foldl commonStart first
  if common.isEmpty then none
  else return (common, (first :: rest).map fun items => concat (items.drop common.length))

/--
The alternatives as one expression.  Factoring out what they start with leaves
alternatives that are smaller, so a number of steps of their size is enough.
-/
def alternateIn : Nat → List Expression → Expression
  | 0, expressions => alternation expressions
  | steps + 1, expressions =>
      let branches := expressions.flatMap branchesOf
      match branches with
      | [] => fail
      | [single] => single
      | _ =>
          match branches.mapM single?, branches.mapM intervals?, factor? branches with
          | some singles, _, _ => ofIntervals .characters (Interval.arrange singles)
          | _, some intervals, _ =>
              ofIntervals .characters (Interval.arrange intervals.flatten)
          | _, _, some (common, rests) => concat (common ++ [alternateIn steps rests])
          | _, _, _ => alternation branches

def alternate (expressions : List Expression) : Expression :=
  alternateIn (sizeAll expressions + 1) expressions

end HackToolchain.Pattern.Expression
