import HackToolchain.Pattern.Expression.Length
import HackToolchain.Pattern.Expression.Looks
import HackToolchain.Pattern.Program.Sets
import HackToolchain.Pattern.Program.Words

/-!
# Programs that search

The program of an expression has a part for each of its parts; a part that is
repeated a number of times is there as often.  Around it stands what begins
everywhere in a text, unless matches can only be at one place.
-/

namespace HackToolchain.Pattern

namespace Expression

/-- The characters of an expression that is a literal. -/
def characters? : Expression → Option (List Char)
  | literal characters => some characters
  | _ => none

mutual

/-- Add an expression; the result says whether it ends with branches. -/
def assemble (direction : Direction) : Expression → Assembly Bool
  | empty | look _ => do
      let _ ← Assembly.instruction
      return false
  | literal characters => do
      let _ ← Assembly.grow (encodedSize characters) 0
      return false
  | set _ intervals => do
      addSet direction intervals
      return false
  | repetition counts _ body =>
      match counts.greatest? with
      | none => Assembly.unbounded counts.least body.isSolid (body.assemble direction)
      | some greatest => Assembly.bounded counts.least greatest (body.assemble direction)
  | capture _ body =>
      match direction with
      | .forward => do
          let _ ← Assembly.instruction
          let last ← body.assemble direction
          let _ ← Assembly.instruction
          Assembly.goOn last
          return false
      | .backward => body.assemble direction
  | concatenation items =>
      match direction with
      | .forward => assembleItems direction items
      | .backward => assembleReversed direction items
  | alternation branches =>
      match branches.mapM characters? with
      | some words => do
          addWords direction words
          return false
      | none => do
          assembleBranches direction 0 branches
          return false

def assembleItems (direction : Direction) : List Expression → Assembly Bool
  | [] => return false
  | [last] => last.assemble direction
  | first :: rest => do
      let before ← first.assemble direction
      let last ← assembleItems direction rest
      Assembly.goOn before
      return last

/-- Add expressions one after another, the last one first. -/
def assembleReversed (direction : Direction) : List Expression → Assembly Bool
  | [] => return false
  | [first] => first.assemble direction
  | first :: rest => do
      let before ← assembleReversed direction rest
      let last ← first.assemble direction
      Assembly.goOn before
      return last

/-- Add branches; what joins them follows the second one. -/
def assembleBranches (direction : Direction) (added : Nat) : List Expression → Assembly Unit
  | [] => return ()
  | first :: rest => do
      let last ← first.assemble direction
      if added = 1 then
        let _ ← Assembly.grow 2 0
      Assembly.goOn last
      Assembly.branch 1
      assembleBranches direction (added + 1) rest

end

/-- Add all of a program that searches, with what looks for a match everywhere. -/
def assembleSearch (direction : Direction) (expression : Expression) : Assembly Unit := do
  let isBound :=
    match direction with
    | .forward => expression.isBoundBy .textStart false
    | .backward => expression.isBoundBy .textEnd true
  if isBound then
    let _ ← Assembly.instruction
  else
    let _ ← Assembly.grow 2 0
    let _ ← Assembly.reading 1
    Assembly.branch 2
  match direction with
  | .forward => do
      let _ ← Assembly.instruction
      let last ← expression.assemble direction
      let _ ← Assembly.grow 2 0
      Assembly.goOn last
  | .backward => do
      let last ← expression.assemble direction
      let _ ← Assembly.instruction
      Assembly.goOn last

/-- Whether a program that searches stays within the limit. -/
def fits (direction : Direction) (expression : Expression) : Bool :=
  ((expression.assembleSearch direction).run .empty).isSome

end Expression

end HackToolchain.Pattern
