import HackToolchain.Pattern.Fault
import HackToolchain.Pattern.Tree

/-!
# Nesting of patterns

The parts of a pattern that have parts of their own nest in one another.  A
pattern that nests too deeply is refused; the fault is at the first part, from
the outside in and from left to right, that lies too deep.
-/

namespace HackToolchain.Pattern

mutual

/-- The first part of a class that lies too deep, in a number of parts around the class. -/
def ClassTree.tooDeep? (depth : Nat) : ClassTree → Option Span
  | .empty _ | .member _ _ | .range _ _ _ | .named _ _ _ => none
  | .bracketed span _ content =>
      if depth < nestingLimit then content.tooDeep? (depth + 1) else some span
  | .union span items =>
      if depth < nestingLimit then ClassTree.tooDeepAmong? (depth + 1) items else some span
  | .operation span _ left right =>
      if depth < nestingLimit then
        (left.tooDeep? (depth + 1)).or (right.tooDeep? (depth + 1))
      else some span

/-- The first of the parts of classes that lies too deep. -/
def ClassTree.tooDeepAmong? (depth : Nat) : List ClassTree → Option Span
  | [] => none
  | first :: rest => (first.tooDeep? depth).or (ClassTree.tooDeepAmong? depth rest)

end

mutual

/-- The first part of a pattern that lies too deep, in a number of parts around the pattern. -/
def Tree.tooDeep? (depth : Nat) : Tree → Option Span
  | .empty _ | .settings _ _ | .atom _ _ => none
  | .bracketed content => content.tooDeep? depth
  | .repetition span _ _ body | .group span _ body =>
      if depth < nestingLimit then body.tooDeep? (depth + 1) else some span
  | .alternation span parts | .concatenation span parts =>
      if depth < nestingLimit then Tree.tooDeepAmong? (depth + 1) parts else some span

/-- The first of the parts of patterns that lies too deep. -/
def Tree.tooDeepAmong? (depth : Nat) : List Tree → Option Span
  | [] => none
  | first :: rest => (first.tooDeep? depth).or (Tree.tooDeepAmong? depth rest)

end

/-- Refuse a pattern that nests too deeply. -/
def Tree.checkNesting (tree : Tree) : Attempt Unit :=
  match tree.tooDeep? 0 with
  | some span => faultAt span .nestedTooDeeply
  | none => .ok ()

end HackToolchain.Pattern
