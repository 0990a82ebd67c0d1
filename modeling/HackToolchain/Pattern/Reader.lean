import HackToolchain.Pattern.Bracket
import HackToolchain.Pattern.Group
import HackToolchain.Pattern.Repetition

/-!
# Reading patterns

A pattern is read in one pass.  The group that is read has its finished
branches and the items of its last branch; the groups around it wait on a
stack.
-/

namespace HackToolchain.Pattern

/-- The content of a group, or of the whole pattern, as far as it is read. -/
structure Branches where
  start : Position
  finished : Array Tree
  /-- Where the last branch starts. -/
  branchStart : Position
  items : Array Tree

namespace Branches

def emptyAt (position : Position) : Branches := ⟨position, #[], position, #[]⟩

def push (branches : Branches) (item : Tree) : Branches :=
  { branches with items := branches.items.push item }

/-- The last branch, which ends at a place. -/
def last (branches : Branches) (position : Position) : Tree :=
  .ofItems ⟨branches.branchStart, position⟩ branches.items.toList

/-- Finish the last branch at a bar, and begin another one behind it. -/
def bar (branches : Branches) (before behind : Position) : Branches :=
  ⟨branches.start, branches.finished.push (branches.last before), behind, #[]⟩

def close (branches : Branches) (position : Position) : Tree :=
  if branches.finished.isEmpty then branches.last position
  else .alternation ⟨branches.start, position⟩
    (branches.finished.push (branches.last position)).toList

end Branches

/-- A group that is open, in the content around it. -/
structure OpenGroup where
  around : Branches
  span : Span
  kind : GroupKind
  /-- Whether blanks were left out before the group. -/
  ignoredBlanks : Bool

/-- How far a pattern is read. -/
structure Progress where
  /-- The groups that are open, the innermost one first. -/
  groups : List OpenGroup
  /-- The content of the innermost one. -/
  content : Branches
  cursor : Cursor

namespace Progress

/-- Nothing is read. -/
def start (pattern : List Char) : Progress := ⟨[], .emptyAt .first, .start pattern⟩

/-- Add an item that ends at a cursor. -/
def push (progress : Progress) (item : Tree) (cursor : Cursor) : Progress :=
  { progress with content := progress.content.push item, cursor }

/-- Read the opening of a group, or options. -/
def openGroup (progress : Progress) : Attempt Progress := do
  let (opening, cursor) ← readOpening progress.cursor
  let ignoredBlanks := progress.cursor.ignoresBlanks
  let withSettings (settings : List Setting) : Cursor :=
    { cursor with
      ignoresBlanks := (Setting.valueOf? .ignoreBlanks settings).getD ignoredBlanks }
  match opening with
  | .settings settings =>
      let span := cursor.since progress.cursor.position
      return progress.push (.settings span settings) (withSettings settings)
  | .group kind =>
      let cursor :=
        match kind with
        | .capture _ => cursor
        | .settings settings => withSettings settings
      let group := ⟨progress.content, progress.cursor.character, kind, ignoredBlanks⟩
      return ⟨group :: progress.groups, .emptyAt cursor.position, cursor⟩

/-- Read the parenthesis that closes a group. -/
def closeGroup (progress : Progress) : Attempt Progress :=
  match progress.groups with
  | [] => faultAt progress.cursor.character .unopenedGroup
  | group :: groups =>
      let behind := progress.cursor.advance
      let content := progress.content.close progress.cursor.position
      let tree := .group ⟨group.span.start, behind.position⟩ group.kind content
      .ok ⟨groups, group.around.push tree,
        { behind with ignoresBlanks := group.ignoredBlanks }⟩

/-- The progress without the last item, and that item, if it may be repeated. -/
def takeLast (progress : Progress) : Attempt (Tree × Progress) :=
  let items := progress.content.items
  match items.back? with
  | some item =>
      if item.isRepeatable then
        .ok (item, { progress with content := { progress.content with items := items.pop } })
      else faultAt progress.cursor.point .missingRepetition
  | none => faultAt progress.cursor.point .missingRepetition

/-- Read what starts with a character. -/
def read (progress : Progress) (character : Char) : Attempt Progress :=
  let cursor := progress.cursor
  match character with
  | '(' => progress.openGroup
  | ')' => progress.closeGroup
  | '|' =>
      let behind := cursor.advance
      .ok { progress with
        content := progress.content.bar cursor.position behind.position, cursor := behind }
  | '[' => do
      let (content, behind) ← readBracketed cursor
      return progress.push (.bracketed content) behind
  | '{' => do
      let (body, rest) ← progress.takeLast
      let (tree, behind) ← readBracedRepetition body cursor
      return rest.push tree behind
  | '\\' => do
      let (atom, behind) ← readEscape cursor
      return progress.push (.atom (behind.since cursor.position) atom) behind
  | '.' => .ok (progress.push (.atom cursor.character .dot) cursor.advance)
  | '^' =>
      .ok (progress.push (.atom cursor.character (.assertion .lineStart)) cursor.advance)
  | '$' => .ok (progress.push (.atom cursor.character (.assertion .lineEnd)) cursor.advance)
  | _ =>
      match countsOfSign? character with
      | some counts => do
          let (body, rest) ← progress.takeLast
          let (tree, behind) := readSignedRepetition body counts cursor
          return rest.push tree behind
      | none =>
          let literal := .member (.literal ⟨character, false⟩)
          .ok (progress.push (.atom cursor.character literal) cursor.advance)

/-- The whole pattern, once all of it is read. -/
def finish (progress : Progress) : Attempt Tree :=
  match progress.groups with
  | [] => .ok (progress.content.close progress.cursor.position)
  | group :: _ => faultAt group.span .unclosedGroup

/-- Read up to the end of the pattern, in a number of steps that is large enough. -/
def readAll : Nat → Progress → Attempt Tree
  | 0, progress => progress.finish
  | count + 1, progress =>
      let progress := { progress with cursor := progress.cursor.skipIgnored }
      match progress.cursor.next? with
      | none => progress.finish
      | some character => do readAll count (← progress.read character)

end Progress

/-- The tree of a pattern. -/
def Tree.ofPattern (pattern : List Char) : Attempt Tree :=
  (Progress.start pattern).readAll (pattern.length + 1)

end HackToolchain.Pattern
