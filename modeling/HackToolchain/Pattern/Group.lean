import HackToolchain.Pattern.Cursor
import HackToolchain.Pattern.Tree
import HackToolchain.Text.Letter

/-!
# Openings of groups

A parenthesis opens a group.  A group is numbered and may have a name, or it
only switches options for its content.  Options may also be switched without
a content, for the rest of the group around.
-/

namespace HackToolchain.Pattern

/-- What a parenthesis opens. -/
inductive Opening where
  /-- Options are switched for the rest of the group around. -/
  | settings (settings : List Setting)
  | group (kind : GroupKind)

/-- The signs of a group that looks ahead or behind. -/
def lookAroundSigns : List String := ["?=", "?!", "?<=", "?<!"]

/-- Whether a character may stand in the name of a group, at its start or later. -/
def isNameCharacter (isFirst : Bool) (character : Char) : Bool :=
  if isFirst then character = '_' || Text.isLetter character
  else
    character = '_' || character = '.' || character = '[' || character = ']' ||
      Text.isLetter character || Text.isNumber character

/-- The end of a name that has begun at a place; there, a character that belongs to none is a fault. -/
def nameEnd (start : Position) : Nat → Cursor → Attempt Cursor
  | 0, cursor => .ok cursor
  | count + 1, cursor =>
      match cursor.next? with
      | none | some '>' => .ok cursor
      | some character =>
          if isNameCharacter (cursor.position = start) character then
            nameEnd start count cursor.advance
          else faultAt cursor.character .invalidGroupName

/-- Read the name of a group up to the angle that closes it. -/
def readName (cursor : Cursor) : Attempt Cursor := do
  let start := cursor.position
  let last ← nameEnd start cursor.rest.length cursor
  if last.isAtEnd then faultAt last.point .unclosedGroupName
  let name := cursor.rest.take (last.position.offset - start.offset)
  let span := last.since start
  if name.isEmpty then faultAt span .emptyGroupName
  match cursor.names.lookup name with
  | some earlier => repeatedAt span earlier .duplicateGroupName
  | none => return { last.advance with names := cursor.names ++ [(name, span)] }

/-- What was read of the options of a group. -/
structure Flags where
  /-- The options with their places. -/
  settings : List (Setting × Span)
  /-- The sign after which options are switched off. -/
  negation? : Option Span
  /-- Whether that sign came last. -/
  isDangling : Bool

namespace Flags

def none : Flags := ⟨[], .none, false⟩

/-- Add the sign after which options are switched off. -/
def negate (flags : Flags) (span : Span) : Attempt Flags :=
  match flags.negation? with
  | some earlier => repeatedAt span earlier .repeatedNegation
  | .none => .ok { flags with negation? := some span, isDangling := true }

def add (flags : Flags) (span : Span) (flag : Flag) : Attempt Flags :=
  match flags.settings.find? fun setting => setting.1.flag = flag with
  | some (_, earlier) => repeatedAt span earlier .duplicateFlag
  | .none =>
      .ok
        { flags with
          settings := flags.settings ++ [(⟨flag, flags.negation?.isNone⟩, span)]
          isDangling := false }

end Flags

/-- Read options up to the colon or parenthesis after them. -/
def readFlags : Nat → Flags → Cursor → Attempt (Flags × Cursor)
  | 0, flags, cursor => .ok (flags, cursor)
  | count + 1, flags, cursor =>
      match cursor.next? with
      | none => faultAt cursor.point .unfinishedFlags
      | some character =>
          if character = ':' ∨ character = ')' then .ok (flags, cursor)
          else do
            let span := cursor.character
            let flags ←
              if character = '-' then flags.negate span
              else
                match Flag.ofLetter? character with
                | some flag => flags.add span flag
                | none => faultAt span .unrecognizedFlag
            readFlags count flags cursor.advance

/-- Read options and what they are for; the cursor is behind the question mark at a place. -/
def readSettings (mark : Position) (cursor : Cursor) : Attempt (Opening × Cursor) := do
  let (flags, last) ← readFlags (cursor.rest.length + 1) .none cursor
  match flags.isDangling, flags.negation? with
  | true, some span => faultAt span .danglingNegation
  | _, _ =>
      let settings := flags.settings.map Prod.fst
      if last.next? = some ':' then return (.group (.settings settings), last.advance)
      else if flags.settings.isEmpty ∧ flags.negation?.isNone then
        faultAt (.point mark) .missingRepetition
      else return (.settings settings, last.advance)

/-- Give the next number to a group. -/
def Cursor.capture (cursor : Cursor) : Opening × Cursor :=
  let index := cursor.captures + 1
  (.group (.capture index), { cursor with captures := index })

/-- Read what a parenthesis opens; the cursor stands before it. -/
def readOpening (cursor : Cursor) : Attempt (Opening × Cursor) :=
  let parenthesis := cursor.character
  let cursor := cursor.step
  match lookAroundSigns.findSome? fun sign => cursor.skip? sign with
  | some behind => faultAt ⟨parenthesis.start, behind.position⟩ .lookAround
  | none =>
      match (cursor.skip? "?P<").or (cursor.skip? "?<") with
      | some inside => do
          let (opening, inside) := inside.capture
          return (opening, ← readName inside)
      | none =>
          if cursor.next? = some '?' then
            if cursor.advance.isAtEnd then faultAt parenthesis .unclosedGroup
            else readSettings cursor.position cursor.advance
          else .ok cursor.capture

end HackToolchain.Pattern
