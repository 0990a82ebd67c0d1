import HackToolchain.Log.Record
import HackToolchain.Pattern
import HackToolchain.Text.Blank

/-!
# Log filters

A filter has directives, and it may have a pattern.  A directive admits records
of some targets up to a level; the directive with the longest target that fits
a record decides.  Of the records that are admitted, those are kept in whose
text the pattern is found.  A filter is written as directives separated by
commas, with the pattern behind a slash.

Filters belong to the outer layer of the program, which decides what is shown
of a run.  No theorem about translation or about files rests on them.
-/

namespace HackToolchain.Log

/-- The least important level that is admitted; none admits nothing. -/
abbrev Limit := Option Level

/-- A limit for the targets that start with a text, or for all. -/
structure Directive where
  /-- How the targets start; none stands for all. -/
  start? : Option String
  /-- What is admitted of them. -/
  limit : Limit
  deriving DecidableEq, Repr

/-- The limit with a name, in upper or lower case. -/
def limitOfName? (name : List Char) : Option Limit :=
  let upper := String.ofList (name.map Char.toUpper)
  if upper = "OFF" then some none
  else (Level.all.find? fun level => level.name == upper).map some

/-- Read a directive, or give back the part of it that makes no sense. -/
def Directive.ofText (text : List Char) : Except String Directive :=
  match text.splitOn '=' with
  | [single] =>
      match limitOfName? single with
      | some limit => .ok ⟨none, limit⟩
      | none => .ok ⟨some (String.ofList single), some .trace⟩
  | [start, level] =>
      let level := Text.trim level
      if level.isEmpty then .ok ⟨some (String.ofList start), some .trace⟩
      else
        match limitOfName? level with
        | some limit => .ok ⟨some (String.ofList start), limit⟩
        | none => .error (String.ofList level)
  | _ => .error (String.ofList text)

/-- Directives in increasing length of their targets, the later ones stronger. -/
abbrev Directives := List Directive

namespace Directives

/-- Add a directive in the place of one for the same targets, or at the end. -/
def insert (directive : Directive) : Directives → Directives
  | [] => [directive]
  | first :: rest =>
      if first.start? = directive.start? then directive :: rest
      else first :: insert directive rest

/-- The number of bytes of the target of a directive. -/
def width (directive : Directive) : Nat :=
  (directive.start?.map String.utf8ByteSize).getD 0

/-- Order directives; without any, errors are admitted. -/
def ofList (directives : List Directive) : Directives :=
  match directives.foldl (fun others directive => insert directive others) [] with
  | [] => [⟨none, some .error⟩]
  | others => others.mergeSort fun first second => width first ≤ width second

def fits (target : Target) (directive : Directive) : Bool :=
  match directive.start? with
  | none => true
  | some start => start.toList.isPrefixOf target.name.toList

/-- Whether a record is admitted: the last directive that fits decides. -/
def admits (directives : Directives) (record : Record) : Bool :=
  match directives.reverse.find? (fits record.target) with
  | some ⟨_, some limit⟩ => record.level.rank ≤ limit.rank
  | _ => false

end Directives

/-- What decides which records are kept. -/
structure Filter where
  directives : Directives
  /-- What is to be found in the text of a record. -/
  pattern? : Option Pattern

namespace Filter

def keeps (filter : Filter) (record : Record) : Bool :=
  filter.directives.admits record &&
    filter.pattern?.all fun pattern => pattern.occursIn record.text

end Filter

/-- What can be wrong with a written filter. -/
inductive FilterFault where
  | directive (part : String)
  | slashes (text : String)
  | pattern (text : String) (rejection : Pattern.Rejection)

def FilterFault.message : FilterFault → String
  | directive part => "warning: invalid logging spec '" ++ part ++ "', ignoring it"
  | slashes text =>
      "warning: invalid logging spec '" ++ text ++ "' (too many '/'s), ignoring it"
  | pattern text rejection =>
      "warning: invalid regex filter - " ++ rejection.message text ++ ", ignoring it"

/-- A filter as it is understood, and what is wrong with the way it is written. -/
structure WrittenFilter where
  filter : Filter
  faults : List FilterFault

namespace WrittenFilter

/-- The readings of the directives of a written filter. -/
def parts (text : List Char) : List (Except String Directive) :=
  (((text.splitOn ',').map Text.trim).filter fun part => !part.isEmpty).map Directive.ofText

/-- A fault of a reading of a directive. -/
def partFault? : Except String Directive → Option FilterFault
  | .error part => some (.directive part)
  | .ok _ => none

/-- The filter with some readings of directives and perhaps a pattern. -/
def ofParts (parts : List (Except String Directive)) (pattern? : Option String) :
    WrittenFilter :=
  let directives := Directives.ofList (parts.filterMap Except.toOption)
  let faults := parts.filterMap partFault?
  match pattern?.map fun text => (text, Pattern.ofText text) with
  | none => ⟨⟨directives, none⟩, faults⟩
  | some (_, .ok pattern) => ⟨⟨directives, some pattern⟩, faults⟩
  | some (text, .error rejection) =>
      ⟨⟨directives, none⟩, faults ++ [.pattern text rejection]⟩

/-- Read a filter; what makes no sense in it is left out. -/
def ofText (text : String) : WrittenFilter :=
  match text.toList.splitOn '/' with
  | [directives] => ofParts (parts directives) none
  | [directives, pattern] => ofParts (parts directives) (some (String.ofList pattern))
  | _ => ⟨⟨Directives.ofList [], none⟩, [.slashes text]⟩

end WrittenFilter

end HackToolchain.Log
