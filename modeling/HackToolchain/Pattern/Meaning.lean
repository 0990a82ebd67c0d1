import HackToolchain.Pattern.Expression.Building
import HackToolchain.Pattern.Fault

/-!
# What patterns mean

A pattern means an expression.  What its parts mean depends on the options
that are switched on where they stand.  Matching is by characters or, where
that is switched off, by bytes; then nothing may be matched that is no
encoding of characters.  Classes of all scripts and their cases are not known.
-/

namespace HackToolchain.Pattern

/-- The options at a place of a pattern. -/
structure Options where
  caseInsensitive : Bool
  multiLine : Bool
  dotMatchesLineFeed : Bool
  swapGreed : Bool
  unicode : Bool
  returnsEndLines : Bool
  deriving DecidableEq, Repr

namespace Options

/-- The options at the start of a pattern. -/
def initial : Options := ⟨false, false, false, false, true, false⟩

/-- Switch an option; how blanks are read does not matter for what is meant. -/
def set (options : Options) (setting : Setting) : Options :=
  match setting.flag with
  | .caseInsensitive => { options with caseInsensitive := setting.value }
  | .multiLine => { options with multiLine := setting.value }
  | .dotMatchesLineFeed => { options with dotMatchesLineFeed := setting.value }
  | .swapGreed => { options with swapGreed := setting.value }
  | .unicode => { options with unicode := setting.value }
  | .returnsEndLines => { options with returnsEndLines := setting.value }
  | .ignoreBlanks => options

def setAll (options : Options) (settings : List Setting) : Options :=
  settings.foldl set options

/-- What is matched. -/
def alphabet (options : Options) : Alphabet :=
  if options.unicode then .characters else .bytes

/-- A set with the other cases of its letters, if case is ignored. -/
def withCases (options : Options) (span : Span) (set : CharacterSet) : Attempt CharacterSet :=
  if options.caseInsensitive then
    match set.withCases? options.alphabet with
    | some set => .ok set
    | none => faultAt span .caseUnavailable
  else .ok set

/-- Refuse bytes that do not encode characters. -/
def checkEncoding (options : Options) (span : Span) (set : CharacterSet) :
    Attempt CharacterSet :=
  if options.unicode || set.isAscii then .ok set else faultAt span .invalidEncoding

/-- A set as it stands in a class: with both cases where case is ignored, and then negated. -/
def complete (options : Options) (span : Span) (negated : Bool) (set : CharacterSet) :
    Attempt CharacterSet := do
  let set ← options.withCases span set
  options.checkEncoding span (if negated then set.complement options.alphabet else set)

def shorthand (options : Options) (span : Span) (name : NamedSet) (negated : Bool) :
    Attempt CharacterSet :=
  if options.unicode then faultAt span .shorthandUnavailable
  else
    options.checkEncoding span
      (if negated then name.set.complement options.alphabet else name.set)

/-- The code of a literal in a class. -/
def classCode (options : Options) (span : Span) (literal : Literal) : Attempt Nat :=
  let code := literal.character.toNat
  if options.unicode ∨ code < 0x80 then .ok code
  else if literal.isByte then faultAt span .invalidEncoding
  else faultAt span .unicodeNotAllowed

/-- What a literal means outside of classes. -/
def literal (options : Options) (span : Span) (literal : Literal) : Attempt Expression :=
  let character := literal.character
  if options.unicode then
    if options.caseInsensitive then faultAt span .caseUnavailable
    else .ok (.literal [character])
  else if literal.isByte ∧ 0x80 ≤ character.toNat then faultAt span .invalidEncoding
  else if options.caseInsensitive ∧ character.isAlpha then
    .ok (.ofIntervals .bytes
      (Interval.arrange [.single character.toLower.toNat, .single character.toUpper.toNat]))
  else .ok (.literal [character])

/-- The characters that a dot stands for. -/
def dot (options : Options) (span : Span) : Attempt Expression :=
  if options.unicode then
    .ok (.set .characters
      (if options.dotMatchesLineFeed then [⟨0, 0x10FFFF⟩]
      else if options.returnsEndLines then
        [⟨0, 0x9⟩, ⟨0xB, 0xC⟩, ⟨0xE, 0x10FFFF⟩]
      else [⟨0, 0x9⟩, ⟨0xB, 0x10FFFF⟩]))
  else faultAt span .invalidEncoding

/-- What an assertion asks for. -/
def look (options : Options) : Assertion → Look
  | .lineStart => if options.multiLine then .lineStart options.returnsEndLines else .textStart
  | .lineEnd => if options.multiLine then .lineEnd options.returnsEndLines else .textEnd
  | .textStart => .textStart
  | .textEnd => .textEnd
  | .wordBoundary => .word options.unicode .boundary
  | .notWordBoundary => .word options.unicode .notBoundary
  | .wordStart => .word options.unicode .start
  | .wordEnd => .word options.unicode .stop
  | .wordStartHalf => .word options.unicode .startHalf
  | .wordEndHalf => .word options.unicode .endHalf

end Options

namespace Property

/-- The name of a property without what does not matter in it. -/
def plainName (property : Property) : String :=
  let name := property.name
  let withoutIs :=
    match name with
    | first :: second :: rest =>
        if first.toLower = 'i' ∧ second.toLower = 's' then rest else name
    | _ => name
  let kept := withoutIs.filter fun character =>
    character.toNat < 0x80 && character ≠ ' ' && character ≠ '_' && character ≠ '-'
  String.ofList (kept.map Char.toLower)

/-- The names that properties share with their values; those are taken to be values. -/
def valueNames : List String := ["cf", "sc", "lc"]

/-- No property is known; a name of a value is missed as a value. -/
def fault (property : Property) : Fault :=
  if property.value?.isNone ∧ property.plainName ∈ valueNames then .unknownPropertyValue
  else .unknownProperty

end Property

/-- What is wrong with asking for a property. -/
def Options.propertyFault (options : Options) (property : Property) : Fault :=
  if options.unicode then property.fault else .unicodeNotAllowed

mutual

/-- Add what a part of a class means to a set. -/
def ClassTree.addTo (options : Options) (set : CharacterSet) : ClassTree → Attempt CharacterSet
  | .empty _ => .ok set
  | .member span (.literal literal) => do
      return set.insert (.single (← options.classCode span literal))
  | .member span (.shorthand name negated) => do
      return set.union (← options.shorthand span name negated)
  | .member span (.property property _) => faultAt span (options.propertyFault property)
  | .range _ (firstSpan, first) (lastSpan, last) => do
      let first ← options.classCode firstSpan first
      let last ← options.classCode lastSpan last
      return set.insert (.between first last)
  | .named span name negated => do
      return set.union (← options.complete span negated name.set)
  | .bracketed span negated content => do
      let inner ← content.addTo options .empty
      return set.union (← options.complete span negated inner)
  | .union _ items => ClassTree.addAllTo options set items
  | .operation _ operator left right => do
      let leftSet ← left.addTo options .empty
      let rightSet ← right.addTo options .empty
      let rightSet ← options.withCases right.span rightSet
      let leftSet ← options.withCases left.span leftSet
      return set.union (.operate options.alphabet operator leftSet rightSet)

/-- Add what parts of a class mean to a set. -/
def ClassTree.addAllTo (options : Options) (set : CharacterSet) :
    List ClassTree → Attempt CharacterSet
  | [] => .ok set
  | first :: rest => do ClassTree.addAllTo options (← first.addTo options set) rest

end

/-- What the smallest parts of patterns mean. -/
def Atom.meaning (options : Options) (span : Span) : Atom → Attempt Expression
  | .member (.literal literal) => options.literal span literal
  | .member (.shorthand name negated) => do
      let set ← options.shorthand span name negated
      return .ofIntervals options.alphabet set.intervals
  | .member (.property property _) => faultAt span (options.propertyFault property)
  | .assertion asked => .ok (.look (options.look asked))
  | .dot => options.dot span

mutual

/-- What a pattern means under options, and the options behind it. -/
def Tree.meaning (options : Options) : Tree → Attempt (Expression × Options)
  | .empty _ => .ok (.empty, options)
  | .settings _ switched => .ok (.empty, options.setAll switched)
  | .atom span part => do return (← part.meaning options span, options)
  | .bracketed content => do
      let set ← content.addTo options .empty
      return (.ofIntervals options.alphabet set.intervals, options)
  | .repetition _ counts greedy body => do
      let (body, _) ← body.meaning options
      return (.repeated counts (greedy != options.swapGreed) body, options)
  | .group _ (.capture index) body => do
      let (body, _) ← body.meaning options
      return (.capture index body, options)
  | .group _ (.settings switched) body => do
      let (body, _) ← body.meaning (options.setAll switched)
      return (body, options)
  | .alternation _ branches => do
      let (branches, last) ← Tree.meanings options branches
      return (.alternate branches, last)
  | .concatenation _ items => do
      let (items, last) ← Tree.meanings options items
      return (.concat items, last)

/-- What parts mean that follow one another, and the options behind them. -/
def Tree.meanings (options : Options) : List Tree → Attempt (List Expression × Options)
  | [] => .ok ([], options)
  | first :: rest => do
      let (expression, behind) ← first.meaning options
      let (others, last) ← Tree.meanings behind rest
      return (expression :: others, last)

end

end HackToolchain.Pattern
