import HackToolchain.Pattern.Position

/-!
# Faults of patterns

A pattern may be written wrongly, or it may ask for what is not at hand.  A
fault names the first such thing; a located fault adds where it is, and where
the earlier thing is that it repeats.
-/

namespace HackToolchain.Pattern

/-- The deepest nesting of groups, brackets and what is made of parts. -/
def nestingLimit : Nat := 250

/-- What can be wrong with a pattern. -/
inductive Fault where
  | invalidClassEscape
  | invalidClassRange
  | classRangeBoundary
  | unclosedClass
  | invalidDecimal
  | emptyHexadecimal
  | invalidHexadecimal
  | invalidHexadecimalDigit
  | incompleteEscape
  | unrecognizedEscape
  /-- A negation of flags with no flag after it. -/
  | danglingNegation
  | duplicateFlag
  | repeatedNegation
  | unfinishedFlags
  | unrecognizedFlag
  | duplicateGroupName
  | emptyGroupName
  | invalidGroupName
  | unclosedGroupName
  | unclosedGroup
  | unopenedGroup
  | nestedTooDeeply
  | invalidCounts
  | emptyCount
  | unclosedCounts
  | missingRepetition
  | unclosedWordAssertion
  | unrecognizedWordAssertion
  /-- A brace after a word boundary where the pattern ends. -/
  | unfinishedWordAssertion
  | invalidProperty
  | backreference
  | lookAround
  /-- A character beyond ASCII, or a property, where only bytes may stand. -/
  | unicodeNotAllowed
  | invalidEncoding
  | unknownProperty
  | unknownPropertyValue
  /-- A shorthand class of all scripts. -/
  | shorthandUnavailable
  /-- Matching of all scripts without regard to case. -/
  | caseUnavailable
  deriving DecidableEq, Repr

def Fault.message : Fault → String
  | invalidClassEscape => "invalid escape sequence found in character class"
  | invalidClassRange =>
      "invalid character class range, the start must be <= the end"
  | classRangeBoundary => "invalid range boundary, must be a literal"
  | unclosedClass => "unclosed character class"
  | invalidDecimal => "decimal literal invalid"
  | emptyHexadecimal => "hexadecimal literal empty"
  | invalidHexadecimal => "hexadecimal literal is not a Unicode scalar value"
  | invalidHexadecimalDigit => "invalid hexadecimal digit"
  | incompleteEscape =>
      "incomplete escape sequence, reached end of pattern prematurely"
  | unrecognizedEscape => "unrecognized escape sequence"
  | danglingNegation => "dangling flag negation operator"
  | duplicateFlag => "duplicate flag"
  | repeatedNegation => "flag negation operator repeated"
  | unfinishedFlags => "expected flag but got end of regex"
  | unrecognizedFlag => "unrecognized flag"
  | duplicateGroupName => "duplicate capture group name"
  | emptyGroupName => "empty capture group name"
  | invalidGroupName => "invalid capture group character"
  | unclosedGroupName => "unclosed capture group name"
  | unclosedGroup => "unclosed group"
  | unopenedGroup => "unopened group"
  | nestedTooDeeply =>
      "exceed the maximum number of nested parentheses/brackets (" ++
        toString nestingLimit ++ ")"
  | invalidCounts =>
      "invalid repetition count range, the start must be <= the end"
  | emptyCount => "repetition quantifier expects a valid decimal"
  | unclosedCounts => "unclosed counted repetition"
  | missingRepetition => "repetition operator missing expression"
  | unclosedWordAssertion =>
      "special word boundary assertion is either unclosed or contains an invalid character"
  | unrecognizedWordAssertion =>
      "unrecognized special word boundary assertion, " ++
        "valid choices are: start, end, start-half or end-half"
  | unfinishedWordAssertion =>
      "found either the beginning of a special word boundary or a bounded repetition " ++
        "on a \\b with an opening brace, but no closing brace"
  | invalidProperty => "invalid Unicode character class"
  | backreference => "backreferences are not supported"
  | lookAround => "look-around, including look-ahead and look-behind, is not supported"
  | unicodeNotAllowed => "Unicode not allowed here"
  | invalidEncoding => "pattern can match invalid UTF-8"
  | unknownProperty => "Unicode property not found"
  | unknownPropertyValue => "Unicode property value not found"
  | shorthandUnavailable =>
      "Unicode-aware Perl class not found (make sure the unicode-perl feature is enabled)"
  | caseUnavailable =>
      "Unicode-aware case insensitivity matching is not available " ++
        "(make sure the unicode-case feature is enabled)"

/-- A fault and where it is. -/
structure LocatedFault where
  fault : Fault
  span : Span
  /-- Where the earlier thing is that is repeated. -/
  earlier? : Option Span
  deriving DecidableEq, Repr

namespace LocatedFault

/-- All places a fault points to, in their order in the pattern. -/
def spans (located : LocatedFault) : List Span :=
  match located.earlier? with
  | none => [located.span]
  | some earlier =>
      if located.span.isBefore earlier then [located.span, earlier] else [earlier, located.span]

end LocatedFault

/-- What either fails with a located fault or has a result. -/
abbrev Attempt := Except LocatedFault

/-- Fail with a fault at a span. -/
def faultAt {Result : Type} (span : Span) (fault : Fault) : Attempt Result :=
  .error ⟨fault, span, none⟩

/-- Fail with a fault at a span that repeats an earlier one. -/
def repeatedAt {Result : Type} (span earlier : Span) (fault : Fault) : Attempt Result :=
  .error ⟨fault, span, some earlier⟩

end HackToolchain.Pattern
