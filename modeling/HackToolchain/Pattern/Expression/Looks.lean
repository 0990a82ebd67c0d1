import HackToolchain.Pattern.Expression.Length

/-!
# Looks of expressions

Some expressions can only be found where something is true of the place, such
as the start of the text; and some ask what cannot be answered.
-/

namespace HackToolchain.Pattern.Expression

mutual

/-- Whether a look is asked for at the start, or at the end, of all texts. -/
def isBoundBy (wanted : Look) (atEnd : Bool) : Expression → Bool
  | empty | literal _ | set _ _ => false
  | .look asked => asked = wanted
  | repetition counts _ body => 0 < counts.least && body.isBoundBy wanted atEnd
  | capture _ body => body.isBoundBy wanted atEnd
  | concatenation items =>
      if atEnd then endsBoundBy wanted items else startsBoundBy wanted items
  | alternation branches => !branches.isEmpty && areBoundBy wanted atEnd branches

/-- The same of the first of some items, or one that follows hollow items only. -/
def startsBoundBy (wanted : Look) : List Expression → Bool
  | [] => false
  | first :: rest =>
      first.isBoundBy wanted false || (first.isHollow && startsBoundBy wanted rest)

/-- The same of the last of some items, or one that only hollow items follow. -/
def endsBoundBy (wanted : Look) : List Expression → Bool
  | [] => false
  | first :: rest =>
      endsBoundBy wanted rest || (rest.all isHollow && first.isBoundBy wanted true)

/-- The same of each of the expressions. -/
def areBoundBy (wanted : Look) (atEnd : Bool) : List Expression → Bool
  | [] => true
  | first :: rest => first.isBoundBy wanted atEnd && areBoundBy wanted atEnd rest

end

mutual

/-- Whether something is asked about words of all scripts. -/
def asksForWords : Expression → Bool
  | empty | literal _ | set _ _ => false
  | look (.word true _) => true
  | look _ => false
  | repetition _ _ body | capture _ body => body.asksForWords
  | concatenation parts | alternation parts => askForWords parts

/-- Whether one of the expressions asks about words of all scripts. -/
def askForWords : List Expression → Bool
  | [] => false
  | first :: rest => first.asksForWords || askForWords rest

end

end HackToolchain.Pattern.Expression
