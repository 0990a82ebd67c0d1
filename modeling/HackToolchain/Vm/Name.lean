/-!
# Symbols in source text

Labels and functions are named by symbols: nonempty words over letters,
digits and the four signs `_ . $ :` that do not start with a digit.
-/

namespace HackToolchain.Vm

/-- A character that may occur in a symbol. -/
def isSymbolChar (character : Char) : Bool :=
  character.isAlphanum || character == '_' || character == '.' || character == '$' ||
    character == ':'

/-- A word that may name a label or a function. -/
def isSymbol (word : List Char) : Bool :=
  match word with
  | [] => false
  | first :: _ => !first.isDigit && word.all isSymbolChar

theorem isSymbolChar_of_isSymbol {word : List Char} (symbol : isSymbol word)
    {character : Char} (member : character ∈ word) : isSymbolChar character := by
  cases word with
  | nil => simp at member
  | cons first rest =>
      simp only [isSymbol, Bool.and_eq_true] at symbol
      exact List.all_eq_true.1 symbol.2 character member

end HackToolchain.Vm
