import HackToolchain.Vm.Source
import Mathlib.Data.List.Forall2

/-!
# The grammar of source lines

What a line means is said here by rules on its words, without reading them in
any order: a line is a command, is skipped, or has the one fault that comes
first.  Operands are judged from left to right, then the range of an index,
then a pop into a constant, then words that are left over.  Every line with a
word has exactly one outcome by these rules, and it is the one that reading
yields.
-/

namespace HackToolchain.Vm

/-- A word that is a decimal numeral of a number; leading zeros are allowed. -/
def IsNumeral (word : List Char) (number : Nat) : Prop :=
  word ≠ [] ∧ (∀ character ∈ word, character.isDigit) ∧ Nat.ofDigitChars 10 word 0 = number

/-- The operands that a keyword asks for, in order. -/
def Keyword.operands : Keyword → List Operand
  | push | pop => [.segment, .index]
  | label | goto | ifGoto => [.labelName]
  | function => [.functionName, .localCount]
  | call => [.functionName, .argumentCount]
  | ret | operate _ => []

/-- The words that may stand for an operand, whatever the rest of the line says. -/
def Operand.Accepts : Operand → List Char → Prop
  | segment, word => ∃ named : Segment, word = named.name.toList
  | labelName, word | functionName, word => isSymbol word
  | index, word | localCount, word | argumentCount, word =>
      ∃ number : UInt16, IsNumeral word number.toNat

/-- The fault of a word that does not stand for an operand. -/
def Operand.invalid : Operand → String → Fault
  | segment => .invalidSegment
  | labelName | functionName => .invalidSymbol
  | index | localCount | argumentCount => .invalidIndex

/-- The operand words of a command after its keyword. -/
inductive Spells : Keyword → Words → Command → Prop where
  | push {word : List Char} (segment : Segment) (index : UInt16)
      (numeral : IsNumeral word index.toNat) :
      Spells .push [segment.name.toList, word] (.push segment index)
  | pop {word : List Char} (segment : Segment) (index : UInt16)
      (numeral : IsNumeral word index.toNat) :
      Spells .pop [segment.name.toList, word] (.pop segment index)
  | label {name : List Char} (symbol : isSymbol name) :
      Spells .label [name] (.label (String.ofList name))
  | goto {name : List Char} (symbol : isSymbol name) :
      Spells .goto [name] (.goto (String.ofList name))
  | ifGoto {name : List Char} (symbol : isSymbol name) :
      Spells .ifGoto [name] (.ifGoto (String.ofList name))
  | function {name word : List Char} (symbol : isSymbol name) (locals : UInt16)
      (numeral : IsNumeral word locals.toNat) :
      Spells .function [name, word] (.function (String.ofList name) locals)
  | call {name word : List Char} (symbol : isSymbol name) (arguments : UInt16)
      (numeral : IsNumeral word arguments.toNat) :
      Spells .call [name, word] (.call (String.ofList name) arguments)
  | ret : Spells .ret [] .ret
  | operate (operator : Operator) : Spells (.operate operator) [] (.operate operator)

def Command.cell? : Command → Option (Segment × UInt16)
  | push segment index | pop segment index => some (segment, index)
  | _ => none

/-- The outcome of a line by its words. -/
inductive Means : Words → Outcome → Prop where
  | skipped {first : List Char} {rest : Words}
      (unknown : ∀ keyword : Keyword, first ≠ keyword.name.toList) :
      Means (first :: rest) .skipped
  | missing {keyword : Keyword} {before after : List Operand} {operand : Operand} {words : Words}
      (asked : keyword.operands = before ++ operand :: after)
      (accepted : List.Forall₂ Operand.Accepts before words) :
      Means (keyword.name.toList :: words) (.fault (.missingOperand keyword operand))
  | invalid {keyword : Keyword} {before after : List Operand} {operand : Operand}
      {words rest : Words} {word : List Char}
      (asked : keyword.operands = before ++ operand :: after)
      (accepted : List.Forall₂ Operand.Accepts before words)
      (refused : ¬ operand.Accepts word) :
      Means (keyword.name.toList :: (words ++ word :: rest))
        (.fault (operand.invalid (String.ofList word)))
  | outOfRange {keyword : Keyword} {words rest : Words} {command : Command} {segment : Segment}
      {index limit : UInt16} (spelled : Spells keyword words command)
      (cell : command.cell? = some (segment, index)) (bounded : segment.maxIndex? = some limit)
      (exceeds : limit < index) :
      Means (keyword.name.toList :: (words ++ rest))
        (.fault (.indexOutOfRange segment index limit))
  | popConstant {words rest : Words} {index : UInt16}
      (spelled : Spells .pop words (.pop .constant index))
      (allowed : Segment.constant.Allows index) :
      Means (Keyword.pop.name.toList :: (words ++ rest)) (.fault .popConstant)
  | extra {keyword : Keyword} {words rest : Words} {command : Command}
      (spelled : Spells keyword words command) (valid : command.Valid) (more : rest ≠ []) :
      Means (keyword.name.toList :: (words ++ rest))
        (.fault (.extraOperands (rest.map String.ofList)))
  | command {keyword : Keyword} {words : Words} {command : Command}
      (spelled : Spells keyword words command) (valid : command.Valid) :
      Means (keyword.name.toList :: words) (.command command)

/-! ## Readers of single words -/

theorem readNumeral16?_eq_some_iff {word : List Char} {number : UInt16} :
    Text.readNumeral16? word = some number ↔ IsNumeral word number.toNat := by
  unfold Text.readNumeral16? Text.readNumeral? IsNumeral
  by_cases digits : word ≠ [] ∧ word.all Char.isDigit
  · have each := List.all_eq_true.1 digits.2
    rw [if_pos digits, Option.bind_some]
    constructor
    · intro read
      split at read
      next fits =>
        refine ⟨digits.1, each, ?_⟩
        rw [← Option.some.inj read]
        exact (UInt16.toNat_ofNat_of_lt fits).symm
      next => cases read
    · rintro ⟨-, -, value⟩
      rw [value, if_pos number.toNat_lt_size, UInt16.ofNat_toNat]
  · rw [if_neg digits, Option.bind_none]
    constructor
    · intro read
      cases read
    · rintro ⟨nonempty, each, -⟩
      exact absurd ⟨nonempty, List.all_eq_true.2 each⟩ digits

theorem readSymbol?_eq_some_iff {word : List Char} {name : String} :
    Words.readSymbol? word = some name ↔ isSymbol word ∧ name = String.ofList word := by
  unfold Words.readSymbol?
  split
  next symbol => simp [symbol, eq_comm]
  next plain => simp [plain]

namespace Words

variable {Value : Type} {keyword : Keyword} {operand : Operand} {word : List Char} {rest : Words}

theorem take_of_some {read? : List Char → Option Value} {invalid : String → Fault} {value : Value}
    (reads : read? word = some value) :
    take keyword operand read? invalid (word :: rest) = .ok (value, rest) := by
  rw [take, reads]

/-- The fault of an operand that is not there: its word is missing or is another word. -/
def stop (keyword : Keyword) (operand : Operand) : Words → Fault
  | [] => .missingOperand keyword operand
  | word :: _ => operand.invalid (String.ofList word)

/-- Taking an operand stops where no word is left or the next one does not read. -/
theorem take_of_stops {read? : List Char → Option Value}
    (stops : ∀ word ∈ rest.head?, ∀ value, read? word ≠ some value) :
    take keyword operand read? operand.invalid rest = .error (stop keyword operand rest) := by
  cases rest with
  | nil => rfl
  | cons word others => rw [take, Option.eq_none_iff_forall_ne_some.2 (stops word rfl), stop]

theorem takeSegment_name (segment : Segment) :
    takeSegment keyword (segment.name.toList :: rest) = .ok (segment, rest) :=
  take_of_some (Segment.ofWord?_name segment)

theorem takeNumber_numeral {number : UInt16} (numeral : IsNumeral word number.toNat) :
    takeNumber keyword operand (word :: rest) = .ok (number, rest) :=
  take_of_some (readNumeral16?_eq_some_iff.2 numeral)

theorem takeSymbol_symbol (symbol : isSymbol word) :
    takeSymbol keyword operand (word :: rest) = .ok (String.ofList word, rest) :=
  take_of_some (readSymbol?_eq_some_iff.2 ⟨symbol, rfl⟩)

theorem takeSegment_of_stops (stops : ∀ word ∈ rest.head?, ¬ Operand.segment.Accepts word) :
    takeSegment keyword rest = .error (stop keyword .segment rest) :=
  take_of_stops fun word first _ found =>
    stops word first ⟨_, Segment.ofWord?_eq_some_iff.1 found⟩

theorem takeNumber_of_stops
    (stops : ∀ word ∈ rest.head?, ¬ ∃ number : UInt16, IsNumeral word number.toNat)
    (kind : operand.invalid = .invalidIndex) :
    takeNumber keyword operand rest = .error (stop keyword operand rest) := by
  rw [takeNumber, ← kind]
  exact take_of_stops fun word first _ found =>
    stops word first ⟨_, readNumeral16?_eq_some_iff.1 found⟩

theorem takeSymbol_of_stops (stops : ∀ word ∈ rest.head?, ¬ isSymbol word)
    (kind : operand.invalid = .invalidSymbol) :
    takeSymbol keyword operand rest = .error (stop keyword operand rest) := by
  rw [takeSymbol, ← kind]
  exact take_of_stops fun word first _ found =>
    stops word first (readSymbol?_eq_some_iff.1 found).1

/-- A step after one that succeeded goes on with its result. -/
theorem ok_bind {α β : Type} (value : α) (next : α → Except Fault β) :
    (Except.ok value >>= next) = next value := rfl

theorem takeCell_of_exceeds {segment : Segment} {index limit : UInt16}
    (numeral : IsNumeral word index.toNat) (bounded : segment.maxIndex? = some limit)
    (exceeds : limit < index) :
    takeCell keyword (segment.name.toList :: word :: rest) =
      .error (.indexOutOfRange segment index limit) := by
  unfold takeCell
  rw [takeSegment_name]
  change (takeNumber keyword .index (word :: rest) >>= _) = _
  rw [takeNumber_numeral numeral, ok_bind]
  dsimp only
  rw [bounded]
  exact if_pos exceeds

theorem takeCell_of_allows {segment : Segment} {index : UInt16}
    (numeral : IsNumeral word index.toNat) (allows : segment.Allows index) :
    takeCell keyword (segment.name.toList :: word :: rest) = .ok ((segment, index), rest) := by
  unfold takeCell
  rw [takeSegment_name]
  change (takeNumber keyword .index (word :: rest) >>= _) = _
  rw [takeNumber_numeral numeral, ok_bind]
  dsimp only
  cases bounded : segment.maxIndex? with
  | none => rfl
  | some limit => exact if_neg (UInt16.not_lt.2 (allows limit bounded))

theorem finish_nil (command : Command) : finish command [] = .ok command := rfl

theorem finish_of_ne_nil (command : Command) (more : rest ≠ []) :
    finish command rest = .error (.extraOperands (rest.map String.ofList)) := by
  cases rest with
  | nil => exact absurd rfl more
  | cons first others => rfl

end Words

/-! ## Readers of lines -/

/-- An operand among two that are asked for is the first or the second. -/
theorem asked_pair {first second operand : Operand} {before after : List Operand}
    (asked : [first, second] = before ++ operand :: after) :
    (before = [] ∧ operand = first) ∨ (before = [first] ∧ operand = second) := by
  rcases before with _ | ⟨one, _ | ⟨two, others⟩⟩ <;> simp_all

theorem asked_single {first operand : Operand} {before after : List Operand}
    (asked : [first] = before ++ operand :: after) : before = [] ∧ operand = first := by
  rcases before with _ | ⟨one, others⟩ <;> simp_all

namespace Keyword

/-- Reading stops at the first operand that is not there. -/
theorem readOperands_of_stops {keyword : Keyword} {before after : List Operand}
    {operand : Operand} {words rest : Words}
    (asked : keyword.operands = before ++ operand :: after)
    (accepted : List.Forall₂ Operand.Accepts before words)
    (stops : ∀ word ∈ rest.head?, ¬ operand.Accepts word) :
    keyword.readOperands (words ++ rest) = .error (Words.stop keyword operand rest) := by
  cases keyword with
  | ret | operate => simp [operands] at asked
  | label | goto | ifGoto =>
      obtain ⟨rfl, rfl⟩ := asked_single asked
      cases accepted
      rw [readOperands, List.nil_append, Words.takeSymbol_of_stops stops rfl]
      rfl
  | push | pop =>
      obtain ⟨rfl, rfl⟩ | ⟨rfl, rfl⟩ := asked_pair asked
      · cases accepted
        rw [readOperands, List.nil_append, Words.takeCell, Words.takeSegment_of_stops stops]
        rfl
      · obtain ⟨word, others, ⟨segment, rfl⟩, none, rfl⟩ :=
          List.forall₂_cons_left_iff.1 accepted
        cases none
        rw [readOperands, List.cons_append, List.nil_append, Words.takeCell,
          Words.takeSegment_name]
        change ((Words.takeNumber _ .index rest >>= _) >>= _) = _
        rw [Words.takeNumber_of_stops stops rfl]
        rfl
  | function | call =>
      obtain ⟨rfl, rfl⟩ | ⟨rfl, rfl⟩ := asked_pair asked
      · cases accepted
        rw [readOperands, List.nil_append, Words.takeSymbol_of_stops stops rfl]
        rfl
      · obtain ⟨word, others, symbol, none, rfl⟩ := List.forall₂_cons_left_iff.1 accepted
        cases none
        rw [readOperands, List.cons_append, List.nil_append, Words.takeSymbol_symbol symbol]
        change (Words.takeNumber _ _ rest >>= _) = _
        rw [Words.takeNumber_of_stops stops rfl]
        rfl

/-- The operands of a valid command are read, and what follows them is left to the end. -/
theorem readOperands_of_valid {keyword : Keyword} {words rest : Words} {command : Command}
    (spelled : Spells keyword words command) (valid : command.Valid) :
    keyword.readOperands (words ++ rest) = rest.finish command := by
  cases spelled with
  | push segment index numeral =>
      rw [readOperands, List.cons_append, List.cons_append,
        Words.takeCell_of_allows numeral valid]
      rfl
  | pop segment index numeral =>
      rw [readOperands, List.cons_append, List.cons_append,
        Words.takeCell_of_allows numeral valid.1]
      exact if_neg valid.2
  | label symbol | goto symbol | ifGoto symbol =>
      rw [readOperands, List.cons_append, Words.takeSymbol_symbol symbol]
      rfl
  | function symbol number numeral | call symbol number numeral =>
      rw [readOperands, List.cons_append, List.cons_append, Words.takeSymbol_symbol symbol]
      change (Words.takeNumber _ _ _ >>= _) = _
      rw [Words.takeNumber_numeral numeral]
      rfl
  | ret => rfl
  | operate operator => rfl

theorem readOperands_of_exceeds {keyword : Keyword} {words rest : Words} {command : Command}
    {segment : Segment} {index limit : UInt16} (spelled : Spells keyword words command)
    (cell : command.cell? = some (segment, index)) (bounded : segment.maxIndex? = some limit)
    (exceeds : limit < index) :
    keyword.readOperands (words ++ rest) = .error (.indexOutOfRange segment index limit) := by
  cases spelled with
  | push named number numeral | pop named number numeral =>
      obtain ⟨rfl, rfl⟩ := Prod.mk.inj (Option.some.inj cell)
      rw [readOperands, List.cons_append, List.cons_append,
        Words.takeCell_of_exceeds numeral bounded exceeds]
      rfl
  | _ => cases cell

theorem readOperands_popConstant {words rest : Words} {index : UInt16}
    (spelled : Spells .pop words (.pop .constant index))
    (allowed : Segment.constant.Allows index) :
    pop.readOperands (words ++ rest) = .error .popConstant := by
  cases spelled with
  | pop segment number numeral =>
      rw [readOperands, List.cons_append, List.cons_append,
        Words.takeCell_of_allows numeral allowed]
      rfl

end Keyword

end HackToolchain.Vm
