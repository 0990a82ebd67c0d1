import HackToolchain.Codegen.Symbol
import HackToolchain.Text.Decimal
import Mathlib.Data.List.Basic

/-!
# Texts of numbered symbols

Static variables, the places of a comparison and return points are written as
a stem, a dot and a number.  The number is what follows the last dot, and the
stems of the three kinds end differently, so the text tells the symbol back
whatever strings the units and callees are called.
-/

namespace HackToolchain.Codegen

/-- A name that ends in a dot and a number. -/
def numbered (stem : String) (number : Nat) : String :=
  stem ++ "." ++ toString number

theorem toList_numbered (stem : String) (number : Nat) :
    (numbered stem number).toList = stem.toList ++ '.' :: Text.numeral number := by
  rw [numbered, Text.toString_eq_numeral]
  simp

theorem dot_notMem_numeral (number : Nat) : '.' ∉ Text.numeral number := by
  intro member
  have digit := List.all_eq_true.1 (Text.numeral_all_isDigit number) _ member
  exact absurd digit (by decide)

theorem numeral_inj {first second : Nat} (same : Text.numeral first = Text.numeral second) :
    first = second := by
  have read := Text.readNumeral?_numeral first
  rw [same, Text.readNumeral?_numeral] at read
  exact (Option.some.inj read).symm

/-- What follows the last mark is the longest end of a text without the mark. -/
theorem takeWhile_after {mark : Char} {after : List Char} (fresh : mark ∉ after)
    (before : List Char) :
    ((before ++ mark :: after).reverse.takeWhile (· != mark)).reverse = after := by
  have free : ∀ character ∈ after.reverse, (character != mark) = true := by
    intro character member
    rw [List.mem_reverse] at member
    simpa using fun same : character = mark => fresh (same ▸ member)
  rw [List.reverse_append, List.reverse_cons, List.append_assoc,
    List.takeWhile_append_of_pos free]
  simp

/-- Two texts with the same last mark agree before and after it. -/
theorem split_last_inj {mark : Char} {before after before' after' : List Char}
    (fresh : mark ∉ after) (fresh' : mark ∉ after')
    (same : before ++ mark :: after = before' ++ mark :: after') :
    before = before' ∧ after = after' := by
  have ends : after = after' := by
    rw [← takeWhile_after fresh before, same, takeWhile_after fresh' before']
  subst ends
  exact ⟨List.append_cancel_right same, rfl⟩

theorem numbered_inj {stem other : String} {number another : Nat}
    (same : numbered stem number = numbered other another) :
    stem = other ∧ number = another := by
  have lists := congrArg String.toList same
  rw [toList_numbered, toList_numbered] at lists
  obtain ⟨stems, numerals⟩ :=
    split_last_inj (dot_notMem_numeral number) (dot_notMem_numeral another) lists
  exact ⟨String.toList_inj.1 stems, numeral_inj numerals⟩

namespace Symbol

/-- Symbols of the generated code's own making that are labels. -/
def isSynthetic : Symbol → Bool
  | mark _ _ _ | returnPoint _ _ => true
  | _ => false

/-- Symbols that are written with a number after a last dot. -/
def isNumbered : Symbol → Bool
  | static _ _ | mark _ _ _ | returnPoint _ _ => true
  | _ => false

theorem isNumbered_of_isSynthetic {symbol : Symbol} (synthetic : symbol.isSynthetic) :
    symbol.isNumbered := by
  cases symbol <;> simp_all [isSynthetic, isNumbered]

def stem : Symbol → String
  | static unit _ => unit ++ ".static"
  | mark unit place _ => unit ++ "$CMP_" ++ place.name
  | returnPoint callee _ => callee ++ "$ret"
  | _ => ""

def number : Symbol → Nat
  | static _ index => index.toNat
  | mark _ _ number | returnPoint _ number => number
  | _ => 0

theorem text_eq_numbered {symbol : Symbol} (isNumbered : symbol.isNumbered) :
    symbol.text = numbered symbol.stem symbol.number := by
  cases symbol with
  | register | cell | given => cases isNumbered
  | static unit index => exact String.toList_inj.1 (by simp [text, numbered, stem, number])
  | mark unit place number => rfl
  | returnPoint callee number =>
      exact String.toList_inj.1 (by simp [text, numbered, stem, Symbol.number])

theorem dot_mem_text {symbol : Symbol} (numbered : symbol.isNumbered) :
    '.' ∈ symbol.text.toList := by
  rw [text_eq_numbered numbered, toList_numbered]
  simp

/-- The place of a comparison is read off the end of its stem. -/
theorem stem_mark_inj {unit other : String} {place another : Mark} {first second : Nat}
    (same : (mark unit place first).stem = (mark other another second).stem) :
    unit = other ∧ place = another := by
  have lists := congrArg String.toList same
  simp only [stem, String.toList_append] at lists
  have split (name : String) (spot : Mark) :
      name.toList ++ "$CMP_".toList ++ spot.name.toList =
        (name.toList ++ "$CMP".toList) ++ '_' :: spot.name.toList := by
    simp
  rw [split, split] at lists
  obtain ⟨units, places⟩ :=
    split_last_inj (by cases place <;> decide) (by cases another <;> decide) lists
  refine ⟨String.toList_inj.1 (List.append_cancel_right units), ?_⟩
  cases place <;> cases another <;> first | rfl | exact absurd places (by decide)

/-- The last character of a stem, which tells the three kinds of numbered symbols apart. -/
def stemEnd : Symbol → Option Char
  | static _ _ => some 'c'
  | mark _ place _ => place.name.toList.getLast?
  | returnPoint _ _ => some 't'
  | _ => none

theorem getLast?_stem (symbol : Symbol) : symbol.stem.toList.getLast? = symbol.stemEnd := by
  cases symbol with
  | register | cell | given => rfl
  | static unit index => simp [stem, stemEnd]
  | mark unit place number => cases place <;> simp [stem, stemEnd, Mark.name]
  | returnPoint callee number => simp [stem, stemEnd]

theorem stemEnd_mark (unit : String) (place : Mark) (number : Nat) :
    (mark unit place number).stemEnd ≠ some 'c' ∧ (mark unit place number).stemEnd ≠ some 't' := by
  cases place <;> simp [stemEnd, Mark.name]

/-- Different numbered symbols have different texts. -/
theorem text_inj {first second : Symbol} (numbered : first.isNumbered)
    (numbered' : second.isNumbered) (same : first.text = second.text) : first = second := by
  rw [text_eq_numbered numbered, text_eq_numbered numbered'] at same
  obtain ⟨stems, numbers⟩ := numbered_inj same
  -- The ends of the stems tell the kinds apart, the stems the symbols of one kind.
  have ends : first.stemEnd = second.stemEnd := by
    rw [← getLast?_stem, ← getLast?_stem, stems]
  cases first with
  | register | cell | given => cases numbered
  | static unit index =>
      cases second with
      | register | cell | given => cases numbered'
      | static other another =>
          have units : unit = other := by
            simpa [stem, ← String.toList_inj] using stems
          rw [units, UInt16.toNat_inj.1 numbers]
      | mark other place number => exact absurd ends.symm (stemEnd_mark other place number).1
      | returnPoint callee number => exact absurd ends (by simp [stemEnd])
  | mark unit place number =>
      cases second with
      | register | cell | given => cases numbered'
      | static other index => exact absurd ends (stemEnd_mark unit place number).1
      | mark other another number' =>
          obtain ⟨rfl, rfl⟩ := stem_mark_inj stems
          exact congrArg (mark unit place) numbers
      | returnPoint callee number' => exact absurd ends (stemEnd_mark unit place number).2
  | returnPoint callee number =>
      cases second with
      | register | cell | given => cases numbered'
      | static other index => exact absurd ends (by simp [stemEnd])
      | mark other place number' => exact absurd ends.symm (stemEnd_mark other place number').2
      | returnPoint other number' =>
          have callees : callee = other := by
            simpa [stem, ← String.toList_inj] using stems
          rw [callees, show number = number' from numbers]

end Symbol

end HackToolchain.Codegen
