/-!
# Decimal numerals

A numeral is a nonempty run of ASCII digits; leading zeros are allowed when
reading and never written.  Reading a written numeral gives back the number.
-/

namespace HackToolchain.Text

/-- The decimal digits of a number, without leading zeros. -/
def numeral (number : Nat) : List Char :=
  Nat.toDigits 10 number

/-- The number that a nonempty run of ASCII digits denotes. -/
def readNumeral? (text : List Char) : Option Nat :=
  if text ≠ [] ∧ text.all Char.isDigit then some (Nat.ofDigitChars 10 text 0) else none

/-- The number a numeral denotes, if it fits into sixteen bits. -/
def readNumeral16? (text : List Char) : Option UInt16 :=
  (readNumeral? text).bind fun number =>
    if number < UInt16.size then some (UInt16.ofNat number) else none

/-- The same with one plus sign allowed in front. -/
def readSigned16? : List Char → Option UInt16
  | '+' :: digits => readNumeral16? digits
  | text => readNumeral16? text

theorem toString_eq_numeral (number : Nat) : toString number = String.ofList (numeral number) :=
  Nat.toString_eq_ofList_toDigits

theorem numeral_all_isDigit (number : Nat) : (numeral number).all Char.isDigit = true :=
  List.all_eq_true.2 fun _ member => Nat.isDigit_of_mem_toDigits (by decide) (by decide) member

theorem numeral_ne_nil (number : Nat) : numeral number ≠ [] :=
  Nat.toDigits_ne_nil

/-- Reading a written numeral gives back the number, whatever zeros stand before it. -/
theorem readNumeral?_zeros_numeral (zeros number : Nat) :
    readNumeral? (List.replicate zeros '0' ++ numeral number) = some number := by
  have digits : (List.replicate zeros '0' ++ numeral number).all Char.isDigit = true := by
    simp only [List.all_append, numeral_all_isDigit, Bool.and_true, List.all_eq_true,
      List.mem_replicate]
    rintro character ⟨-, rfl⟩
    decide
  have nonempty : List.replicate zeros '0' ++ numeral number ≠ [] := by
    simp [numeral_ne_nil]
  rw [readNumeral?, if_pos ⟨nonempty, digits⟩, Nat.ofDigitChars_append,
    Nat.ofDigitChars_replicate_zero, Nat.mul_zero]
  exact congrArg some Nat.ofDigitChars_ten_toDigits

theorem readNumeral?_numeral (number : Nat) : readNumeral? (numeral number) = some number :=
  readNumeral?_zeros_numeral 0 number

theorem readNumeral16?_numeral (number : UInt16) :
    readNumeral16? (numeral number.toNat) = some number := by
  simp [readNumeral16?, readNumeral?_numeral, number.toNat_lt_size]

end HackToolchain.Text
