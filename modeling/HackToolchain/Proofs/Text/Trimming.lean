import HackToolchain.Text.Line
import Mathlib.Data.List.DropRight

/-!
# Trimmed texts

What a line says neither starts nor ends with a blank, and a line that neither
starts nor ends with a blank and has no comment says exactly itself.
-/

namespace HackToolchain.Text

theorem trimEnd_eq_rdropWhile (text : List Char) : trimEnd text = text.rdropWhile isBlank := rfl

/-- The first character of a trimmed text is visible. -/
theorem not_isBlank_of_trim_eq_cons {text rest : List Char} {first : Char}
    (trimmed : trim text = first :: rest) : isBlank first = false := by
  have leading : first :: rest <+: trimStart text := by
    rw [← trimmed, trim, trimEnd_eq_rdropWhile]
    exact List.rdropWhile_prefix _ _
  obtain ⟨tail, same⟩ := leading
  have head := List.head?_dropWhile_not isBlank text
  rw [show text.dropWhile isBlank = first :: (rest ++ tail) from same.symm] at head
  simpa using head

/-- The last character of a trimmed text is visible. -/
theorem not_isBlank_getLast?_trim {text : List Char} :
    ∀ character ∈ (trim text).getLast?, isBlank character = false := by
  intro character last
  rw [trim, trimEnd_eq_rdropWhile] at last
  have nonempty : (trimStart text).rdropWhile isBlank ≠ [] := by
    rintro empty
    rw [empty] at last
    cases last
  rw [List.getLast?_eq_getLast_of_ne_nil nonempty, Option.mem_some_iff] at last
  have visible := List.rdropWhile_last_not isBlank (trimStart text) nonempty
  rw [last] at visible
  simpa using visible

/-- Nothing is cut off before a visible character. -/
theorem trim_cons {first : Char} (visible : isBlank first = false) (rest : List Char) :
    trim (first :: rest) = first :: trimEnd rest := by
  rw [trim, trimStart_of_not_isBlank visible, trimEnd_eq_rdropWhile, trimEnd_eq_rdropWhile,
    List.rdropWhile, List.reverse_cons, List.dropWhile_append]
  split
  next empty =>
    rw [List.dropWhile_cons_of_neg (by simp [visible]), List.rdropWhile,
      List.isEmpty_iff.1 empty]
    rfl
  next => rw [List.reverse_append, List.rdropWhile]; rfl

/-- A text with visible characters at both ends is its own trimming. -/
theorem trim_eq_self {text : List Char}
    (starts : ∀ character ∈ text.head?, isBlank character = false)
    (ends : ∀ character ∈ text.getLast?, isBlank character = false) : trim text = text := by
  have start : trimStart text = text := by
    cases text with
    | nil => rfl
    | cons first rest => exact trimStart_of_not_isBlank (starts first rfl)
  rw [trim, start, trimEnd_eq_rdropWhile, List.rdropWhile_eq_self_iff]
  intro nonempty
  simpa using ends _ (List.getLast?_eq_getLast_of_ne_nil nonempty)

end HackToolchain.Text
