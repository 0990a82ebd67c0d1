import HackToolchain.Text.Line
import Mathlib.Data.List.Basic

/-!
# Remarks

A remark is a line that begins with `//`.  It says nothing, so every text says
the same once its remarks are deleted.
-/

namespace HackToolchain.Text

/-- A line that begins with `//`. -/
def isRemark : List Char → Bool
  | '/' :: '/' :: _ => true
  | _ => false

/-- A text after deletion of its remarks. -/
def withoutRemarks (text : String) : String :=
  String.ofList (['\n'].intercalate ((lines text.toList).filter fun line => !isRemark line))

/-- The remarks of a text in order, each without its `//` and the space after it. -/
def remarks (text : String) : List (List Char) :=
  ((lines text.toList).filter isRemark).map (List.drop 3)

theorem content_of_isRemark {line : List Char} (remark : isRemark line) : content line = [] := by
  unfold isRemark at remark
  split at remark
  next rest => exact content_comment rest
  next => cases remark

theorem isRemark_cons_of_ne {first : Char} (rest : List Char) (other : first ≠ '/') :
    isRemark (first :: rest) = false := by
  unfold isRemark
  split
  next tail slashes => exact absurd (List.cons.inj slashes).1 other
  next => rfl

/-- A line has no line feed in it. -/
theorem newline_notMem_of_mem_lines {text line : List Char} (member : line ∈ lines text) :
    '\n' ∉ line := by
  rw [lines] at member
  induction text generalizing line with
  | nil =>
      rw [List.splitOn_nil, List.mem_singleton] at member
      rw [member]
      exact List.not_mem_nil
  | cons first rest ih =>
      rw [List.splitOn_cons_eq_if_modifyHead] at member
      obtain ⟨head, others, cut⟩ :=
        List.exists_cons_of_ne_nil (List.splitOn_ne_nil '\n' rest)
      rw [cut] at ih member
      split at member
      next =>
        rcases List.mem_cons.1 member with rfl | inside
        · exact List.not_mem_nil
        · exact ih inside
      next other =>
        rw [List.modifyHead_cons] at member
        rcases List.mem_cons.1 member with rfl | inside
        · refine List.not_mem_cons_of_ne_of_not_mem (fun same => other ?_) (ih List.mem_cons_self)
          rw [← same]
          exact beq_self_eq_true '\n'
        · exact ih (List.mem_cons_of_mem _ inside)

/-- What lines say is what those that are no remarks say. -/
theorem filter_content_filter_isRemark (lines : List (List Char)) :
    ((lines.filter fun line => !isRemark line).map content).filter (fun line => !line.isEmpty) =
      (lines.map content).filter fun line => !line.isEmpty := by
  induction lines with
  | nil => rfl
  | cons line rest ih =>
      cases remark : isRemark line with
      | true =>
          have silent := content_of_isRemark remark
          rw [List.filter_cons_of_neg (by simp [remark]), ih, List.map_cons, silent]
          exact (List.filter_cons_of_neg (by simp)).symm
      | false =>
          rw [List.filter_cons_of_pos (by simp [remark]), List.map_cons, List.map_cons,
            List.filter_cons, List.filter_cons, ih]

/-- Deleting the remarks of a text does not change what it says. -/
theorem contents_withoutRemarks (text : String) :
    contents (withoutRemarks text).toList = contents text.toList := by
  rw [contents, contents, withoutRemarks, String.toList_ofList]
  by_cases all : ((lines text.toList).filter fun line => !isRemark line) = []
  · -- No line is left, and the empty text has one line, which is empty.
    rw [← filter_content_filter_isRemark (lines text.toList), all]
    rfl
  · have single : ∀ line ∈ (lines text.toList).filter fun line => !isRemark line, '\n' ∉ line :=
      fun line member => newline_notMem_of_mem_lines (List.mem_of_mem_filter member)
    rw [lines, List.splitOn_intercalate '\n' single all]
    exact filter_content_filter_isRemark _

end HackToolchain.Text
