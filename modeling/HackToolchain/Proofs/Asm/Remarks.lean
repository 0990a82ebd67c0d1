import HackToolchain.Asm.Program
import HackToolchain.Proofs.Asm.Rendering
import HackToolchain.Proofs.Text.Remarks

/-!
# Remarks in rendered text

In the text of lines that are each one line of it, the remarks are where the
lines are remarks.  Deleting them gives the text of the other lines, and the
assembler does not notice.
-/

namespace HackToolchain.Asm

/-- Only a remark is written as one. -/
theorem Line.isRemark_text (line : Line String) :
    Text.isRemark line.text.toList = line.isRemark := by
  cases line with
  | number value =>
      rw [text_number]
      exact Text.isRemark_cons_of_ne _ (by decide)
  | load name =>
      rw [text_load]
      exact Text.isRemark_cons_of_ne _ (by decide)
  | compute computation =>
      obtain ⟨written, alphabet⟩ := Compute.text_alphabet computation
      obtain ⟨first, rest, cut⟩ := List.exists_cons_of_ne_nil written
      change Text.isRemark computation.text.toList = false
      rw [cut]
      refine Text.isRemark_cons_of_ne rest ?_
      rintro rfl
      exact absurd (alphabet '/' (cut ▸ List.mem_cons_self)) (by decide)
  | declare name =>
      rw [text_declare]
      exact Text.isRemark_cons_of_ne _ (by decide)
  | remark remarked =>
      rw [text_remark]
      rfl

section single

variable {lines : List (Line String)} (single : ∀ line ∈ lines, '\n' ∉ line.text.toList)

include single

theorem withoutRemarks_render :
    Text.withoutRemarks (render lines) = render (lines.filter fun line => !line.isRemark) := by
  have others : ∀ line ∈ lines.filter fun line => !line.isRemark, '\n' ∉ line.text.toList :=
    fun line member => single line (List.mem_of_mem_filter member)
  have left : (Text.lines (render lines).toList).filter (fun line => !Text.isRemark line) =
      Text.lines (render (lines.filter fun line => !line.isRemark)).toList := by
    rw [lines_render single, lines_render others, List.filter_append, List.filter_map]
    simp only [Function.comp_def, Line.isRemark_text]
    rfl
  rw [Text.withoutRemarks, left, Text.lines, List.intercalate_splitOn, String.ofList_toList]

theorem remarks_render :
    Text.remarks (render lines) =
      (lines.filter Line.isRemark).map fun line => line.text.toList.drop 3 := by
  rw [Text.remarks, lines_render single, List.filter_append, List.filter_map,
    show [([] : List Char)].filter Text.isRemark = [] from rfl, List.append_nil, List.map_map]
  simp only [Function.comp_def, Line.isRemark_text]

end single

namespace Program

/-- A text and what is left of it without its remarks are assembled to the same, or both refused. -/
theorem assemble_withoutRemarks (text : String) :
    assemble (Text.withoutRemarks text) = assemble text := by
  rw [assemble, assemble, Text.contents_withoutRemarks]

end Program

end HackToolchain.Asm
