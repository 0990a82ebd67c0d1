import HackToolchain.Proofs.Text.Comments
import HackToolchain.Proofs.Text.Runs

/-!
# Spaced words and margins

The same words can be written with gaps of any width between them, and a line
says the same whatever blanks and comment stand around it.  Both are read back:
the words from the spaced row, and the row from the line.
-/

namespace HackToolchain.Text

/-! ## Words and gaps -/

/-- Blanks that may stand between two words of a line. -/
def IsGap (text : List Char) : Prop :=
  ∀ character ∈ text, isSeparator character ∧ character ≠ '\n'

instance : DecidablePred IsGap := fun text =>
  List.decidableBAll (fun character => isSeparator character ∧ character ≠ '\n') text

/-- Words in a row, with a gap between each and the next. -/
inductive Spaced : List (List Char) → List Char → Prop where
  | single (word : List Char) : Spaced [word] word
  | cons (word : List Char) {words : List (List Char)} {gap text : List Char}
      (wide : gap ≠ []) (blank : IsGap gap) (rest : Spaced words text) :
      Spaced (word :: words) (word ++ (gap ++ text))

/-- A text that is one word and starts no comment. -/
def IsWord (text : List Char) : Prop :=
  text ≠ [] ∧ ∀ character ∈ text, isBlank character = false ∧ character ≠ '/'

instance : DecidablePred IsWord := fun text =>
  @instDecidableAnd _ _ inferInstance
    (List.decidableBAll (fun character => isBlank character = false ∧ character ≠ '/') text)

/-- A gap before a text belongs to no run. -/
theorem runs_gap_append {gap : List Char} (blank : IsGap gap) (text : List Char) :
    runs (gap ++ text) = runs text :=
  runs_blanks_append (fun character member => isBlank_of_isSeparator (blank character member).1) text

theorem runs_word {word : List Char} (isWord : IsWord word) : runs word = [word] := by
  rw [runs, List.splitOnP_eq_singleton fun character member => (isWord.2 character member).1]
  simp [isWord.1]

namespace Spaced

/-- A row with single spaces in it. -/
theorem space (word : List Char) {words : List (List Char)} {text : List Char}
    (rest : Spaced words text) : Spaced (word :: words) (word ++ ([' '] ++ text)) := by
  refine .cons word (List.cons_ne_nil _ _) ?_ rest
  intro character member
  rw [List.mem_singleton.1 member]
  decide

/-- The runs of a row are its words. -/
theorem runs_eq {words : List (List Char)} {text : List Char} (spaced : Spaced words text)
    (each : ∀ word ∈ words, IsWord word) : runs text = words := by
  induction spaced with
  | single word => exact runs_word (each word List.mem_cons_self)
  | @cons word words gap text wide blank rest ih =>
      obtain ⟨first, others, rfl⟩ := List.exists_cons_of_ne_nil wide
      have own := runs_word (each word List.mem_cons_self)
      have later := ih fun other member => each other (List.mem_cons_of_mem _ member)
      have ends := isBlank_of_isSeparator (blank first List.mem_cons_self).1
      have narrower : IsGap others := fun character member =>
        blank character (List.mem_cons_of_mem _ member)
      rw [List.cons_append, runs_append_blank ends, own, runs_gap_append narrower, later]
      rfl

/-- A row holds separators and visible characters, and no slash. -/
theorem mem_cases {words : List (List Char)} {text : List Char} (spaced : Spaced words text)
    (each : ∀ word ∈ words, IsWord word) {character : Char} (member : character ∈ text) :
    (isBlank character = false ∨ isSeparator character ∧ character ≠ '\n') ∧ character ≠ '/' := by
  induction spaced with
  | single word =>
      have own := (each word List.mem_cons_self).2 character member
      exact ⟨.inl own.1, own.2⟩
  | @cons word words gap text wide blank rest ih =>
      rcases List.mem_append.1 member with inWord | behind
      · have own := (each word List.mem_cons_self).2 character inWord
        exact ⟨.inl own.1, own.2⟩
      · rcases List.mem_append.1 behind with inGap | later
        · refine ⟨.inr (blank character inGap), ?_⟩
          rintro rfl
          exact absurd (blank '/' inGap).1 (by decide)
        · exact ih (fun other inside => each other (List.mem_cons_of_mem _ inside)) later

/-- The words that are read from a row are the words it was written with. -/
theorem words_eq {words : List (List Char)} {text : List Char} (spaced : Spaced words text)
    (each : ∀ word ∈ words, IsWord word) : Text.words text = words := by
  rw [words_eq_runs, spaced.runs_eq each]
  intro character member blank
  rcases (spaced.mem_cases each member).1 with visible | separator
  · rw [blank] at visible
    cases visible
  · exact separator.1

theorem ne_nil {words : List (List Char)} {text : List Char} (spaced : Spaced words text)
    (each : ∀ word ∈ words, IsWord word) : text ≠ [] := by
  cases spaced with
  | single => exact (each _ List.mem_cons_self).1
  | cons word => simp [(each word List.mem_cons_self).1]

/-- A row starts with the first character of its first word. -/
theorem not_isBlank_head? {words : List (List Char)} {text : List Char}
    (spaced : Spaced words text) (each : ∀ word ∈ words, IsWord word) :
    ∀ character ∈ text.head?, isBlank character = false := by
  intro character starts
  cases spaced with
  | single =>
      exact ((each _ List.mem_cons_self).2 character (List.mem_of_head? starts)).1
  | cons word =>
      have own := each word List.mem_cons_self
      rw [List.head?_append_of_ne_nil _ own.1] at starts
      exact (own.2 character (List.mem_of_head? starts)).1

/-- A row ends with the last character of its last word. -/
theorem not_isBlank_getLast? {words : List (List Char)} {text : List Char}
    (spaced : Spaced words text) (each : ∀ word ∈ words, IsWord word) :
    ∀ character ∈ text.getLast?, isBlank character = false := by
  induction spaced with
  | single word =>
      intro character last
      exact ((each word List.mem_cons_self).2 character (List.mem_of_getLast? last)).1
  | @cons word words gap text wide blank rest ih =>
      have later (other : List Char) (member : other ∈ words) : IsWord other :=
        each other (List.mem_cons_of_mem _ member)
      intro character last
      rw [← List.append_assoc, List.getLast?_append_of_ne_nil _ (rest.ne_nil later)] at last
      exact ih later character last

end Spaced

/-! ## Margins and comments -/

/-- Blanks that may stand at either end of a line; a return before the line feed is one. -/
def IsMargin (text : List Char) : Prop :=
  ∀ character ∈ text, isBlank character ∧ character ≠ '\n'

instance : DecidablePred IsMargin := fun text =>
  List.decidableBAll (fun character => isBlank character ∧ character ≠ '\n') text

/-- A line with a text in it: blanks around the text, and perhaps a comment behind. -/
inductive Frames (said : List Char) : List Char → Prop where
  | plain {left right : List Char} (before : IsMargin left) (after : IsMargin right) :
      Frames said (left ++ (said ++ right))
  | remarked {left right remark : List Char} (before : IsMargin left) (after : IsMargin right)
      (keeps : '\n' ∉ remark) : Frames said (left ++ (said ++ right) ++ '/' :: '/' :: remark)

theorem IsMargin.slash_notMem {text : List Char} (margin : IsMargin text) : '/' ∉ text :=
  fun member => absurd (margin '/' member).1 (by decide)

/-- A text between margins is what is left when the blanks are cut off. -/
theorem trim_margins {left said right : List Char} (before : IsMargin left)
    (after : IsMargin right) (starts : ∀ character ∈ said.head?, isBlank character = false)
    (ends : ∀ character ∈ said.getLast?, isBlank character = false) :
    trim (left ++ (said ++ right)) = said := by
  have start : trimStart (left ++ (said ++ right)) = trimStart (said ++ right) :=
    List.dropWhile_append_of_pos fun character member => (before character member).1
  have cut : trimEnd (said ++ right) = trimEnd said := by
    have blank : ∀ character ∈ right.reverse, isBlank character = true := fun character member =>
      (after character (List.mem_reverse.1 member)).1
    rw [trimEnd, List.reverse_append, List.dropWhile_append_of_pos blank, trimEnd]
  rw [trim, start]
  cases said with
  | nil =>
      have none : trimStart right = [] :=
        List.dropWhile_eq_nil_iff.2 fun character member => (after character member).1
      rw [List.nil_append, none]
      rfl
  | cons first rest =>
      have visible := starts first rfl
      have whole := trim_eq_self starts ends
      rw [trim, trimStart_of_not_isBlank visible] at whole
      rw [List.cons_append, trimStart_of_not_isBlank visible, ← List.cons_append, cut, whole]

/-- What stands before the first comment is kept. -/
theorem beforeComment_append_comment {text : List Char} (free : '/' ∉ text)
    (remark : List Char) : beforeComment (text ++ '/' :: '/' :: remark) = text := by
  induction text with
  | nil => rfl
  | cons first rest ih =>
      rw [List.mem_cons, not_or] at free
      rw [List.cons_append, beforeComment_cons_of_ne _ (Ne.symm free.1), ih free.2]

namespace Frames

/-- A line says the text it was written with. -/
theorem content_eq {said line : List Char} (frames : Frames said line) (free : '/' ∉ said)
    (starts : ∀ character ∈ said.head?, isBlank character = false)
    (ends : ∀ character ∈ said.getLast?, isBlank character = false) : content line = said := by
  have slash {left right : List Char} (before : IsMargin left) (after : IsMargin right) :
      '/' ∉ left ++ (said ++ right) := by
    simp only [List.mem_append, not_or]
    exact ⟨before.slash_notMem, free, after.slash_notMem⟩
  cases frames with
  | plain before after =>
      have whole := commentFree_of_notMem (slash before after)
      rw [content, whole, trim_margins before after starts ends]
  | remarked before after =>
      rw [content, beforeComment_append_comment (slash before after),
        trim_margins before after starts ends]

/-- A line with blanks and a comment only says nothing. -/
theorem content_eq_nil {line : List Char} (frames : Frames [] line) : content line = [] :=
  frames.content_eq List.not_mem_nil (by simp) (by simp)

theorem newline_notMem {said line : List Char} (frames : Frames said line)
    (free : '\n' ∉ said) : '\n' ∉ line := by
  have margin {text : List Char} (isMargin : IsMargin text) : '\n' ∉ text :=
    fun member => (isMargin '\n' member).2 rfl
  cases frames with
  | plain before after =>
      simp only [List.mem_append, not_or]
      exact ⟨margin before, free, margin after⟩
  | remarked before after keeps =>
      simp only [List.mem_append, List.mem_cons, not_or]
      exact ⟨⟨margin before, free, margin after⟩, by decide, by decide, keeps⟩

end Frames

end HackToolchain.Text
