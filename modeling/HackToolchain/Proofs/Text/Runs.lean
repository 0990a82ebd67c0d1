import HackToolchain.Proofs.Text.Trimming

/-!
# Runs of visible characters

The words of a line are read up to the first blank that is no separator.  They
are the runs of visible characters before it; those behind it are left unread.
Where no such blank occurs the words are simply the runs.
-/

namespace HackToolchain.Text

/-- The longest runs of characters of a line that are not blank, in order. -/
def runs (line : List Char) : List (List Char) :=
  (line.splitOnP isBlank).filter fun run => !run.isEmpty

/-- The part of a line behind what is read of it. -/
def unread (line : List Char) : List Char :=
  line.dropWhile fun character => !isBlank character || isSeparator character

/-- A line whose only blanks are separators. -/
def IsSeparated (line : List Char) : Prop :=
  ∀ character ∈ line, isBlank character → isSeparator character

instance : DecidablePred IsSeparated := fun line =>
  List.decidableBAll (fun character => isBlank character → isSeparator character) line

/-- A text is split at the same places by tests that agree on its characters. -/
theorem splitOnP_congr {first second : Char → Bool} {text : List Char}
    (agree : ∀ character ∈ text, first character = second character) :
    text.splitOnP first = text.splitOnP second := by
  induction text with
  | nil => rfl
  | cons head tail ih =>
      rw [List.splitOnP_cons_eq_if_modifyHead, List.splitOnP_cons_eq_if_modifyHead,
        agree head List.mem_cons_self, ih fun character member => agree character (List.mem_cons_of_mem _ member)]

/-! ## Blanks between runs -/

/-- A blank ends a run. -/
theorem runs_append_blank {blank : Char} (isBlank : isBlank blank) (before after : List Char) :
    runs (before ++ blank :: after) = runs before ++ runs after := by
  unfold runs
  rw [List.splitOnP_append_cons before after isBlank, List.filter_append]

theorem runs_cons_blank {blank : Char} (isBlank : isBlank blank) (rest : List Char) :
    runs (blank :: rest) = runs rest :=
  runs_append_blank isBlank [] rest

/-- Blanks before a text belong to no run. -/
theorem runs_blanks_append {blanks : List Char} (blank : ∀ character ∈ blanks, isBlank character)
    (text : List Char) : runs (blanks ++ text) = runs text := by
  induction blanks with
  | nil => rfl
  | cons first rest ih =>
      rw [List.cons_append, runs_cons_blank (blank first List.mem_cons_self),
        ih fun character member => blank character (List.mem_cons_of_mem _ member)]

/-- Blanks behind a text belong to no run. -/
theorem runs_append_blanks {blanks : List Char} (blank : ∀ character ∈ blanks, isBlank character)
    (text : List Char) : runs (text ++ blanks) = runs text := by
  cases blanks with
  | nil => rw [List.append_nil]
  | cons first rest =>
      have behind := runs_blanks_append
        (fun character member => blank character (List.mem_cons_of_mem _ member)) []
      rw [List.append_nil] at behind
      rw [runs_append_blank (blank first List.mem_cons_self), behind]
      exact List.append_nil _

/-- Trimming takes no part of a run away. -/
theorem runs_trim (text : List Char) : runs (trim text) = runs text := by
  have ends : runs (trimEnd (trimStart text)) = runs (trimStart text) := by
    conv_rhs => rw [← @List.rdropWhile_append_rtakeWhile _ isBlank (trimStart text)]
    exact (runs_append_blanks (fun _ => List.mem_rtakeWhile_imp) _).symm
  have starts : runs (trimStart text) = runs text := by
    conv_rhs => rw [← List.takeWhile_append_dropWhile (p := isBlank) (l := text)]
    exact (runs_blanks_append (fun _ => List.mem_takeWhile_imp) _).symm
  rw [trim, ends, starts]

/-- A text with a visible character has a run. -/
theorem runs_ne_nil {text : List Char} {character : Char} (member : character ∈ text)
    (visible : isBlank character = false) : runs text ≠ [] := by
  induction text with
  | nil => cases member
  | cons first rest ih =>
      cases blank : isBlank first with
      | true =>
          rw [runs_cons_blank blank]
          refine ih ((List.mem_cons.1 member).resolve_left ?_)
          rintro rfl
          rw [blank] at visible
          cases visible
      | false =>
          obtain ⟨run, others, split⟩ :=
            List.exists_cons_of_ne_nil (List.splitOnP_ne_nil isBlank rest)
          rw [runs, List.splitOnP_cons_eq_if_modifyHead, blank, split]
          simp

/-! ## Runs that are read -/

/-- Up to the first blank that is no separator, the words are the runs. -/
theorem runs_reach (line : List Char) : runs (reach line) = words line := by
  have agree : ∀ character ∈ reach line, isBlank character = isSeparator character := by
    intro character member
    have kept := List.mem_takeWhile_imp member
    cases separator : isSeparator character with
    | true => exact isBlank_of_isSeparator separator
    | false => simpa [separator] using kept
  rw [runs, splitOnP_congr agree, words]

/-- The runs of a line are its words and the runs that are left unread. -/
theorem runs_eq_append (line : List Char) : runs line = words line ++ runs (unread line) := by
  have whole : reach line ++ unread line = line := List.takeWhile_append_dropWhile
  cases behind : unread line with
  | nil =>
      rw [behind, List.append_nil] at whole
      rw [← runs_reach, whole]
      exact (List.append_nil _).symm
  | cons first rest =>
      have stops := List.head?_dropWhile_not
        (fun character => !isBlank character || isSeparator character) line
      rw [show line.dropWhile _ = first :: rest from behind] at stops
      have blank : isBlank first := by
        cases visible : isBlank first with
        | true => rfl
        | false => simp [visible] at stops
      rw [← runs_reach, runs_cons_blank blank, ← runs_append_blank blank, ← behind, whole]

/-- Nothing is left unread of a line whose only blanks are separators. -/
theorem unread_eq_nil_iff {line : List Char} : unread line = [] ↔ IsSeparated line := by
  rw [unread, List.dropWhile_eq_nil_iff]
  refine forall₂_congr fun character _ => ?_
  cases isBlank character <;> simp

/-- Without a foreign blank the words of a line are its runs. -/
theorem words_eq_runs {line : List Char} (plain : IsSeparated line) : words line = runs line := by
  rw [runs_eq_append, unread_eq_nil_iff.2 plain]
  exact (List.append_nil _).symm

/-- In a line that ends visibly, a foreign blank leaves a run unread. -/
theorem runs_unread_eq_nil_iff {line : List Char}
    (ends : ∀ character ∈ line.getLast?, isBlank character = false) :
    runs (unread line) = [] ↔ IsSeparated line := by
  rw [← unread_eq_nil_iff]
  constructor
  · intro none
    by_contra some
    obtain ⟨before, whole⟩ : unread line <:+ line := List.dropWhile_suffix _
    have last : (unread line).getLast? = line.getLast? := by
      conv_rhs => rw [← whole, List.getLast?_append_of_ne_nil _ some]
    have inside := List.getLast_mem some
    refine runs_ne_nil inside (ends _ ?_) none
    rw [← last]
    exact List.getLast?_eq_getLast_of_ne_nil some
  · intro empty
    rw [empty]
    rfl

end HackToolchain.Text
