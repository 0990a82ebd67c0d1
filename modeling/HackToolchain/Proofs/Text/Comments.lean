import HackToolchain.Proofs.Text.Trimming

/-!
# Texts without comments

A text has no comment when cutting at the first `//` leaves it whole, which is
when `//` occurs nowhere in it.  Putting characters other than `/` around such
a text makes no comment.
-/

namespace HackToolchain.Text

/-- A text in which no comment starts. -/
def CommentFree (text : List Char) : Prop :=
  beforeComment text = text

theorem beforeComment_cons_of_ne {first : Char} (rest : List Char) (other : first ≠ '/') :
    beforeComment (first :: rest) = first :: beforeComment rest := by
  rw [beforeComment]
  intro tail slash
  exact absurd slash other

/-- A text is free of comments exactly when two slashes stand nowhere side by side. -/
theorem commentFree_iff {text : List Char} : CommentFree text ↔ ¬ ['/', '/'] <:+: text := by
  unfold CommentFree
  fun_induction beforeComment text with
  | case1 => simp
  | case2 rest =>
      have inside : ['/', '/'] <:+: '/' :: '/' :: rest :=
        (List.prefix_append ['/', '/'] rest).isInfix
      simp [inside]
  | case3 first rest single ih =>
      rw [List.cons.injEq, List.infix_cons_iff, not_or, ← ih]
      refine ⟨fun same => ⟨?_, same.2⟩, fun apart => ⟨rfl, apart.2⟩⟩
      rintro ⟨tail, same⟩
      obtain ⟨slash, rest_eq⟩ := List.cons.inj same
      exact single tail slash.symm rest_eq.symm

theorem commentFree_of_notMem {text : List Char} (free : '/' ∉ text) : CommentFree text := by
  refine commentFree_iff.2 fun inside => free ?_
  exact inside.subset (List.mem_cons_self)

theorem commentFree_cons {first : Char} {rest : List Char} (other : first ≠ '/')
    (free : CommentFree rest) : CommentFree (first :: rest) := by
  rw [CommentFree, beforeComment_cons_of_ne rest other, free]

/-- Text without slashes may follow. -/
theorem CommentFree.append {text more : List Char} (free : CommentFree text)
    (plain : '/' ∉ more) : CommentFree (text ++ more) := by
  unfold CommentFree at free ⊢
  fun_induction beforeComment text with
  | case1 => exact commentFree_of_notMem plain
  | case2 rest => simp at free
  | case3 first rest single ih =>
      have tail := ih (List.cons.inj free).2
      rw [List.cons_append, beforeComment]
      · rw [tail]
      · intro after slash same
        cases rest with
        | nil => exact plain (by rw [show more = '/' :: after from same]; exact List.mem_cons_self)
        | cons second others =>
            obtain ⟨rfl, -⟩ := List.cons.inj same
            exact single others slash rfl

/-- A line without comment and with visible ends says itself. -/
theorem content_eq_self {line : List Char} (free : CommentFree line)
    (starts : ∀ character ∈ line.head?, isBlank character = false)
    (ends : ∀ character ∈ line.getLast?, isBlank character = false) : content line = line := by
  rw [content, free, trim_eq_self starts ends]

end HackToolchain.Text
