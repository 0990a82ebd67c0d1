import HackToolchain.Asm.Program
import Mathlib.Logic.Basic

/-!
# Resolving names

Names that are neither predefined nor labels become variables in the order in
which they are met.  A name that was met keeps its position among them, so the
value it gets then is its value in the whole program.  Only a variable can fail
to get a value: when the addresses for cells are used up.
-/

namespace HackToolchain.Asm

/-- The cells of variables that have room follow each other. -/
theorem toNat_variableCell {position : Nat} (small : position < variableLimit) :
    (variableCell position).toNat = variableBase + position := by
  rw [variableLimit] at small
  exact UInt16.toNat_ofNat_of_lt' (by omega)

/-- The value of a name, given the labels and the variables of a whole program. -/
def nameValue? (labels : Labels) (names : List String) (name : String) : Option UInt16 :=
  match predefined? name with
  | some value => some value
  | none =>
      match labels.lookup name with
      | some place => some (.ofNat place)
      | none => (names.idxOf? name).map variableCell

/-- A name that becomes a variable: it is neither predefined nor a label. -/
def IsVariable (labels : Labels) (name : String) : Prop :=
  predefined? name = none ∧ labels.lookup name = none

theorem nameValue?_of_isVariable {labels : Labels} {names : List String} {name : String}
    (free : IsVariable labels name) :
    nameValue? labels names name = (names.idxOf? name).map variableCell := by
  rw [nameValue?, free.1, free.2]

instance (labels : Labels) : DecidablePred (IsVariable labels) := fun name =>
  inferInstanceAs (Decidable (predefined? name = none ∧ labels.lookup name = none))

theorem not_isVariable_of_lookup {labels : Labels} {name : String} {place : Nat}
    (label : labels.lookup name = some place) : ¬ IsVariable labels name := by
  intro free
  rw [free.2] at label
  cases label

/-- The known variables after a name was met. -/
def meet (labels : Labels) (known : List String) (name : String) : List String :=
  if IsVariable labels name ∧ name ∉ known then known ++ [name] else known

section meeting

variable {labels : Labels} {known : List String} {name : String}

theorem meet_of_not_isVariable (bound : ¬ IsVariable labels name) (known : List String) :
    meet labels known name = known :=
  if_neg fun new => bound new.1

theorem meet_of_mem (member : name ∈ known) : meet labels known name = known :=
  if_neg fun new => new.2 member

theorem meet_of_not_mem (free : IsVariable labels name) (absent : name ∉ known) :
    meet labels known name = known ++ [name] :=
  if_pos ⟨free, absent⟩

theorem prefix_meet (labels : Labels) (known : List String) (name : String) :
    known <+: meet labels known name := by
  unfold meet
  split
  next => exact List.prefix_append known [name]
  next => exact List.prefix_rfl

theorem nodup_meet (distinct : known.Nodup) : (meet labels known name).Nodup := by
  unfold meet
  split
  next new =>
    refine List.nodup_append.2 ⟨distinct, by simp, ?_⟩
    rintro other before another last rfl
    exact new.2 (List.mem_singleton.1 last ▸ before)
  next => exact distinct

theorem mem_meet {other : String} :
    other ∈ meet labels known name ↔ other ∈ known ∨ other = name ∧ IsVariable labels name := by
  unfold meet
  split
  next new =>
    rw [List.mem_append, List.mem_singleton]
    exact or_congr_right (and_iff_left new.1).symm
  next old =>
    refine (or_iff_left_of_imp ?_).symm
    rintro ⟨rfl, free⟩
    exact not_not.1 fun absent => old ⟨free, absent⟩

variable {names : List String}

theorem prefix_foldl_meet (labels : Labels) (names known : List String) :
    known <+: names.foldl (meet labels) known := by
  induction names generalizing known with
  | nil => exact List.prefix_rfl
  | cons name rest ih => exact (prefix_meet labels known name).trans (ih _)

theorem nodup_foldl_meet (distinct : known.Nodup) : (names.foldl (meet labels) known).Nodup := by
  induction names generalizing known with
  | nil => exact distinct
  | cons name rest ih => exact ih (nodup_meet distinct)

/-- The variables are the names that were known and those met that have no other value. -/
theorem mem_foldl_meet {other : String} :
    other ∈ names.foldl (meet labels) known ↔
      other ∈ known ∨ other ∈ names ∧ IsVariable labels other := by
  induction names generalizing known with
  | nil => simp
  | cons name rest ih =>
      rw [List.foldl_cons, ih, mem_meet, List.mem_cons, or_and_right, or_assoc]
      refine or_congr_right (or_congr_left ?_)
      constructor
      · rintro ⟨rfl, free⟩
        exact ⟨rfl, free⟩
      · rintro ⟨rfl, free⟩
        exact ⟨rfl, free⟩

theorem foldl_meet_of_not_isVariable (bound : ∀ name ∈ names, ¬ IsVariable labels name)
    (known : List String) : names.foldl (meet labels) known = known := by
  induction names with
  | nil => rfl
  | cons name rest ih =>
      obtain ⟨own, others⟩ := List.forall_mem_cons.1 bound
      rw [List.foldl_cons, meet_of_not_isVariable own, ih others]

end meeting

theorem idxOf?_of_continued {known names : List String} {name : String} {position : Nat}
    (continued : known <+: names) (found : known.idxOf? name = some position) :
    names.idxOf? name = some position := by
  obtain ⟨later, rfl⟩ := continued
  obtain ⟨inside, same, before⟩ := List.idxOf?_eq_some_iff.1 found
  refine List.idxOf?_eq_some_iff.2 ⟨by simp; omega, ?_, ?_⟩
  · rw [List.getElem_append_left inside, same]
  · intro earlier less
    rw [List.getElem_append_left (Nat.lt_trans less inside)]
    exact before earlier less

/-- A name that has its value keeps it when more variables become known. -/
theorem nameValue?_of_continued {labels : Labels} {known names : List String} {name : String}
    (met : IsVariable labels name → name ∈ known) (continued : known <+: names) :
    nameValue? labels names name = nameValue? labels known name := by
  unfold nameValue?
  cases predefined : predefined? name with
  | some value => rfl
  | none =>
      cases label : labels.lookup name with
      | some place => rfl
      | none =>
          have known := List.isSome_idxOf?.2 (met ⟨predefined, label⟩)
          obtain ⟨position, found⟩ := Option.isSome_iff_exists.1 known
          rw [found, idxOf?_of_continued continued found]

/-- A name that is met gets its value, unless it is a variable and there is no next cell. -/
theorem resolve_eq (labels : Labels) (known : List String) (name : String) :
    resolve labels known name =
      if IsVariable labels name → known.length < variableLimit then
        .ok ((nameValue? labels (meet labels known name) name).getD 0, meet labels known name)
      else .error .variableOverflow := by
  cases predefined : predefined? name with
  | some value =>
      have bound : ¬ IsVariable labels name := fun free => by cases predefined.symm.trans free.1
      rw [if_pos fun free => absurd free bound, meet_of_not_isVariable bound, resolve, nameValue?]
      simp only [predefined, Option.getD_some]
  | none =>
      cases label : labels.lookup name with
      | some place =>
          have bound := not_isVariable_of_lookup label
          rw [if_pos fun free => absurd free bound, meet_of_not_isVariable bound, resolve,
            nameValue?]
          simp only [predefined, label, Option.getD_some]
      | none =>
          have free : IsVariable labels name := ⟨predefined, label⟩
          rw [nameValue?_of_isVariable free, resolve]
          simp only [predefined, label, resolveVariable, free, forall_const]
          refine if_congr Iff.rfl ?_ rfl
          cases index : known.idxOf? name with
          | some position =>
              have found : (known.idxOf? name).isSome := by simp [index]
              rw [meet_of_mem (List.isSome_idxOf?.1 found), index]
              rfl
          | none =>
              have absent := List.idxOf?_eq_none_iff.1 index
              have last : (known ++ [name]).idxOf? name = some known.length := by
                refine List.idxOf?_eq_some_iff.2 ⟨by simp, by simp, ?_⟩
                intro earlier less
                rw [List.getElem_append_left less]
                exact fun same => absent (same ▸ List.getElem_mem less)
              rw [meet_of_not_mem free absent, last]
              rfl

/-! ## Statements -/

/-- The instruction of a statement, given the labels and the variables of a whole program. -/
def Statement.settle (labels : Labels) (names : List String) : Statement → Instruction
  | number value => .load value.toInt16
  | load name => .load ((nameValue? labels names name).getD 0).toInt16
  | compute instruction => .compute instruction

/-- The known variables after a statement was met. -/
def Statement.meet (labels : Labels) (known : List String) : Statement → List String
  | load name => Asm.meet labels known name
  | number _ | compute _ => known

/-- A statement that loads a variable needs an address for the next cell. -/
def Statement.HasRoom (labels : Labels) (known : List String) : Statement → Prop
  | load name => IsVariable labels name → known.length < variableLimit
  | number _ | compute _ => True

namespace Statement

variable {labels : Labels} {known names : List String} {statement : Statement}

instance (labels : Labels) (known : List String) : DecidablePred (HasRoom labels known)
  | load name =>
      inferInstanceAs (Decidable (IsVariable labels name → known.length < variableLimit))
  | number _ | compute _ => inferInstanceAs (Decidable True)

theorem resolve_eq (labels : Labels) (known : List String) (statement : Statement) :
    statement.resolve labels known =
      if statement.HasRoom labels known then
        .ok (statement.settle labels (statement.meet labels known), statement.meet labels known)
      else .error .variableOverflow := by
  cases statement with
  | number | compute => rfl
  | load name =>
      rw [resolve, Asm.resolve_eq]
      by_cases room : IsVariable labels name → known.length < variableLimit
      · rw [if_pos room, if_pos (show (load name).HasRoom labels known from room)]
        rfl
      · rw [if_neg room, if_neg (show ¬ (load name).HasRoom labels known from room)]

theorem prefix_meet (labels : Labels) (known : List String) (statement : Statement) :
    known <+: statement.meet labels known := by
  cases statement with
  | load name => exact Asm.prefix_meet labels known name
  | number | compute => exact List.prefix_rfl

/-- Where there is room, the known variables stay within the addresses. -/
theorem length_meet_le (room : statement.HasRoom labels known)
    (few : known.length ≤ variableLimit) :
    (statement.meet labels known).length ≤ variableLimit := by
  cases statement with
  | number | compute => exact few
  | load name =>
      rw [meet, Asm.meet]
      split
      next new =>
        rw [List.length_append]
        exact room new.1
      next => exact few

/-- What a statement becomes when it is met is what it becomes in the whole program. -/
theorem settle_of_continued (continued : statement.meet labels known <+: names) :
    statement.settle labels (statement.meet labels known) = statement.settle labels names := by
  cases statement with
  | number | compute => rfl
  | load name =>
      have met : IsVariable labels name → name ∈ Asm.meet labels known name :=
        fun free => mem_meet.2 (.inr ⟨rfl, free⟩)
      rw [settle, settle, nameValue?_of_continued met continued]
      rfl

end Statement

/-! ## Lines -/

section placing

variable {labels : Labels} {line : List Char} {rest : List (List Char)} {known : List String}
  {placed : Array Instruction} {statement : Statement}

/-- A line that is read is placed before the rest if there is room for what it loads. -/
theorem placeInstructions_of_read (read : Statement.read line = .ok statement) :
    placeInstructions labels (line :: rest) known placed =
      if statement.HasRoom labels known then
        placeInstructions labels rest (statement.meet labels known)
          (placed.push (statement.settle labels (statement.meet labels known)))
      else .error .variableOverflow := by
  rw [placeInstructions, read]
  simp only [statement.resolve_eq]
  by_cases room : statement.HasRoom labels known
  · rw [if_pos room, if_pos room]
  · rw [if_neg room, if_neg room]

/-- Where lines are placed, the first one was read and had room. -/
theorem exists_read_of_placeInstructions {result : Array Instruction × List String}
    (done : placeInstructions labels (line :: rest) known placed = .ok result) :
    ∃ statement, Statement.read line = .ok statement ∧ statement.HasRoom labels known ∧
      placeInstructions labels rest (statement.meet labels known)
        (placed.push (statement.settle labels (statement.meet labels known))) = .ok result := by
  cases read : Statement.read line with
  | error fault =>
      rw [placeInstructions, read] at done
      cases done
  | ok statement =>
      rw [placeInstructions_of_read read] at done
      split at done
      next room => exact ⟨statement, rfl, room, done⟩
      next => cases done

end placing

/-- No matter what lines say, their variables stay within the addresses. -/
theorem length_le_of_placeInstructions {labels : Labels} {lines : List (List Char)}
    {known names : List String} {placed rom : Array Instruction}
    (done : placeInstructions labels lines known placed = .ok (rom, names))
    (few : known.length ≤ variableLimit) : names.length ≤ variableLimit := by
  induction lines generalizing known placed with
  | nil =>
      cases done
      exact few
  | cons line rest ih =>
      obtain ⟨statement, -, room, done⟩ := exists_read_of_placeInstructions done
      exact ih done (statement.length_meet_le room few)

end HackToolchain.Asm
