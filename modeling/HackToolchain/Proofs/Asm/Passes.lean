import HackToolchain.Proofs.Asm.OddNames

/-!
# Whether the two passes agree

The first pass counts every line that declares nothing, the second places every
line that does not begin with a parenthesis.  A line with a parenthesis that is
not closed is counted and not placed, so each one moves all labels behind it by
one.  An address is loaded as far as sixteen bits hold it.
-/

namespace HackToolchain.Asm

/-- How many of the lines become instructions. -/
def placedCount (lines : List (List Char)) : Nat :=
  lines.countP fun line => !isAside line

/-- A line that begins with a parenthesis but declares nothing. -/
def isUnclosed (line : List Char) : Bool :=
  isAside line && (declared? line).isNone

def unclosedCount (lines : List (List Char)) : Nat :=
  lines.countP isUnclosed

theorem isAside_of_declared? {line : List Char} {label : String}
    (declares : declared? line = some label) : isAside line := by
  unfold declared? at declares
  split at declares
  next => rfl
  next => cases declares

/-- The first pass counts the lines that are placed and those that are not closed. -/
theorem counted_eq (lines : List (List Char)) :
    (lines.countP fun line => (declared? line).isNone) =
      placedCount lines + unclosedCount lines := by
  induction lines with
  | nil => rfl
  | cons line rest ih =>
      rw [placedCount, unclosedCount] at ih ⊢
      rw [List.countP_cons, List.countP_cons, List.countP_cons, ih]
      by_cases aside : isAside line
      · simp only [isUnclosed, aside, Bool.not_true, Bool.true_and, Bool.false_eq_true, if_false]
        omega
      · have silent : declared? line = none :=
          Option.eq_none_iff_forall_ne_some.2 fun label declares =>
            aside (isAside_of_declared? declares)
        simp only [isUnclosed, aside, silent, Option.isNone_none, Bool.not_false, Bool.false_and,
          Bool.false_eq_true, if_true, if_false]
        omega

/-! ## The first pass -/

section collected

variable {lines : List (List Char)} {place : Nat} {labels found : Labels}

/-- Labels that were known keep their places. -/
theorem lookup_of_collectLabels (collected : collectLabels lines place labels = .ok found)
    {label : String} {known : Nat} (before : labels.lookup label = some known) :
    found.lookup label = some known := by
  induction lines generalizing place labels with
  | nil =>
      cases collected
      exact before
  | cons line rest ih =>
      rw [collectLabels] at collected
      cases declares : declared? line with
      | none =>
          simp only [declares] at collected
          exact ih collected before
      | some other =>
          simp only [declares] at collected
          cases unknown : labels.lookup other with
          | some _ => simp [unknown] at collected
          | none =>
              simp only [unknown] at collected
              refine ih collected ?_
              have differs : label ≠ other := by
                rintro rfl
                rw [unknown] at before
                cases before
              rw [List.lookup_cons, beq_false_of_ne differs, before]

/-- A label is recorded at its place, plus the lines before it that declare nothing. -/
theorem lookup_declared_of_collectLabels {before after : List (List Char)} {line : List Char}
    {label : String} (declares : declared? line = some label)
    (collected : collectLabels (before ++ line :: after) place labels = .ok found) :
    found.lookup label =
      some (place + before.countP fun line => (declared? line).isNone) := by
  induction before generalizing place labels with
  | nil =>
      rw [List.nil_append, collectLabels] at collected
      simp only [declares] at collected
      cases unknown : labels.lookup label with
      | some _ => simp [unknown] at collected
      | none =>
          simp only [unknown] at collected
          exact lookup_of_collectLabels collected List.lookup_cons_self
  | cons first rest ih =>
      rw [List.cons_append, collectLabels] at collected
      cases other : declared? first with
      | none =>
          simp only [other] at collected
          rw [ih collected, List.countP_cons, other]
          simp only [Option.isNone_none, if_true]
          congr 1
          omega
      | some name =>
          simp only [other] at collected
          cases unknown : labels.lookup name with
          | some _ => simp [unknown] at collected
          | none =>
              simp only [unknown] at collected
              rw [ih collected, List.countP_cons, other]
              rfl

end collected

/-! ## The second pass -/

/-- The load of a label holds the low sixteen bits of its address. -/
theorem settle_load_of_label {labels : Labels} {names : List String} {label : String}
    {address : Nat} (free : predefined? label = none)
    (recorded : labels.lookup label = some address) :
    (Statement.load label).settle labels names = .load (UInt16.ofNat address).toInt16 := by
  rw [Statement.settle, nameValue?, free, recorded]
  rfl

theorem read_load {label : String} (numberless : Text.readSigned16? label.toList = none) :
    Statement.read ('@' :: label.toList) = .ok (.load label) := by
  rw [Statement.read, Statement.ofOperand, numberless, String.ofList_toList]

/-- Every instruction line stands behind the instruction lines before it. -/
theorem Program.exists_placed_at {text : String} {program : Program}
    (assembled : assemble text = .ok program) {earlier later : List (List Char)}
    {line : List Char} (split : Text.contents text.toList = earlier ++ line :: later)
    (instruction : isAside line = false) :
    ∃ statement, Statement.read line = .ok statement ∧
      program.rom[placedCount earlier]? =
        some (statement.settle program.labels program.variableNames) := by
  have done := (passes assembled).2
  rw [split, List.filter_append, List.filter_cons_of_pos (by simp [instruction])] at done
  obtain ⟨statement, reads, here⟩ := exists_placed done
  refine ⟨statement, reads, ?_⟩
  rw [placedCount, List.countP_eq_length_filter, ← here, List.size_toArray, List.length_nil,
    Nat.zero_add]

/--
What the two passes make of a label.  Its recorded address is the number of
instructions placed before it and, in excess, of the lines before it that are
not closed; so it is right exactly if there are none of these.  Each line that
loads it, wherever it stands, loads this address up to a multiple of 65536.
-/
theorem Program.label_address {text : String} {program : Program}
    (assembled : assemble text = .ok program) {before after : List (List Char)} {line : List Char}
    {label : String} (split : Text.contents text.toList = before ++ line :: after)
    (declares : declared? line = some label) :
    let address := placedCount before + unclosedCount before
    program.label? label = some address ∧
      (program.label? label = some (placedCount before) ↔ ∀ line ∈ before, ¬ isUnclosed line) ∧
      placedCount before ≤ program.rom.size ∧
      (Text.readSigned16? label.toList = none → predefined? label = none →
        ∀ earlier later, Text.contents text.toList = earlier ++ ('@' :: label.toList) :: later →
          ∃ word, program.rom[placedCount earlier]? = some (.load word) ∧
            word.toUInt16.toNat = address % UInt16.size ∧
            (word.toUInt16.toNat = address ↔ address < UInt16.size)) := by
  intro address
  obtain ⟨collected, done⟩ := passes assembled
  have size := (placeInstructions_continued done).2.2
  rw [split] at collected size
  have recorded := lookup_declared_of_collectLabels declares collected
  rw [Nat.zero_add, counted_eq] at recorded
  refine ⟨recorded, ?_, ?_, fun numberless free earlier later found => ?_⟩
  · rw [label?, recorded, Option.some.injEq, Nat.add_eq_left, unclosedCount, List.countP_eq_zero]
  · rw [size, ← List.countP_eq_length_filter, List.countP_append, placedCount]
    omega
  · obtain ⟨statement, reads, here⟩ := exists_placed_at assembled found rfl
    rw [read_load numberless, Except.ok.injEq] at reads
    rw [← reads, settle_load_of_label free recorded] at here
    have word : (UInt16.ofNat address).toInt16.toUInt16.toNat = address % UInt16.size := by
      simp
    refine ⟨_, here, word, ?_⟩
    rw [word]
    exact Nat.mod_eq_iff_lt (by decide)

/-- A text with a parenthesis that is not closed before the only label. -/
def unclosedText : String :=
  "(foo\n(L)\n@L\nD=A\n@5\nM=D"

def unclosedProgram : Program :=
  ⟨#[.load 1, .compute ⟨⟨false, true, false⟩, .x .address, .never⟩, .load 5,
      .compute ⟨⟨false, false, true⟩, .d, .never⟩], [("L", 1)], []⟩

/-- The label stands before the first instruction, but its address is that of the second. -/
theorem label_address_unclosed :
    Program.assemble unclosedText = .ok unclosedProgram ∧
      Text.contents unclosedText.toList = ["(foo".toList] ++ "(L)".toList ::
        ["@L", "D=A", "@5", "M=D"].map String.toList ∧
      declared? "(L)".toList = some "L" ∧ placedCount ["(foo".toList] = 0 ∧
      unclosedProgram.label? "L" = some 1 ∧
      ∃ word, unclosedProgram.rom[0]? = some (.load word) ∧ word.toUInt16.toNat = 1 := by
  have assembled : Program.assemble unclosedText = .ok unclosedProgram := by rfl
  have split : Text.contents unclosedText.toList = ["(foo".toList] ++ "(L)".toList ::
      ["@L", "D=A", "@5", "M=D"].map String.toList := by decide +kernel
  have declares : declared? "(L)".toList = some "L" := by decide
  obtain ⟨recorded, -, -, loads⟩ := Program.label_address assembled split declares
  obtain ⟨word, here, value, -⟩ := loads (by decide) (by decide) ["(foo".toList, "(L)".toList]
    (["D=A", "@5", "M=D"].map String.toList) (by decide +kernel)
  exact ⟨assembled, split, declares, by decide, recorded, word, here, value⟩

end HackToolchain.Asm
