import HackToolchain.Asm.Reader
import HackToolchain.Proofs.Text.Comments
import Mathlib.Data.List.TakeDrop

/-!
# Written lines are read back

A compute instruction is read back from its written form, and so is the load
of a name that is no numeral.  Numbers are read back up to the largest one a
load holds; those beyond sixteen bits are taken for names.
-/

namespace HackToolchain.Asm

/-! ## Cutting -/

theorem cutAt?_of_notMem {mark : Char} {text : List Char} (free : mark ∉ text) :
    cutAt? mark text = none := by
  have all : ∀ character ∈ text, (character != mark) = true := by
    intro character member
    simpa using fun same : character = mark => free (same ▸ member)
  rw [cutAt?, List.span_eq_takeWhile_dropWhile, List.dropWhile_eq_nil_iff.2 all]

theorem cutAt?_append {mark : Char} {before : List Char} (free : mark ∉ before)
    (after : List Char) : cutAt? mark (before ++ mark :: after) = some (before, after) := by
  have all : ∀ character ∈ before, (character != mark) = true := by
    intro character member
    simpa using fun same : character = mark => free (same ▸ member)
  rw [cutAt?, List.span_eq_takeWhile_dropWhile, List.takeWhile_append_of_pos all,
    List.dropWhile_append_of_pos all]
  simp

/-! ## Compute instructions -/

theorem notMem_text_comp (comp : Comp) : '=' ∉ comp.text.toList ∧ ';' ∉ comp.text.toList := by
  cases comp <;> first | decide | (rename_i operand; cases operand <;> decide)

theorem notMem_text_dest (dest : Dest) : '=' ∉ dest.text.toList := by
  obtain ⟨a, d, m⟩ := dest
  cases a <;> cases d <;> cases m <;> decide

theorem notMem_text_jump (jump : Jump) : '=' ∉ jump.text.toList := by
  cases jump <;> decide

/-- A destination as it stands before an expression. -/
def Dest.front (dest : Dest) : String :=
  if dest = ⟨false, false, false⟩ then "" else dest.text ++ "="

/-- A jump as it stands after an expression. -/
def Jump.back (jump : Jump) : String :=
  if jump = .never then "" else ";" ++ jump.text

theorem Compute.toList_text (compute : Compute) :
    compute.text.toList =
      compute.dest.front.toList ++ (compute.comp.text.toList ++ compute.jump.back.toList) := by
  simp [text, Dest.front, Jump.back]

/-- The destination is cut off at the equals sign. -/
theorem Compute.cut_dest (compute : Compute) :
    (cutAt? '=' compute.text.toList).getD ([], compute.text.toList) =
      (compute.dest.text.toList, compute.comp.text.toList ++ compute.jump.back.toList) := by
  obtain ⟨dest, comp, jump⟩ := compute
  have back : '=' ∉ comp.text.toList ++ jump.back.toList := by
    rw [List.mem_append, not_or]
    refine ⟨(notMem_text_comp comp).1, ?_⟩
    unfold Jump.back
    split
    · simp
    · simpa using notMem_text_jump jump
  rw [toList_text]
  by_cases bare : dest = ⟨false, false, false⟩
  · subst bare
    have front : (Dest.front ⟨false, false, false⟩).toList = [] := rfl
    rw [front, List.nil_append, cutAt?_of_notMem back]
    rfl
  · have front : dest.front.toList = dest.text.toList ++ ['='] := by
      simp [Dest.front, bare]
    rw [front, List.append_assoc, List.singleton_append, cutAt?_append (notMem_text_dest dest)]
    rfl

/-- The jump is cut off at the semicolon. -/
theorem Compute.cut_jump (compute : Compute) :
    (cutAt? ';' (compute.comp.text.toList ++ compute.jump.back.toList)).getD
        (compute.comp.text.toList ++ compute.jump.back.toList, []) =
      (compute.comp.text.toList, compute.jump.text.toList) := by
  obtain ⟨dest, comp, jump⟩ := compute
  have free := (notMem_text_comp comp).2
  by_cases never : jump = .never
  · subst never
    have back : Jump.never.back.toList = [] := rfl
    rw [back, List.append_nil, cutAt?_of_notMem free]
    rfl
  · have back : jump.back.toList = ';' :: jump.text.toList := by
      simp [Jump.back, never]
    rw [back, cutAt?_append free]
    rfl

theorem ofCompute_text (compute : Compute) :
    Statement.ofCompute compute.text.toList = .ok (.compute compute) := by
  unfold Statement.ofCompute
  simp only [compute.cut_dest, compute.cut_jump, Comp.ofText?_text, Jump.ofText?_text,
    Dest.ofText?_text]

/-- The characters that written instructions consist of. -/
def computeAlphabet : List Char :=
  "AMD01!-+&|=;JGTEQLNP".toList

/-- A written instruction has no other characters and is not empty. -/
theorem Compute.text_alphabet (compute : Compute) :
    compute.text.toList ≠ [] ∧ ∀ character ∈ compute.text.toList, character ∈ computeAlphabet := by
  obtain ⟨dest, comp, jump⟩ := compute
  have front : dest.front.toList ⊆ computeAlphabet := by
    obtain ⟨a, d, m⟩ := dest
    cases a <;> cases d <;> cases m <;> decide
  have middle : comp.text.toList ≠ [] ∧ comp.text.toList ⊆ computeAlphabet := by
    cases comp <;> first | decide | (rename_i operand; cases operand <;> decide)
  have back : jump.back.toList ⊆ computeAlphabet := by
    cases jump <;> decide
  rw [toList_text]
  refine ⟨by simp [middle.1], fun character member => ?_⟩
  rcases List.mem_append.1 member with left | right
  · exact front left
  · rcases List.mem_append.1 right with left | right
    · exact middle.2 left
    · exact back right

/-! ## Loads -/

/-- A text with a character that is neither a digit nor a plus sign is no numeral. -/
theorem readSigned16?_of_mem {text : List Char} {character : Char} (member : character ∈ text)
    (letter : character.isDigit = false) (unsigned : character ≠ '+') :
    Text.readSigned16? text = none := by
  have noNumeral (digits : List Char) (inside : character ∈ digits) :
      Text.readNumeral16? digits = none := by
    have other : ¬ (digits ≠ [] ∧ digits.all Char.isDigit) := fun both =>
      absurd (List.all_eq_true.1 both.2 character inside) (by simp [letter])
    rw [Text.readNumeral16?, Text.readNumeral?, if_neg other, Option.bind_none]
  unfold Text.readSigned16?
  split
  next digits =>
    rcases List.mem_cons.1 member with same | inside
    · exact absurd same unsigned
    · exact noNumeral digits inside
  next => exact noNumeral text member

/-- A written number is read as a number if it fits sixteen bits. -/
theorem readSigned16?_numeral (number : Nat) :
    Text.readSigned16? (Text.numeral number) =
      if number < UInt16.size then some (UInt16.ofNat number) else none := by
  have plain : Text.readSigned16? (Text.numeral number) =
      Text.readNumeral16? (Text.numeral number) := by
    unfold Text.readSigned16?
    split
    next digits same =>
      have digit := List.all_eq_true.1 (Text.numeral_all_isDigit number) '+'
        (by rw [same]; exact List.mem_cons_self)
      exact absurd digit (by decide)
    next => rfl
  rw [plain, Text.readNumeral16?, Text.readNumeral?_numeral, Option.bind_some]

/-- A number that fits sixteen bits but no load. -/
def IsMisfit (value : Nat) : Prop :=
  maxNumber.toNat < value ∧ value < UInt16.size

instance : DecidablePred IsMisfit := fun value =>
  inferInstanceAs (Decidable (maxNumber.toNat < value ∧ value < UInt16.size))

namespace Line

/--
The statement that an instruction line of an accepted text is read as.  A
number beyond sixteen bits is read as a name.
-/
def statement? : Line String → Option Statement
  | number value =>
      some (if value < UInt16.size then .number (.ofNat value) else .load (toString value))
  | load name => some (.load name)
  | compute instruction => some (.compute instruction)
  | declare _ | remark _ => none

/-- Whether a line loads no numeral in the place of a name. -/
def LoadsName : Line String → Prop
  | load name => Text.readSigned16? name.toList = none
  | _ => True

/-- The number that a line loads. -/
def number? {Symbol : Type} : Line Symbol → Option Nat
  | number value => some value
  | _ => none

/-- The number of a line if it is a misfit; such a line is refused. -/
def misfit? {Symbol : Type} (line : Line Symbol) : Option Nat :=
  line.number?.bind fun value => if IsMisfit value then some value else none

theorem misfit?_number {Symbol : Type} (value : Nat) :
    (number value : Line Symbol).misfit? = if IsMisfit value then some value else none :=
  rfl

theorem read_number (value : Nat) :
    Statement.read (number value).text.toList =
      if value < UInt16.size then
        if value ≤ maxNumber.toNat then .ok (.number (.ofNat value))
        else .error (.numberOutOfRange ("@" ++ toString value))
      else .ok (.load (toString value)) := by
  have text : (number value).text.toList = '@' :: Text.numeral value := by
    rw [Line.text, Text.toString_eq_numeral]
    simp
  have whole : String.ofList ('@' :: Text.numeral value) = "@" ++ toString value := by
    rw [← text, String.ofList_toList, Line.text]
  rw [text, Statement.read, Statement.ofOperand, readSigned16?_numeral, whole]
  by_cases fits : value < UInt16.size
  · have same : (UInt16.ofNat value ≤ maxNumber) = (value ≤ maxNumber.toNat) := by
      rw [UInt16.le_iff_toNat_le, UInt16.toNat_ofNat_of_lt' fits]
    rw [if_pos fits, if_pos fits]
    simp only [same]
  · rw [if_neg fits, if_neg fits, Text.toString_eq_numeral]

theorem read_compute (computation : Compute) :
    Statement.read (compute computation).text.toList = .ok (.compute computation) := by
  have alphabet := (Compute.text_alphabet computation).2
  have plain : Statement.read computation.text.toList =
      Statement.ofCompute computation.text.toList := by
    unfold Statement.read
    split
    next operand same =>
      have clash := alphabet '@' (by rw [same]; exact List.mem_cons_self)
      exact absurd clash (by decide)
    next => rfl
  rw [Line.text, plain, ofCompute_text]

/-- An instruction line is read as its statement, unless its number is a misfit. -/
theorem read_text_eq {line : Line String} (loads : line.LoadsName) {statement : Statement}
    (becomes : line.statement? = some statement) :
    Statement.read line.text.toList =
      match line.misfit? with
      | none => .ok statement
      | some value => .error (.numberOutOfRange ("@" ++ toString value)) := by
  cases line with
  | number value =>
      rw [read_number, misfit?_number]
      by_cases fits : value < UInt16.size
      · rw [statement?, if_pos fits, Option.some.injEq] at becomes
        by_cases small : value ≤ maxNumber.toNat
        · rw [if_pos fits, if_pos small, if_neg fun misfit => Nat.not_lt.2 small misfit.1, becomes]
        · rw [if_pos fits, if_neg small, if_pos ⟨Nat.lt_of_not_le small, fits⟩]
      · rw [statement?, if_neg fits, Option.some.injEq] at becomes
        rw [if_neg fits, if_neg fun misfit => fits misfit.2, becomes]
  | load name =>
      have text : (load name).text.toList = '@' :: name.toList := by simp [Line.text]
      rw [text, Statement.read, Statement.ofOperand,
        show Text.readSigned16? name.toList = none from loads, String.ofList_toList]
      exact congrArg Except.ok (Option.some.inj becomes)
  | compute computation =>
      rw [read_compute]
      exact congrArg Except.ok (Option.some.inj becomes)
  | declare | remark => cases becomes

theorem exists_statement?_of_isInstruction {line : Line String} (instruction : line.isInstruction) :
    ∃ statement, line.statement? = some statement := by
  cases line with
  | number | load | compute => exact ⟨_, rfl⟩
  | declare | remark => cases instruction

/-- What an instruction line of an accepted text is read as. -/
theorem read_text {line : Line String} (loads : line.LoadsName) (instruction : line.isInstruction)
    {statement : Statement} (read : Statement.read line.text.toList = .ok statement) :
    line.statement? = some statement := by
  obtain ⟨other, becomes⟩ := exists_statement?_of_isInstruction instruction
  rw [read_text_eq loads becomes] at read
  split at read
  next => rw [becomes, Except.ok.inj read]
  next => cases read

end Line

end HackToolchain.Asm
