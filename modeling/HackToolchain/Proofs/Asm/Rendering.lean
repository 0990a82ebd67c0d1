import HackToolchain.Proofs.Asm.Reading

/-!
# Rendered lines

A list of lines whose names stay within their lines is found again in its
text: remarks say nothing, and every other line says its written form.
-/

namespace HackToolchain.Asm

/-- A name that keeps to its line: no line break and no comment in it. -/
def KeepsLine (name : List Char) : Prop :=
  '\n' ∉ name ∧ Text.CommentFree name

theorem keepsLine_nil : KeepsLine [] :=
  ⟨List.not_mem_nil, Text.commentFree_of_notMem List.not_mem_nil⟩

namespace Line

/-- Lines that are found again in a rendered text. -/
def Clean : Line String → Prop
  | number _ | compute _ => True
  | load name =>
      KeepsLine name.toList ∧ Text.readSigned16? name.toList = none ∧
        ∀ character ∈ name.toList.getLast?, Text.isBlank character = false
  | declare name => KeepsLine name.toList
  | remark text => '\n' ∉ text.toList

theorem Clean.loadsName {line : Line String} (clean : line.Clean) : line.LoadsName := by
  cases line with
  | load name => exact clean.2.1
  | _ => trivial

def isRemark {Symbol : Type} : Line Symbol → Bool
  | remark _ => true
  | _ => false

theorem text_number (value : Nat) :
    (number value).text.toList = '@' :: Text.numeral value := by
  rw [text, Text.toString_eq_numeral]
  simp

theorem text_load (name : String) : (load name).text.toList = '@' :: name.toList := by
  simp [text]

theorem text_declare (name : String) :
    (declare name).text.toList = '(' :: (name.toList ++ [')']) := by
  simp [text]

theorem text_remark (remarked : String) :
    (remark remarked).text.toList = '/' :: '/' :: ' ' :: remarked.toList := by
  simp [text]

theorem digit_of_mem_numeral {value : Nat} {character : Char}
    (member : character ∈ Text.numeral value) : character.isDigit :=
  List.all_eq_true.1 (Text.numeral_all_isDigit value) character member

theorem not_isBlank_of_isDigit {character : Char} (digit : character.isDigit) :
    Text.isBlank character = false := by
  simp only [Char.isDigit, Bool.and_eq_true, decide_eq_true_eq] at digit
  have low : 48 ≤ character.toNat := by simpa using UInt32.le_iff_toNat_le.1 digit.1
  have high : character.toNat ≤ 57 := by simpa using UInt32.le_iff_toNat_le.1 digit.2
  simp only [Text.isBlank, Text.blankRanges, List.any_cons, List.any_nil, Bool.or_false,
    Bool.or_eq_false_iff, Bool.and_eq_false_iff, decide_eq_false_iff_not]
  omega

/-- Lines that a rendered text keeps apart, whatever their names look like. -/
def Kept : Line String → Prop
  | number _ | compute _ => True
  | load name | declare name => KeepsLine name.toList
  | remark text => '\n' ∉ text.toList

theorem Clean.kept {line : Line String} (clean : line.Clean) : line.Kept := by
  cases line with
  | load name => exact clean.1
  | number | compute | declare | remark => exact clean

theorem Kept.newline_notMem {line : Line String} (kept : line.Kept) :
    '\n' ∉ line.text.toList := by
  cases line with
  | number value =>
      rw [text_number]
      intro member
      rcases List.mem_cons.1 member with same | inside
      · exact absurd same (by decide)
      · exact absurd (digit_of_mem_numeral inside) (by decide)
  | load name => simpa [text_load] using kept.1
  | compute computation =>
      intro member
      exact absurd ((Compute.text_alphabet computation).2 _ member) (by decide)
  | declare name => simpa [text_declare] using kept.1
  | remark remarked =>
      have free : '\n' ∉ remarked.toList := kept
      simpa [text_remark] using free

theorem Clean.content_text {line : Line String} (clean : line.Clean)
    (speaks : line.isRemark = false) : Text.content line.text.toList = line.text.toList := by
  cases line with
  | number value =>
      have digits : '/' ∉ Text.numeral value := fun inside =>
        absurd (digit_of_mem_numeral inside) (by decide)
      rw [text_number]
      refine Text.content_eq_self ?_ ?_ ?_
      · exact Text.commentFree_cons (by decide) (Text.commentFree_of_notMem digits)
      · rintro character ⟨⟩
        decide
      · intro character last
        rw [List.getLast?_cons_of_ne_nil (Text.numeral_ne_nil value)] at last
        exact not_isBlank_of_isDigit (digit_of_mem_numeral (List.mem_of_getLast? last))
  | load name =>
      rw [text_load]
      refine Text.content_eq_self ?_ ?_ ?_
      · exact Text.commentFree_cons (by decide) clean.1.2
      · rintro character ⟨⟩
        decide
      · intro character last
        cases nonempty : name.toList with
        | nil =>
            rw [nonempty] at last
            cases last
            decide
        | cons first rest =>
            rw [nonempty, List.getLast?_cons_of_ne_nil (List.cons_ne_nil _ _), ← nonempty] at last
            exact clean.2.2 character last
  | compute computation =>
      have alphabet := Compute.text_alphabet computation
      have shown : computeAlphabet.all fun character => !Text.isBlank character := by decide
      have visible : ∀ character ∈ computeAlphabet, Text.isBlank character = false :=
        fun character member => by simpa using List.all_eq_true.1 shown character member
      refine Text.content_eq_self ?_ ?_ ?_
      · refine Text.commentFree_of_notMem fun member => ?_
        exact absurd (alphabet.2 _ member) (by decide)
      · intro character first
        exact visible _ (alphabet.2 _ (List.mem_of_head? first))
      · intro character last
        exact visible _ (alphabet.2 _ (List.mem_of_getLast? last))
  | declare name =>
      rw [text_declare]
      refine Text.content_eq_self ?_ ?_ ?_
      · exact Text.commentFree_cons (by decide) (clean.2.append (by decide))
      · rintro character ⟨⟩
        decide
      · intro character last
        rw [← List.cons_append, List.getLast?_concat] at last
        cases last
        decide
  | remark remarked => cases speaks

theorem content_remark (remarked : String) :
    Text.content (remark remarked).text.toList = [] := by
  rw [text_remark]
  rfl

theorem text_ne_nil {line : Line String} (speaks : line.isRemark = false) :
    line.text.toList ≠ [] := by
  cases line with
  | number => simp [text_number]
  | load => simp [text_load]
  | compute computation => exact (Compute.text_alphabet computation).1
  | declare => simp [text_declare]
  | remark => cases speaks

/-- A load with an odd name loses the blanks at its end, but it stays a load. -/
theorem content_load {name : String} (keeps : KeepsLine name.toList) :
    Text.content (load name).text.toList = '@' :: Text.trimEnd name.toList := by
  rw [text_load, Text.content, Text.commentFree_cons (by decide) keeps.2, Text.trim_cons (by decide)]

/-- A line that keeps to itself says its written form, unless it is a load or a remark. -/
theorem Kept.content_text {line : Line String} (kept : line.Kept) (other : line.loaded? = none)
    (speaks : line.isRemark = false) : Text.content line.text.toList = line.text.toList := by
  cases line with
  | load => cases other
  | number | compute => exact Clean.content_text trivial rfl
  | declare name => exact Clean.content_text (show (declare name).Clean from kept) rfl
  | remark => cases speaks

theorem Kept.content_ne_nil {line : Line String} (kept : line.Kept)
    (speaks : line.isRemark = false) : Text.content line.text.toList ≠ [] := by
  cases line with
  | load name =>
      rw [content_load kept]
      exact List.cons_ne_nil _ _
  | number | compute | declare =>
      rw [kept.content_text rfl rfl]
      exact text_ne_nil rfl
  | remark => cases speaks

end Line

/-- The lines of a text that speak, as they are written. -/
def spoken (lines : List (Line String)) : List (List Char) :=
  (lines.filter fun line => !line.isRemark).map fun line => line.text.toList

@[simp] theorem spoken_remark {line : Line String} (silent : line.isRemark = true)
    (rest : List (Line String)) : spoken (line :: rest) = spoken rest := by
  rw [spoken, List.filter_cons_of_neg (by simp [silent]), spoken]

@[simp] theorem spoken_cons {line : Line String} (speaks : line.isRemark = false)
    (rest : List (Line String)) : spoken (line :: rest) = line.text.toList :: spoken rest := by
  rw [spoken, List.filter_cons_of_pos (by simp [speaks]), List.map_cons, spoken]

/-- What the lines of a text say, but for the remarks. -/
def said (lines : List (Line String)) : List (List Char) :=
  (lines.filter fun line => !line.isRemark).map fun line => Text.content line.text.toList

@[simp] theorem said_remark {line : Line String} (silent : line.isRemark = true)
    (rest : List (Line String)) : said (line :: rest) = said rest := by
  rw [said, List.filter_cons_of_neg (by simp [silent]), said]

@[simp] theorem said_cons {line : Line String} (speaks : line.isRemark = false)
    (rest : List (Line String)) :
    said (line :: rest) = Text.content line.text.toList :: said rest := by
  rw [said, List.filter_cons_of_pos (by simp [speaks]), List.map_cons, said]

/-- Clean lines say their written forms. -/
theorem said_eq_spoken {lines : List (Line String)} (clean : ∀ line ∈ lines, line.Clean) :
    said lines = spoken lines := by
  refine List.map_congr_left fun line member => ?_
  obtain ⟨inside, speaks⟩ := List.mem_filter.1 member
  exact (clean line inside).content_text (by simpa using speaks)

/-- The lines of a rendered text are those it was rendered from, and an empty one behind them. -/
theorem lines_render {lines : List (Line String)}
    (single : ∀ line ∈ lines, '\n' ∉ line.text.toList) :
    Text.lines (render lines).toList = (lines.map fun line => line.text.toList) ++ [[]] := by
  induction lines with
  | nil => rfl
  | cons line rest ih =>
      obtain ⟨own, others⟩ := List.forall_mem_cons.1 single
      have cut : (render (line :: rest)).toList =
          line.text.toList ++ '\n' :: (render rest).toList := by
        rw [render_cons]
        simp
      rw [Text.lines, cut, List.splitOn_append_cons_self_of_not_mem own, ← Text.lines, ih others,
        List.map_cons, List.cons_append]

/-- The contents of a rendered text are what its lines say, if they keep to themselves. -/
theorem contents_render_of_kept {lines : List (Line String)} (kept : ∀ line ∈ lines, line.Kept) :
    Text.contents (render lines).toList = said lines := by
  rw [Text.contents, lines_render fun line member => (kept line member).newline_notMem]
  induction lines with
  | nil => rfl
  | cons line rest ih =>
      obtain ⟨own, others⟩ := List.forall_mem_cons.1 kept
      have later := ih others
      rw [List.map_cons, List.cons_append, List.map_cons]
      cases remark : line.isRemark with
      | true =>
          have silent : Text.content line.text.toList = [] := by
            cases line with
            | remark remarked => exact Line.content_remark remarked
            | _ => cases remark
          rw [silent, said_remark remark, ← later]
          exact List.filter_cons_of_neg (by simp)
      | false =>
          have full : (!(Text.content line.text.toList).isEmpty) = true := by
            simpa using own.content_ne_nil remark
          rw [said_cons remark, ← later]
          exact List.filter_cons_of_pos (p := fun content : List Char => !content.isEmpty) full

/-- The contents of a rendered text are the written forms of its lines but the remarks. -/
theorem contents_render {lines : List (Line String)} (clean : ∀ line ∈ lines, line.Clean) :
    Text.contents (render lines).toList = spoken lines := by
  rw [contents_render_of_kept fun line member => (clean line member).kept, said_eq_spoken clean]

end HackToolchain.Asm
