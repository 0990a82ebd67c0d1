import HackToolchain.Proofs.Text.Runs
import HackToolchain.Proofs.Text.Trimming
import HackToolchain.Proofs.Vm.Grammar

/-!
# Reading follows the grammar

Every rule of the grammar is what reading does, and some rule applies to every
line that has a word.  So the outcome of a line is the one its words mean, and
the readings of a source are the outcomes of its lines in order.
-/

namespace HackToolchain.Vm

theorem ofWords_keyword (keyword : Keyword) (rest : Words) :
    Outcome.ofWords (keyword.name.toList :: rest) =
      match keyword.readOperands rest with
      | .ok command => .command command
      | .error fault => .fault fault := by
  cases taken : keyword.readOperands rest with
  | ok command => simp only [Outcome.ofWords, Keyword.ofWord?_name, taken]
  | error fault => simp only [Outcome.ofWords, Keyword.ofWord?_name, taken]

/-- Reading a line yields whatever its words mean. -/
theorem Means.ofWords {words : Words} {outcome : Outcome} (means : Means words outcome) :
    Outcome.ofWords words = outcome := by
  cases means with
  | @skipped first rest unknown =>
      have none : Keyword.ofWord? first = none :=
        Option.eq_none_iff_forall_ne_some.2 fun keyword found =>
          unknown keyword (Keyword.ofWord?_eq_some_iff.1 found)
      rw [Outcome.ofWords, none]
  | @missing keyword before after operand words asked accepted =>
      have stopped := Keyword.readOperands_of_stops asked accepted
        (show ∀ word ∈ ([] : Words).head?, ¬ operand.Accepts word by simp)
      rw [List.append_nil] at stopped
      rw [ofWords_keyword, stopped]
      rfl
  | @invalid keyword before after operand words rest word asked accepted refused =>
      have stopped := Keyword.readOperands_of_stops asked accepted
        (show ∀ other ∈ (word :: rest).head?, ¬ operand.Accepts other by simpa using refused)
      rw [ofWords_keyword, stopped]
      rfl
  | outOfRange spelled cell bounded exceeds =>
      rw [ofWords_keyword, Keyword.readOperands_of_exceeds spelled cell bounded exceeds]
  | popConstant spelled allowed =>
      rw [ofWords_keyword, Keyword.readOperands_popConstant spelled allowed]
  | extra spelled valid more =>
      rw [ofWords_keyword, Keyword.readOperands_of_valid spelled valid,
        Words.finish_of_ne_nil _ more]
  | @command keyword words command spelled valid =>
      have read := @Keyword.readOperands_of_valid _ _ [] _ spelled valid
      rw [List.append_nil, Words.finish_nil] at read
      rw [ofWords_keyword, read]

/-- Words have all operands that are asked for, or a first one is not there. -/
theorem operands_cases (operands : List Operand) (words : Words) :
    (∃ good rest, words = good ++ rest ∧ List.Forall₂ Operand.Accepts operands good) ∨
    ∃ before operand after good rest, operands = before ++ operand :: after ∧
      List.Forall₂ Operand.Accepts before good ∧ words = good ++ rest ∧
        ∀ word ∈ rest.head?, ¬ operand.Accepts word := by
  induction operands generalizing words with
  | nil => exact Or.inl ⟨[], words, rfl, .nil⟩
  | cons operand later ih =>
      cases words with
      | nil => exact Or.inr ⟨[], operand, later, [], [], rfl, .nil, rfl, by simp⟩
      | cons word others =>
          by_cases accepts : operand.Accepts word
          · obtain ⟨good, rest, rfl, all⟩ | ⟨before, stop, after, good, rest, rfl, all, rfl, stops⟩ :=
              ih others
            · exact Or.inl ⟨word :: good, rest, rfl, .cons accepts all⟩
            · exact Or.inr ⟨operand :: before, stop, after, word :: good, rest, rfl,
                .cons accepts all, rfl, stops⟩
          · exact Or.inr ⟨[], operand, later, [], word :: others, rfl, .nil, rfl,
              by simpa using accepts⟩

/-- Words that all operands accept spell a command. -/
theorem exists_spells {keyword : Keyword} {words : Words}
    (accepted : List.Forall₂ Operand.Accepts keyword.operands words) :
    ∃ command, Spells keyword words command := by
  cases keyword with
  | push | pop =>
      obtain ⟨_, _, ⟨segment, rfl⟩, tail, rfl⟩ := List.forall₂_cons_left_iff.1 accepted
      obtain ⟨_, _, ⟨index, numeral⟩, none, rfl⟩ := List.forall₂_cons_left_iff.1 tail
      cases none
      first
        | exact ⟨_, .push segment index numeral⟩
        | exact ⟨_, .pop segment index numeral⟩
  | label | goto | ifGoto =>
      obtain ⟨_, _, symbol, none, rfl⟩ := List.forall₂_cons_left_iff.1 accepted
      cases none
      first
        | exact ⟨_, .label symbol⟩
        | exact ⟨_, .goto symbol⟩
        | exact ⟨_, .ifGoto symbol⟩
  | function | call =>
      obtain ⟨_, _, symbol, tail, rfl⟩ := List.forall₂_cons_left_iff.1 accepted
      obtain ⟨_, _, ⟨count, numeral⟩, none, rfl⟩ := List.forall₂_cons_left_iff.1 tail
      cases none
      first
        | exact ⟨_, .function symbol count numeral⟩
        | exact ⟨_, .call symbol count numeral⟩
  | ret =>
      cases accepted
      exact ⟨_, .ret⟩
  | operate operator =>
      cases accepted
      exact ⟨_, .operate operator⟩

theorem exists_limit {segment : Segment} {index : UInt16} (beyond : ¬ segment.Allows index) :
    ∃ limit, segment.maxIndex? = some limit ∧ limit < index := by
  unfold Segment.Allows at beyond
  push Not at beyond
  obtain ⟨limit, bounded, exceeds⟩ := beyond
  exact ⟨limit, bounded, UInt16.not_le.1 exceeds⟩

/-- A spelled command that is not valid names an index out of range or pops into a constant. -/
theorem Spells.means_of_not_valid {keyword : Keyword} {words : Words} {command : Command}
    (spelled : Spells keyword words command) (invalid : ¬ command.Valid) (rest : Words) :
    ∃ outcome, Means (keyword.name.toList :: (words ++ rest)) outcome := by
  cases spelled with
  | push segment index numeral =>
      obtain ⟨limit, bounded, exceeds⟩ := exists_limit invalid
      exact ⟨_, .outOfRange (.push segment index numeral) rfl bounded exceeds⟩
  | pop segment index numeral =>
      by_cases allows : segment.Allows index
      · have constant : segment = .constant := by
          by_contra other
          exact invalid ⟨allows, other⟩
        subst constant
        exact ⟨_, .popConstant (.pop .constant index numeral) allows⟩
      · obtain ⟨limit, bounded, exceeds⟩ := exists_limit allows
        exact ⟨_, .outOfRange (.pop segment index numeral) rfl bounded exceeds⟩
  | label symbol | goto symbol | ifGoto symbol =>
      exact absurd (by simpa [Command.Valid] using symbol) invalid
  | function symbol | call symbol =>
      exact absurd (by simpa [Command.Valid] using symbol) invalid
  | ret => exact absurd trivial invalid
  | operate operator => exact absurd trivial invalid

/-- Every line that has a word means something. -/
theorem exists_means {words : Words} (nonempty : words ≠ []) : ∃ outcome, Means words outcome := by
  obtain ⟨first, rest, rfl⟩ := List.exists_cons_of_ne_nil nonempty
  by_cases known : ∃ keyword : Keyword, first = keyword.name.toList
  · obtain ⟨keyword, rfl⟩ := known
    obtain ⟨good, left, rfl, all⟩ | ⟨before, operand, after, good, left, asked, all, rfl, stops⟩ :=
      operands_cases keyword.operands rest
    · obtain ⟨command, spelled⟩ := exists_spells all
      by_cases valid : command.Valid
      · cases left with
        | nil => exact ⟨_, by simpa using Means.command spelled valid⟩
        | cons word others => exact ⟨_, .extra spelled valid (by simp)⟩
      · exact spelled.means_of_not_valid valid left
    · cases left with
      | nil => exact ⟨_, by simpa using Means.missing asked all⟩
      | cons word others => exact ⟨_, .invalid asked all (stops word rfl)⟩
  · exact ⟨_, .skipped fun keyword same => known ⟨keyword, same⟩⟩

/-- The outcome of a line that has a word is the one its words mean. -/
theorem means_iff {words : Words} (nonempty : words ≠ []) {outcome : Outcome} :
    Means words outcome ↔ Outcome.ofWords words = outcome := by
  constructor
  · exact Means.ofWords
  · rintro rfl
    obtain ⟨outcome, means⟩ := exists_means nonempty
    rw [means.ofWords]
    exact means

/-- The lines of a source say nothing with other blanks in it than space, tab and return. -/
def IsPlain (source : String) : Prop :=
  ∀ line ∈ Text.lines source.toList, ∀ character ∈ Text.content line,
    Text.isBlank character → character = ' ' ∨ character = '\t' ∨ character = '\r'

/-- What a plain line says has the outcome that its words mean, and no other. -/
theorem means_content_iff {source : String} (plain : IsPlain source) {line : List Char}
    (member : line ∈ Text.lines source.toList) (speaks : Text.content line ≠ []) (number : Nat)
    {outcome : Outcome} :
    Means (Text.runs (Text.content line)) outcome ↔
      (Reading.ofContent number (Text.content line)).outcome = outcome := by
  have words : Text.words (Text.content line) = Text.runs (Text.content line) := by
    refine Text.words_eq_runs fun character inside blank => ?_
    rcases plain line member character inside blank with rfl | rfl | rfl <;> decide
  obtain ⟨first, rest, split⟩ := List.exists_cons_of_ne_nil speaks
  have nonempty : Text.runs (Text.content line) ≠ [] := by
    rw [split]
    exact Text.runs_ne_nil List.mem_cons_self (Text.not_isBlank_of_trim_eq_cons split)
  rw [means_iff nonempty, ← words]
  rfl

/-- A reading is that of a numbered line that says something. -/
theorem mem_readings_iff {source : String} {reading : Reading} :
    reading ∈ readings source ↔
      ∃ index line, (Text.lines source.toList)[index]? = some line ∧ Text.content line ≠ [] ∧
        reading = .ofContent (index + 1) (Text.content line) := by
  rw [readings, List.mem_filterMap]
  constructor
  · rintro ⟨⟨line, number⟩, member, read⟩
    obtain ⟨positive, found⟩ := List.mk_mem_zipIdx_iff_le_and_getElem?_sub.1 member
    dsimp only at read
    split at read
    next => cases read
    next speaks =>
      refine ⟨number - 1, line, found, by simpa using speaks, ?_⟩
      rw [Nat.sub_add_cancel positive]
      exact (Option.some.inj read).symm
  · rintro ⟨index, line, found, speaks, rfl⟩
    refine ⟨(line, index + 1), ?_, ?_⟩
    · exact List.mk_mem_zipIdx_iff_le_and_getElem?_sub.2
        ⟨Nat.le_add_left 1 index, by simpa using found⟩
    · dsimp only
      rw [if_neg (by simpa using speaks)]

theorem line_of_read {line : List Char} {number : Nat} {reading : Reading}
    (read : (if (Text.content line).isEmpty then none
      else some (Reading.ofContent number (Text.content line))) = some reading) :
    reading.line = number := by
  split at read
  next => cases read
  next => exact congrArg Reading.line (Option.some.inj read).symm

/-- The readings of a source come in the order of its lines. -/
theorem readings_ordered (source : String) :
    (readings source).Pairwise fun earlier later => earlier.line < later.line := by
  rw [readings, List.pairwise_filterMap]
  have numbers : ((Text.lines source.toList).zipIdx 1).Pairwise fun one two => one.2 < two.2 := by
    rw [← List.pairwise_map (f := Prod.snd), List.zipIdx_map_snd]
    exact List.pairwise_lt_range'
  refine numbers.imp fun {one two} less first readFirst second readSecond => ?_
  rw [line_of_read readFirst, line_of_read readSecond]
  exact less

/--
The readings of a plain source come in the order of its lines; there is one for
every line that says something, with the number of the line, what it says and
the outcome that its words mean, and there are no others.
-/
theorem readings_follow_grammar (source : String) (plain : IsPlain source) :
    (readings source).Pairwise (fun earlier later => earlier.line < later.line) ∧
    (∀ index line, (Text.lines source.toList)[index]? = some line → Text.content line ≠ [] →
      ∃ reading ∈ readings source, reading.line = index + 1) ∧
    (∀ reading, reading ∈ readings source ↔
      ∃ index line, (Text.lines source.toList)[index]? = some line ∧ Text.content line ≠ [] ∧
        reading.line = index + 1 ∧ reading.text = String.ofList (Text.content line) ∧
        Means (Text.runs (Text.content line)) reading.outcome) := by
  refine ⟨readings_ordered source, ?_, ?_⟩
  · intro index line found speaks
    exact ⟨_, mem_readings_iff.2 ⟨index, line, found, speaks, rfl⟩, rfl⟩
  · intro reading
    rw [mem_readings_iff]
    constructor
    · rintro ⟨index, line, found, speaks, rfl⟩
      have member := List.mem_of_getElem? found
      exact ⟨index, line, found, speaks, rfl, rfl,
        (means_content_iff plain member speaks (index + 1)).2 rfl⟩
    · rintro ⟨index, line, found, speaks, number, text, means⟩
      have member := List.mem_of_getElem? found
      have outcome := (means_content_iff plain member speaks (index + 1)).1 means
      obtain ⟨line_number, said, result⟩ := reading
      refine ⟨index, line, found, speaks, ?_⟩
      simp only at number text outcome
      rw [number, text, ← outcome]
      rfl

/-- A source in which every kind of line occurs. -/
def mixedSource : String :=
  "push constant 07 // seven\r\n\n  pop constant 40000 x\nfrob 1\npop\tconstant 1 2\nadd 3  4"

example : (readings mixedSource).map (fun reading => (reading.line, reading.outcome)) =
    [(1, .command (.push .constant 7)), (3, .fault (.indexOutOfRange .constant 40000 32767)),
     (4, .skipped), (5, .fault .popConstant), (6, .fault (.extraOperands ["3", "4"]))] := by
  decide +kernel

theorem readings_follow_grammar_mixed :
    IsPlain mixedSource ∧
    (readings mixedSource).Pairwise (fun earlier later => earlier.line < later.line) ∧
    (∀ index line, (Text.lines mixedSource.toList)[index]? = some line → Text.content line ≠ [] →
      ∃ reading ∈ readings mixedSource, reading.line = index + 1) ∧
    (∀ reading, reading ∈ readings mixedSource ↔
      ∃ index line, (Text.lines mixedSource.toList)[index]? = some line ∧
        Text.content line ≠ [] ∧ reading.line = index + 1 ∧
        reading.text = String.ofList (Text.content line) ∧
        Means (Text.runs (Text.content line)) reading.outcome) := by
  have plain : IsPlain mixedSource := by
    have all : (Text.lines mixedSource.toList).all fun line => (Text.content line).all
        fun character => !Text.isBlank character || character == ' ' || character == '\t' ||
          character == '\r' := by
      decide +kernel
    intro line member character inside blank
    have one := List.all_eq_true.1 (List.all_eq_true.1 all line member) character inside
    simpa [blank, or_assoc] using one
  exact ⟨plain, readings_follow_grammar mixedSource plain⟩

end HackToolchain.Vm
