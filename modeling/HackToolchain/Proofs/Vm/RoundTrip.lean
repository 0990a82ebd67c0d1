import HackToolchain.Proofs.Text.Spacing
import HackToolchain.Proofs.Vm.Validity

/-!
# Writing commands and reading them back

A command can be written in many ways: with gaps of any width between its
words, zeros before its numbers, blanks and a comment around it, and silent
lines before and behind it.  All of them are read as that command, and the
canonical line is one of them.  Since sources hold valid commands only, the
commands of any source are found again in their canonical lines.
-/

namespace HackToolchain.Vm

open HackToolchain.Text (Frames IsWord Spaced)

/-! ## Sources by their lines -/

/-- The outcome of a line that says something. -/
def outcome? (line : List Char) : Option Outcome :=
  if (Text.content line).isEmpty then none else some (.ofWords (Text.words (Text.content line)))

/-- The text with the given lines. -/
def sourceOfLines (lines : List (List Char)) : String :=
  String.ofList (['\n'].intercalate lines)

/-- The readings of a source have the outcomes of its lines. -/
theorem outcomes_readings (source : String) :
    (readings source).map Reading.outcome = (Text.lines source.toList).filterMap outcome? := by
  have own (numbered : List Char × Nat) :
      (if (Text.content numbered.1).isEmpty then none
        else some (Reading.ofContent numbered.2 (Text.content numbered.1))).map Reading.outcome =
        outcome? numbered.1 := by
    unfold outcome?
    split <;> rfl
  rw [readings, List.map_filterMap]
  conv_rhs => rw [← List.zipIdx_map_fst 1 (Text.lines source.toList), List.filterMap_map]
  exact List.filterMap_congr fun numbered _ => own numbered

theorem outcomes_sourceOfLines {lines : List (List Char)} (keeps : ∀ line ∈ lines, '\n' ∉ line) :
    (readings (sourceOfLines lines)).map Reading.outcome = lines.filterMap outcome? := by
  rw [outcomes_readings, sourceOfLines, String.toList_ofList, Text.lines]
  by_cases empty : lines = []
  · subst empty
    rfl
  · rw [List.splitOn_intercalate '\n' keeps empty]

/-! ## Words of commands -/

theorem isWord_of_isSymbolChar {word : List Char} (nonempty : word ≠ [])
    (symbolic : ∀ character ∈ word, isSymbolChar character) : IsWord word := by
  refine ⟨nonempty, fun character member => ?_⟩
  have plain := plain_of_isSymbolChar (symbolic character member)
  exact ⟨plain.1, plain.2.2⟩

theorem isWord_of_isSymbol {name : List Char} (symbol : isSymbol name) : IsWord name := by
  refine isWord_of_isSymbolChar ?_ fun character member => isSymbolChar_of_isSymbol symbol member
  rintro rfl
  cases symbol

theorem isWord_of_isNumeral {word : List Char} {number : Nat} (numeral : IsNumeral word number) :
    IsWord word := by
  refine isWord_of_isSymbolChar numeral.1 fun character member => ?_
  simp [isSymbolChar, Char.isAlphanum, numeral.2.1 character member]

theorem isWord_segmentName (segment : Segment) : IsWord segment.name.toList := by
  cases segment <;> decide

theorem isWord_keywordName (keyword : Keyword) : IsWord keyword.name.toList := by
  rcases keyword with _ | _ | _ | _ | _ | _ | _ | _ | ((_ | _) | (_ | _ | _ | _) | (_ | _ | _)) <;>
    decide

/-- The words of a command can stand in a row. -/
theorem Spells.isWord {keyword : Keyword} {words : Words} {command : Command}
    (spelled : Spells keyword words command) : ∀ word ∈ words, IsWord word := by
  cases spelled with
  | push segment index numeral | pop segment index numeral =>
      simp only [List.mem_cons, List.not_mem_nil, or_false, forall_eq_or_imp, forall_eq]
      exact ⟨isWord_segmentName segment, isWord_of_isNumeral numeral⟩
  | label symbol | goto symbol | ifGoto symbol =>
      simp only [List.mem_cons, List.not_mem_nil, or_false, forall_eq]
      exact isWord_of_isSymbol symbol
  | function symbol count numeral | call symbol count numeral =>
      simp only [List.mem_cons, List.not_mem_nil, or_false, forall_eq_or_imp, forall_eq]
      exact ⟨isWord_of_isSymbol symbol, isWord_of_isNumeral numeral⟩
  | ret | operate => simp

/-! ## Lines of commands -/

/--
Lines that write commands in order.  A command is spelled by words in a row;
between the commands there may be silent lines.
-/
inductive Writes : List Command → List (List Char) → Prop where
  | nil : Writes [] []
  | silent {commands : List Command} {line : List Char} {lines : List (List Char)}
      (frames : Frames [] line) (rest : Writes commands lines) : Writes commands (line :: lines)
  | command {keyword : Keyword} {words : Words} {command : Command} {said line : List Char}
      {commands : List Command} {lines : List (List Char)} (spelled : Spells keyword words command)
      (spaced : Spaced (keyword.name.toList :: words) said) (frames : Frames said line)
      (rest : Writes commands lines) : Writes (command :: commands) (line :: lines)

section row

variable {keyword : Keyword} {words : Words} {command : Command} {said line : List Char}

theorem Spells.isWord_row (spelled : Spells keyword words command) :
    ∀ word ∈ keyword.name.toList :: words, IsWord word :=
  List.forall_mem_cons.2 ⟨isWord_keywordName keyword, spelled.isWord⟩

theorem Spells.newline_notMem (spelled : Spells keyword words command)
    (spaced : Spaced (keyword.name.toList :: words) said) : '\n' ∉ said := by
  intro member
  rcases (spaced.mem_cases spelled.isWord_row member).1 with visible | separator
  · exact absurd visible (by decide)
  · exact separator.2 rfl

/-- A line that spells a valid command is read as that command. -/
theorem Spells.outcome?_eq (spelled : Spells keyword words command) (valid : command.Valid)
    (spaced : Spaced (keyword.name.toList :: words) said) (frames : Frames said line) :
    outcome? line = some (.command command) := by
  have each := spelled.isWord_row
  have slash : '/' ∉ said := fun member => (spaced.mem_cases each member).2 rfl
  have content : Text.content line = said :=
    frames.content_eq slash (spaced.not_isBlank_head? each) (spaced.not_isBlank_getLast? each)
  have means : Means (keyword.name.toList :: words) (.command command) := .command spelled valid
  have speaks : said.isEmpty = false := by simpa using spaced.ne_nil each
  rw [outcome?, content, speaks, spaced.words_eq each, means.ofWords]
  rfl

end row

namespace Writes

theorem newline_notMem {commands : List Command} {lines : List (List Char)}
    (writes : Writes commands lines) : ∀ line ∈ lines, '\n' ∉ line := by
  induction writes with
  | nil => simp
  | silent frames rest ih =>
      exact List.forall_mem_cons.2 ⟨frames.newline_notMem List.not_mem_nil, ih⟩
  | command spelled spaced frames rest ih =>
      exact List.forall_mem_cons.2 ⟨frames.newline_notMem (spelled.newline_notMem spaced), ih⟩

/-- However valid commands are written, their lines have them as outcomes and no others. -/
theorem outcomes {commands : List Command} {lines : List (List Char)}
    (writes : Writes commands lines) (valid : ∀ command ∈ commands, command.Valid) :
    lines.filterMap outcome? = commands.map .command := by
  induction writes with
  | nil => rfl
  | silent frames rest ih =>
      have none := frames.content_eq_nil
      rw [List.filterMap_cons_none (by rw [outcome?, none]; rfl), ih valid]
  | command spelled spaced frames rest ih =>
      obtain ⟨own, others⟩ := List.forall_mem_cons.1 valid
      rw [List.filterMap_cons_some (spelled.outcome?_eq own spaced frames), ih others,
        List.map_cons]

end Writes

/-! ## Canonical lines -/

/-- The text that puts the canonical line of each command on a line of its own. -/
def listing (commands : List Command) : String :=
  sourceOfLines (commands.map fun command => command.text.toList)

theorem isNumeral_numeral (number : UInt16) : IsNumeral (Text.numeral number.toNat) number.toNat :=
  readNumeral16?_eq_some_iff.1 (Text.readNumeral16?_numeral number)

/-- The canonical line of a valid command spells it, with single spaces. -/
theorem Command.exists_spells_text {command : Command} (valid : command.Valid) :
    ∃ keyword words, Spells keyword words command ∧
      Spaced (keyword.name.toList :: words) command.text.toList := by
  -- A row of three words and one of two, as they are written.
  have three (keyword : Keyword) (name : String) (number : UInt16) :
      Spaced [keyword.name.toList, name.toList, Text.numeral number.toNat]
        (keyword.name ++ " " ++ name ++ " " ++ toString number.toNat).toList := by
    have row := Spaced.space keyword.name.toList
      (Spaced.space name.toList (.single (Text.numeral number.toNat)))
    rw [Text.toString_eq_numeral]
    simpa using row
  have two (keyword : Keyword) (name : String) :
      Spaced [keyword.name.toList, name.toList] (keyword.name ++ " " ++ name).toList := by
    have row := Spaced.space keyword.name.toList (.single name.toList)
    simpa using row
  cases command with
  | push segment index =>
      exact ⟨.push, _, .push segment index (isNumeral_numeral index),
        three .push segment.name index⟩
  | pop segment index =>
      exact ⟨.pop, _, .pop segment index (isNumeral_numeral index), three .pop segment.name index⟩
  | operate operator => exact ⟨_, _, .operate operator, .single _⟩
  | label name =>
      refine ⟨.label, [name.toList], ?_, two .label name⟩
      simpa using Spells.label valid
  | goto name =>
      refine ⟨.goto, [name.toList], ?_, two .goto name⟩
      simpa using Spells.goto valid
  | ifGoto name =>
      refine ⟨.ifGoto, [name.toList], ?_, two .ifGoto name⟩
      simpa using Spells.ifGoto valid
  | function name locals =>
      refine ⟨.function, [name.toList, Text.numeral locals.toNat], ?_, three .function name locals⟩
      simpa using Spells.function valid locals (isNumeral_numeral locals)
  | call name arguments =>
      refine ⟨.call, [name.toList, Text.numeral arguments.toNat], ?_, three .call name arguments⟩
      simpa using Spells.call valid arguments (isNumeral_numeral arguments)
  | ret => exact ⟨_, _, .ret, .single _⟩

/-- The canonical lines of valid commands write them. -/
theorem writes_text {commands : List Command} (valid : ∀ command ∈ commands, command.Valid) :
    Writes commands (commands.map fun command => command.text.toList) := by
  induction commands with
  | nil => exact .nil
  | cons command rest ih =>
      obtain ⟨own, others⟩ := List.forall_mem_cons.1 valid
      obtain ⟨keyword, words, spelled, spaced⟩ := Command.exists_spells_text own
      have bare : Text.IsMargin [] := fun character member => absurd member List.not_mem_nil
      have frames : Frames command.text.toList command.text.toList := by
        simpa using @Frames.plain command.text.toList [] [] bare bare
      exact .command spelled spaced frames (ih others)

theorem outcomes_listing {commands : List Command} (valid : ∀ command ∈ commands, command.Valid) :
    (readings (listing commands)).map Reading.outcome = commands.map .command := by
  have writes := writes_text valid
  rw [listing, outcomes_sourceOfLines writes.newline_notMem, writes.outcomes valid]

/-- A source whose readings are all commands is accepted. -/
theorem commands_of_outcomes {source : String} {written : List Command}
    (same : (readings source).map Reading.outcome = written.map .command) :
    commands source = .ok written := by
  rw [commands]
  generalize readings source = read at same
  have found : read.findSome? Reading.fault? = none ∧
      read.filterMap Reading.command? = written := by
    induction read generalizing written with
    | nil =>
        cases written with
        | nil => exact ⟨rfl, rfl⟩
        | cons => cases same
    | cons reading rest ih =>
        cases written with
        | nil => cases same
        | cons command others =>
            rw [List.map_cons, List.map_cons, List.cons.injEq] at same
            obtain ⟨silent, all⟩ := ih same.2
            have fault : reading.fault? = none := by rw [Reading.fault?, same.1]
            have own : reading.command? = some command := by rw [Reading.command?, same.1]
            exact ⟨by rw [List.findSome?_cons, fault, silent],
              by rw [List.filterMap_cons_some own, all]⟩
  rw [found.1, found.2]

/-- The commands that are read from a source, whatever else it says. -/
def commandsOf (source : String) : List Command :=
  (readings source).filterMap Reading.command?

theorem valid_of_mem_commandsOf {source : String} :
    ∀ command ∈ commandsOf source, command.Valid := by
  intro command member
  obtain ⟨reading, inside, meant⟩ := List.mem_filterMap.1 member
  exact valid_of_mem_readings inside meant

/--
However valid commands are written, reading their lines yields them in order
and nothing else, no fault and no skipped line; their canonical lines are one
way to write them.  The commands that any source yields are valid, so they are
found again in their canonical lines.
-/
theorem readings_round_trip {commands : List Command} {lines : List (List Char)}
    (valid : ∀ command ∈ commands, command.Valid) (writes : Writes commands lines)
    (source : String) :
    (readings (sourceOfLines lines)).map Reading.outcome = commands.map .command ∧
    Writes commands (commands.map fun command => command.text.toList) ∧
    (readings (listing commands)).map Reading.outcome = commands.map .command ∧
    (∀ command ∈ commandsOf source, command.Valid) ∧
    (readings (listing (commandsOf source))).map Reading.outcome =
      (commandsOf source).map .command := by
  refine ⟨?_, writes_text valid, outcomes_listing valid, valid_of_mem_commandsOf,
    outcomes_listing valid_of_mem_commandsOf⟩
  rw [outcomes_sourceOfLines writes.newline_notMem, writes.outcomes valid]

/-- Commands among silent lines, with tabs, returns, zeros and comments. -/
def decoratedLines : List (List Char) :=
  [" \t// start\r".toList, "  push\tlocal \t 007 // seven".toList, [], "if-goto A.B$1:\t\r".toList,
   "call F 02//two".toList, []]

def decoratedCommands : List Command :=
  [.push .locals 7, .ifGoto "A.B$1:", .call "F" 2]

theorem writes_decoratedLines : Writes decoratedCommands decoratedLines := by
  have bare : Text.IsMargin [] := by decide
  have indent : Text.IsMargin " \t".toList := by decide
  have double : Text.IsMargin "  ".toList := by decide
  have blank : Text.IsMargin " ".toList := by decide
  have returned : Text.IsMargin "\t\r".toList := by decide
  have space : Text.IsGap " ".toList := by decide
  have tab : Text.IsGap "\t".toList := by decide
  have wide : Text.IsGap " \t ".toList := by decide
  have numeral (word : List Char) (number : Nat)
      (digits : word ≠ [] ∧ word.all Char.isDigit ∧ Nat.ofDigitChars 10 word 0 = number) :
      IsNumeral word number :=
    ⟨digits.1, List.all_eq_true.1 digits.2.1, digits.2.2⟩
  refine .silent (.remarked indent bare (by decide)) ?_
  refine .command (.push .locals 7 (numeral "007".toList 7 (by decide)))
    (.cons _ (by decide) tab (.cons _ (by decide) wide (.single _)))
    (.remarked double blank (by decide)) ?_
  refine .silent (.plain bare bare) ?_
  refine .command (@Spells.ifGoto "A.B$1:".toList (by decide))
    (.cons _ (by decide) space (.single _)) (.plain bare returned) ?_
  refine .command (@Spells.call "F".toList "02".toList (by decide) 2 (numeral _ 2 (by decide)))
    (.cons _ (by decide) space (.cons _ (by decide) space (.single _)))
    (.remarked bare bare (by decide)) ?_
  exact .silent (.plain bare bare) .nil

theorem readings_round_trip_decorated :
    (∀ command ∈ decoratedCommands, command.Valid) ∧ Writes decoratedCommands decoratedLines ∧
    (readings (sourceOfLines decoratedLines)).map Reading.outcome =
      decoratedCommands.map .command ∧
    Writes decoratedCommands (decoratedCommands.map fun command => command.text.toList) ∧
    (readings (listing decoratedCommands)).map Reading.outcome = decoratedCommands.map .command ∧
    (∀ command ∈ commandsOf mixedSource, command.Valid) ∧
    (readings (listing (commandsOf mixedSource))).map Reading.outcome =
      (commandsOf mixedSource).map .command := by
  have valid : ∀ command ∈ decoratedCommands, command.Valid := by decide
  exact ⟨valid, writes_decoratedLines,
    readings_round_trip valid writes_decoratedLines mixedSource⟩

end HackToolchain.Vm
