import HackToolchain.Proofs.Vm.RoundTrip

/-!
# Lines that are read in part

The words that are read of an accepted line are the words its command is shown
with.  They are all words of the line exactly if its only blanks are separators;
behind another blank there is a word that nothing accounts for.
-/

namespace HackToolchain.Vm

/-- A word as it is written and as it is shown: the same, or numerals of one number. -/
def SameWord (written shown : List Char) : Prop :=
  written = shown ∨ ∃ number, IsNumeral written number ∧ IsNumeral shown number

theorem SameWord.refl (word : List Char) : SameWord word word := .inl rfl

/-- The words that spell a command are the same up to leading zeros. -/
theorem Spells.sameWords {keyword keyword' : Keyword} {words words' : Words} {command : Command}
    (spelled : Spells keyword words command) (spelled' : Spells keyword' words' command) :
    List.Forall₂ SameWord (keyword.name.toList :: words) (keyword'.name.toList :: words') := by
  have names {name name' : List Char} (same : String.ofList name = String.ofList name') :
      SameWord name name' :=
    .inl (String.ofList_injective same)
  cases spelled with
  | push segment index numeral =>
      cases spelled' with
      | push _ _ numeral' =>
          exact .cons (.refl _) (.cons (.refl _) (.cons (.inr ⟨_, numeral, numeral'⟩) .nil))
  | pop segment index numeral =>
      cases spelled' with
      | pop _ _ numeral' =>
          exact .cons (.refl _) (.cons (.refl _) (.cons (.inr ⟨_, numeral, numeral'⟩) .nil))
  | label symbol =>
      generalize same : Command.label _ = command at spelled'
      cases spelled' with
      | label symbol' => exact .cons (.refl _) (.cons (names (Command.label.inj same)) .nil)
      | _ => cases same
  | goto symbol =>
      generalize same : Command.goto _ = command at spelled'
      cases spelled' with
      | goto symbol' => exact .cons (.refl _) (.cons (names (Command.goto.inj same)) .nil)
      | _ => cases same
  | ifGoto symbol =>
      generalize same : Command.ifGoto _ = command at spelled'
      cases spelled' with
      | ifGoto symbol' => exact .cons (.refl _) (.cons (names (Command.ifGoto.inj same)) .nil)
      | _ => cases same
  | function symbol count numeral =>
      generalize same : Command.function _ _ = command at spelled'
      cases spelled' with
      | function symbol' count' numeral' =>
          obtain ⟨name, rfl⟩ := Command.function.inj same
          exact .cons (.refl _) (.cons (names name) (.cons (.inr ⟨_, numeral, numeral'⟩) .nil))
      | _ => cases same
  | call symbol count numeral =>
      generalize same : Command.call _ _ = command at spelled'
      cases spelled' with
      | call symbol' count' numeral' =>
          obtain ⟨name, rfl⟩ := Command.call.inj same
          exact .cons (.refl _) (.cons (names name) (.cons (.inr ⟨_, numeral, numeral'⟩) .nil))
      | _ => cases same
  | ret =>
      cases spelled'
      exact .cons (.refl _) .nil
  | operate operator =>
      cases spelled'
      exact .cons (.refl _) .nil

/-- The words that mean a command are the words it is shown with. -/
theorem Means.sameWords {words : Words} {command : Command} (means : Means words (.command command)) :
    List.Forall₂ SameWord words (Text.runs command.text.toList) := by
  cases means with
  | command spelled valid =>
      obtain ⟨keyword', words', spelled', spaced⟩ := Command.exists_spells_text valid
      rw [spaced.runs_eq spelled'.isWord_row]
      exact spelled.sameWords spelled'

/--
The words that are read of an accepted line are those of the command's own
text, up to leading zeros.  The line before its comment has no others exactly if
what it says has no blanks but separators.
-/
theorem command_words {source : String} {reading : Reading} {command : Command}
    (member : reading ∈ readings source) (reads : reading.outcome = .command command) :
    ∃ index line, (Text.lines source.toList)[index]? = some line ∧ reading.line = index + 1 ∧
      reading.text = String.ofList (Text.content line) ∧
      Text.runs (Text.beforeComment line) =
        Text.words (Text.content line) ++ Text.runs (Text.unread (Text.content line)) ∧
      List.Forall₂ SameWord (Text.words (Text.content line)) (Text.runs command.text.toList) ∧
      (List.Forall₂ SameWord (Text.runs (Text.beforeComment line))
          (Text.runs command.text.toList) ↔ Text.IsSeparated (Text.content line)) := by
  obtain ⟨index, line, found, speaks, rfl⟩ := mem_readings_iff.1 member
  have cut : Text.runs (Text.beforeComment line) = Text.runs (Text.content line) :=
    (Text.runs_trim _).symm
  have nonempty : Text.words (Text.content line) ≠ [] := by
    intro none
    change Outcome.ofWords (Text.words (Text.content line)) = _ at reads
    rw [none] at reads
    cases reads
  have same := ((means_iff nonempty).2 reads).sameWords
  have ends : ∀ character ∈ (Text.content line).getLast?, Text.isBlank character = false :=
    Text.not_isBlank_getLast?_trim
  refine ⟨index, line, found, rfl, rfl, cut.trans (Text.runs_eq_append _), same, ?_⟩
  rw [cut, ← Text.runs_unread_eq_nil_iff ends, Text.runs_eq_append]
  constructor
  · intro whole
    -- Both rows of words are as long as the command's own.
    have lengths := whole.length_eq
    rw [List.length_append, same.length_eq] at lengths
    exact List.length_eq_zero_iff.1 (by omega)
  · intro none
    rw [none, List.append_nil]
    exact same

/-- A line with a no-break space in it is read up to there. -/
def shortenedSource : String :=
  "add\u00a0foo // three"

example : (readings shortenedSource).map (fun reading => (reading.text, reading.outcome)) =
    [("add\u00a0foo", .command (.operate (.binary .add)))] := by
  decide +kernel

theorem command_words_shortened :
    ∃ index line, (Text.lines shortenedSource.toList)[index]? = some line ∧ 1 = index + 1 ∧
      "add\u00a0foo" = String.ofList (Text.content line) ∧
      Text.runs (Text.beforeComment line) =
        Text.words (Text.content line) ++ Text.runs (Text.unread (Text.content line)) ∧
      List.Forall₂ SameWord (Text.words (Text.content line)) (Text.runs "add".toList) ∧
      (List.Forall₂ SameWord (Text.runs (Text.beforeComment line)) (Text.runs "add".toList) ↔
        Text.IsSeparated (Text.content line)) := by
  have member : ⟨1, "add\u00a0foo", .command (.operate (.binary .add))⟩ ∈
      readings shortenedSource := by
    decide +kernel
  exact command_words member rfl

end HackToolchain.Vm
