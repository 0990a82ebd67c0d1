import HackToolchain.Proofs.Vm.Exactness

/-!
# Commands of sources are valid

A line is read as a command only if the command is valid, so its names are
symbols.  Symbols consist of visible characters that neither end a line nor
start a comment.
-/

namespace HackToolchain.Vm

/-- Symbol characters are visible, end no line and start no comment. -/
theorem plain_of_isSymbolChar {character : Char} (symbolic : isSymbolChar character) :
    Text.isBlank character = false ∧ character ≠ '\n' ∧ character ≠ '/' := by
  delta isSymbolChar Char.isAlphanum Char.isAlpha Char.isUpper Char.isLower Char.isDigit at symbolic
  simp only [Bool.or_eq_true, Bool.and_eq_true, decide_eq_true_eq, beq_iff_eq,
    UInt32.le_iff_toNat_le, ge_iff_le] at symbolic
  change (((((((65 ≤ character.toNat ∧ character.toNat ≤ 90) ∨
    (97 ≤ character.toNat ∧ character.toNat ≤ 122)) ∨
    (48 ≤ character.toNat ∧ character.toNat ≤ 57)) ∨ character = '_') ∨ character = '.') ∨
    character = '$') ∨ character = ':') at symbolic
  have alphanumeric (range : 48 ≤ character.toNat ∧ character.toNat ≤ 122) :
      Text.isBlank character = false ∧ character ≠ '\n' ∧ character ≠ '/' := by
    refine ⟨?_, ?_, ?_⟩
    · simp only [Text.isBlank, Text.blankRanges, List.any_cons, List.any_nil, Bool.or_false,
        Bool.or_eq_false_iff, Bool.and_eq_false_iff, decide_eq_false_iff_not]
      omega
    · rintro rfl
      exact absurd range (by decide)
    · rintro rfl
      exact absurd range (by decide)
  rcases symbolic with ((((letter | digit) | rfl) | rfl) | rfl) | rfl
  · exact alphanumeric (by omega)
  · exact alphanumeric (by omega)
  all_goals decide

theorem Means.valid {words : Words} {outcome : Outcome} {command : Command}
    (means : Means words outcome) (commands : outcome = .command command) : command.Valid := by
  cases means with
  | command spelled valid => exact Outcome.command.inj commands ▸ valid
  | _ => cases commands

/-- Whatever else a source says, the commands in it are valid. -/
theorem valid_of_mem_readings {source : String} {reading : Reading} {command : Command}
    (member : reading ∈ readings source) (meant : reading.command? = some command) :
    command.Valid := by
  obtain ⟨index, line, -, -, rfl⟩ := mem_readings_iff.1 member
  have outcome : Outcome.ofWords (Text.words (Text.content line)) = .command command := by
    unfold Reading.command? at meant
    split at meant
    next other same => rw [← Option.some.inj meant, ← same, Reading.ofContent]
    next => cases meant
  have nonempty : Text.words (Text.content line) ≠ [] := by
    intro empty
    rw [empty] at outcome
    cases outcome
  exact ((means_iff nonempty).2 outcome).valid rfl

theorem valid_of_mem_commands {source : String} {read : List Command} {command : Command}
    (accepted : commands source = .ok read) (member : command ∈ read) : command.Valid := by
  unfold commands at accepted
  split at accepted
  next => cases accepted
  next =>
    rw [← Except.ok.inj accepted, List.mem_filterMap] at member
    obtain ⟨reading, inside, meant⟩ := member
    exact valid_of_mem_readings inside meant

end HackToolchain.Vm
