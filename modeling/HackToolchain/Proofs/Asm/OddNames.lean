import HackToolchain.Proofs.Asm.Assembly

/-!
# Odd names

The load of a name that looks like a number or ends in blanks may be read as
something else.  It is one instruction all the same: as long as every line
keeps to itself, the labels and all other instructions are where the lines put
them.
-/

namespace HackToolchain.Asm

/-! ## Labels -/

namespace Line.Kept

variable {line : Line String}

/-- What a line says is its written form, or a load like it. -/
theorem content_cases (kept : line.Kept) (speaks : line.isRemark = false) :
    Text.content line.text.toList = line.text.toList ∨
      ∃ name, line = .load name ∧
        Text.content line.text.toList = '@' :: Text.trimEnd name.toList := by
  cases line with
  | load name => exact .inr ⟨name, rfl, content_load kept⟩
  | number | compute | declare => exact .inl (kept.content_text rfl speaks)
  | remark => cases speaks

theorem declared?_content (kept : line.Kept) (speaks : line.isRemark = false) :
    Asm.declared? (Text.content line.text.toList) = Asm.declared? line.text.toList := by
  rcases kept.content_cases speaks with same | ⟨name, rfl, same⟩
  · rw [same]
  · rw [same, text_load]
    rfl

theorem isAside_content (kept : line.Kept) (speaks : line.isRemark = false) :
    isAside (Text.content line.text.toList) = isAside line.text.toList := by
  rcases kept.content_cases speaks with same | ⟨name, rfl, same⟩
  · rw [same]
  · rw [same, text_load]
    rfl

end Line.Kept

section lines

variable {lines : List (Line String)}

/-- Labels are collected from what lines say as from their written forms. -/
theorem collectLabels_said (kept : ∀ line ∈ lines, line.Kept) (place : Nat) (labels : Labels) :
    collectLabels (said lines) place labels = collectLabels (spoken lines) place labels := by
  induction lines generalizing place labels with
  | nil => rfl
  | cons line rest ih =>
      have own := kept line List.mem_cons_self
      have later := ih fun other member => kept other (List.mem_cons_of_mem _ member)
      cases remark : line.isRemark with
      | true => rw [said_remark remark, spoken_remark remark, later]
      | false =>
          rw [said_cons remark, spoken_cons remark, collectLabels, collectLabels,
            own.declared?_content remark]
          simp only [later]

/-- What the instruction lines among lines say. -/
theorem said_filter (kept : ∀ line ∈ lines, line.Kept) :
    (said lines).filter (fun line => !isAside line) =
      (lines.filter Line.isInstruction).map fun line => Text.content line.text.toList := by
  induction lines with
  | nil => rfl
  | cons line rest ih =>
      have own := kept line List.mem_cons_self
      have later := ih fun other member => kept other (List.mem_cons_of_mem _ member)
      cases instruction : line.isInstruction with
      | true =>
          have speaks := Line.isRemark_of_isInstruction instruction
          have plain : (!isAside (Text.content line.text.toList)) = true := by
            rw [own.isAside_content speaks, Line.isAside_of_isInstruction instruction]
            rfl
          rw [said_cons speaks, List.filter_cons_of_pos (p := fun line => !isAside line) plain,
            later, List.filter_cons_of_pos instruction, List.map_cons]
      | false =>
          rw [List.filter_cons_of_neg (by simp [instruction]), ← later]
          cases line with
          | number | load | compute => cases instruction
          | remark remarked => rw [said_remark rfl]
          | declare name =>
              have aside := own.isAside_content rfl
              rw [Line.isAside_text_declare] at aside
              rw [said_cons rfl, List.filter_cons_of_neg (by simp [aside])]

end lines

/-! ## Instructions -/

section place

variable {labels : Labels} {known names : List String} {placed rom : Array Instruction}

/-- Whatever the lines say, they add one instruction each and keep what was placed and known. -/
theorem placeInstructions_continued {lines : List (List Char)}
    (done : placeInstructions labels lines known placed = .ok (rom, names)) :
    known <+: names ∧ placed.toList <+: rom.toList ∧ rom.size = placed.size + lines.length := by
  induction lines generalizing known placed with
  | nil =>
      cases done
      exact ⟨List.prefix_rfl, List.prefix_rfl, rfl⟩
  | cons line rest ih =>
      obtain ⟨statement, -, -, done⟩ := exists_read_of_placeInstructions done
      obtain ⟨names', placed', size⟩ := ih done
      refine ⟨(statement.prefix_meet labels known).trans names', ?_, ?_⟩
      · rw [Array.toList_push] at placed'
        exact (List.prefix_append _ _).trans placed'
      · rw [size, Array.size_push, List.length_cons]
        omega

/-- Every line is read, and its instruction stands after those of the lines before it. -/
theorem exists_placed {before after : List (List Char)} {line : List Char}
    (done : placeInstructions labels (before ++ line :: after) known placed = .ok (rom, names)) :
    ∃ statement, Statement.read line = .ok statement ∧
      rom[placed.size + before.length]? = some (statement.settle labels names) := by
  induction before generalizing known placed with
  | nil =>
      rw [List.nil_append] at done
      obtain ⟨statement, read, -, done⟩ := exists_read_of_placeInstructions done
      obtain ⟨continued, ⟨later, same⟩, -⟩ := placeInstructions_continued done
      refine ⟨statement, read, ?_⟩
      rw [← Array.getElem?_toList, ← same, Array.toList_push,
        Statement.settle_of_continued continued]
      simp
  | cons first rest ih =>
      rw [List.cons_append] at done
      obtain ⟨other, -, -, done⟩ := exists_read_of_placeInstructions done
      obtain ⟨statement, reads, here⟩ := ih done
      rw [Array.size_push, Nat.add_assoc, Nat.add_comm 1] at here
      exact ⟨statement, reads, here⟩

end place

/-- How an assembled program lays out the lines of its text, whatever names they load. -/
structure Program.LaysOut (program : Program) (lines : List (Line String)) : Prop where
  collects : Collects lines 0 [] program.labels
  size : program.rom.size = instructionCount lines
  /-- A line that is found again in the text becomes its instruction. -/
  instruction : ∀ before line after statement, lines = before ++ line :: after → line.Clean →
    line.statement? = some statement → program.rom[instructionCount before]? =
      some (statement.settle program.labels program.variableNames)

/-- Lines that keep to themselves are laid out in order. -/
theorem Program.laysOut_of_kept {lines : List (Line String)} {program : Program}
    (kept : ∀ line ∈ lines, line.Kept) (assembled : assemble (render lines) = .ok program) :
    program.LaysOut lines := by
  obtain ⟨collected, done⟩ := passes assembled
  rw [contents_render_of_kept kept] at collected done
  rw [collectLabels_said kept] at collected
  rw [said_filter kept] at done
  refine ⟨collectLabels_spoken collected, ?_, ?_⟩
  · rw [(placeInstructions_continued done).2.2, List.length_map, instructionCount,
      List.countP_eq_length_filter]
    exact Nat.zero_add _
  · rintro before line after statement rfl clean becomes
    have instruction : line.isInstruction := by
      cases line <;> first | rfl | cases becomes
    rw [List.filter_append, List.filter_cons_of_pos instruction, List.map_append,
      List.map_cons, clean.content_text (Line.isRemark_of_isInstruction instruction)] at done
    have count : instructionCount before =
        (#[] : Array Instruction).size + ((before.filter Line.isInstruction).map
          fun line => Text.content line.text.toList).length := by
      rw [List.length_map, instructionCount, List.countP_eq_length_filter]
      exact (Nat.zero_add _).symm
    obtain ⟨read, reads, here⟩ := exists_placed done
    have same := Line.read_text clean.loadsName instruction reads
    rw [becomes, Option.some.injEq] at same
    rw [count, here, same]

end HackToolchain.Asm
