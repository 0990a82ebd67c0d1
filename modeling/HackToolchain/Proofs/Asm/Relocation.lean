import HackToolchain.Proofs.Asm.Assembly

/-!
# Programs behind more instructions

When more instructions stand before the lines of a program, its labels move and
nothing else does, even where the labels are called by other names.  Every
name that is loaded has to be a label of both programs, moved by the number of
these instructions, or else the same name and a label of neither.
-/

namespace HackToolchain.Asm

/-- The lines of a text that become instructions, in order. -/
def instructionLines (text : String) : List (List Char) :=
  (Text.contents text.toList).filter fun line => !isAside line

/-- Increase the word that an instruction loads. -/
def Instruction.raise (distance : Nat) : Instruction → Instruction
  | load value => load (UInt16.ofNat (value.toUInt16.toNat + distance)).toInt16
  | compute computation => compute computation

/-- Increase the word that the instruction of a line loads if the line names a label. -/
def Program.relocate (program : Program) (distance : Nat) (line : List Char)
    (instruction : Instruction) : Instruction :=
  match line with
  | '@' :: name =>
      if (program.label? (String.ofList name)).isSome then instruction.raise distance
      else instruction
  | _ => instruction

/--
A program consists of instructions at its start, followed by the program of a
text in which exactly the loads that name labels are increased, by the number
of the instructions at the start.
-/
structure Program.Follows (moved program : Program) (text : String) (start : List Instruction) :
    Prop where
  length : (instructionLines text).length = program.rom.size
  rom : moved.rom.toList = start ++
    List.zipWith (program.relocate start.length) (instructionLines text) program.rom.toList
  variableNames : moved.variableNames = program.variableNames

theorem Program.variableNames_eq_foldl {lines : List (Line String)} {program : Program}
    (clean : ∀ line ∈ lines, line.Clean) (assembled : assemble (render lines) = .ok program) :
    program.variableNames = (loadedNames lines).foldl (meet program.labels) [] := by
  have done := (passes assembled).2
  rw [contents_render clean] at done
  exact (placeInstructions_eq (fun line member => (clean line member).loadsName) done).1

/-! ## Names that move -/

theorem Program.relocate_of_unlabelled {program : Program} (distance : Nat) {name : String}
    (free : program.label? name = none) (instruction : Instruction) :
    program.relocate distance ('@' :: name.toList) instruction = instruction := by
  rw [relocate, String.ofList_toList, free, Option.isSome_none, if_neg (by decide)]

theorem Program.relocate_compute (program : Program) (distance : Nat) (computation : Compute)
    (instruction : Instruction) :
    program.relocate distance computation.text.toList instruction = instruction := by
  unfold relocate
  split
  next name same =>
    have member : '@' ∈ computation.text.toList := by
      rw [same]
      exact List.mem_cons_self
    exact absurd ((Compute.text_alphabet computation).2 '@' member) (by decide)
  next => rfl

/-- How a name of one program reappears in another one, behind more instructions. -/
inductive Shifted (labels moved : Labels) (distance : Nat) : String → String → Prop
  /-- A label moves by the distance, whatever it is called. -/
  | label {name other : String} (place : Nat) (free : predefined? name = none)
      (free' : predefined? other = none) (here : labels.lookup name = some place)
      (there : moved.lookup other = some (distance + place)) :
      Shifted labels moved distance name other
  /-- Other names stay what they are. -/
  | same {name : String} (here : labels.lookup name = none) (there : moved.lookup name = none) :
      Shifted labels moved distance name name

namespace Shifted

variable {labels moved : Labels} {distance : Nat} {name other : String}

theorem meet_eq (shifted : Shifted labels moved distance name other) (known : List String) :
    meet moved known other = meet labels known name := by
  cases shifted with
  | label place _ _ here there =>
      rw [meet_of_not_isVariable (not_isVariable_of_lookup there),
        meet_of_not_isVariable (not_isVariable_of_lookup here)]
  | same here there => simp only [meet, IsVariable, here, there]

/-- A load is relocated with its name. -/
theorem settle_eq {program : Program} (shifted : Shifted program.labels moved distance name other) :
    (Statement.load other).settle moved program.variableNames =
      program.relocate distance (Line.load name).text.toList
        ((Statement.load name).settle program.labels program.variableNames) := by
  rw [Line.text_load, Program.relocate, String.ofList_toList, Program.label?, Statement.settle,
    Statement.settle, nameValue?, nameValue?]
  cases shifted with
  | label place free free' here there =>
      have word : (UInt16.ofNat place).toInt16.toUInt16.toNat = place % UInt16.size := by simp
      have sum : (UInt16.ofNat (place % UInt16.size + distance)) =
          UInt16.ofNat (distance + place) := by
        rw [← UInt16.toNat_inj, UInt16.toNat_ofNat', UInt16.toNat_ofNat', Nat.add_comm distance,
          Nat.mod_add_mod]
      rw [free, free', here, there, Option.isSome_some, if_pos rfl]
      simp only [Option.getD_some, Instruction.raise, word, sum]
  | same here there =>
      rw [here, there]
      rfl

end Shifted

/-! ## Lines that move -/

section lines

variable {Symbol : Type} {lines : List (Line Symbol)} {before after : Symbol → String}
  {start : List (Line String)} {labels moved : Labels}

theorem Line.map_map {Middle Name : Type} (first : Symbol → Middle) (second : Middle → Name)
    (line : Line Symbol) : (line.map first).map second = line.map (second ∘ first) := by
  cases line <;> rfl

/-- A declared symbol is a label under both names, moved by the instructions at the start. -/
theorem Collects.exists_place (collects : Collects (lines.map (Line.map before)) 0 [] labels)
    (collects' : Collects (start ++ lines.map (Line.map after)) 0 [] moved) {symbol : Symbol}
    (declared : .declare symbol ∈ lines) :
    ∃ place, labels.lookup (before symbol) = some place ∧
      moved.lookup (after symbol) = some (instructionCount start + place) := by
  obtain ⟨earlier, later, rfl⟩ := List.append_of_mem declared
  refine ⟨instructionCount earlier, ?_, ?_⟩
  · have here := collects.placed (earlier.map (Line.map before)) (before symbol)
      (later.map (Line.map before)) (by simp [Line.map])
    rwa [instructionCount_map, Nat.zero_add] at here
  · have there := collects'.placed (start ++ earlier.map (Line.map after)) (after symbol)
      (later.map (Line.map after)) (by simp [Line.map])
    rwa [instructionCount_append, instructionCount_map, Nat.zero_add] at there

/-- What lines load is shifted from one naming of their symbols to another one. -/
structure ShiftedLines (labels moved : Labels) (distance : Nat) (before after : Symbol → String)
    (lines : List (Line Symbol)) : Prop where
  load : ∀ symbol, .load symbol ∈ lines →
    Shifted labels moved distance (before symbol) (after symbol)
  /-- Written numbers are no labels. -/
  number : ∀ value, .number value ∈ lines →
    labels.lookup (toString value) = none ∧ moved.lookup (toString value) = none

namespace ShiftedLines

variable {distance : Nat}

theorem tail {line : Line Symbol} {rest : List (Line Symbol)}
    (shifted : ShiftedLines labels moved distance before after (line :: rest)) :
    ShiftedLines labels moved distance before after rest where
  load symbol member := shifted.load symbol (List.mem_cons_of_mem _ member)
  number value member := shifted.number value (List.mem_cons_of_mem _ member)

/-- The same variables are met in the same order. -/
theorem foldl_meet_eq (shifted : ShiftedLines labels moved distance before after lines)
    (known : List String) :
    (loadedNames (lines.map (Line.map after))).foldl (meet moved) known =
      (loadedNames (lines.map (Line.map before))).foldl (meet labels) known := by
  induction lines generalizing known with
  | nil => rfl
  | cons line rest ih =>
      have own : (loadedNames [line.map after]).foldl (meet moved) known =
          (loadedNames [line.map before]).foldl (meet labels) known := by
        cases line with
        | load symbol => exact (shifted.load symbol List.mem_cons_self).meet_eq known
        | number value =>
            obtain ⟨here, there⟩ := shifted.number value List.mem_cons_self
            by_cases small : value < UInt16.size
            · simp [loadedNames, Line.map, Line.statement?, small]
            · have met := (@Shifted.same _ _ distance _ here there).meet_eq known
              simpa [loadedNames, Line.map, Line.statement?, small] using met
        | compute | declare | remark => rfl
      rw [List.map_cons, List.map_cons, loadedNames_cons, List.foldl_append, own,
        ih shifted.tail, ← List.foldl_append, ← loadedNames_cons]

/-- Every line becomes its relocated instruction. -/
theorem settle_eq {program : Program} {line : Line Symbol}
    (shifted : ShiftedLines program.labels moved distance before after lines)
    (member : line ∈ lines) :
    (line.map after).statement?.map (Statement.settle moved program.variableNames) =
      ((line.map before).statement?.map
        (Statement.settle program.labels program.variableNames)).map
          (program.relocate distance (line.map before).text.toList) := by
  cases line with
  | load symbol => exact congrArg some (shifted.load symbol member).settle_eq
  | number value =>
      obtain ⟨here, there⟩ := shifted.number value member
      have text : (Line.number value).text = (Line.load (toString value)).text := rfl
      -- A number that is no word is a name, though never that of a label.
      by_cases small : value < UInt16.size
      · have kept := program.relocate_of_unlabelled distance here
          (.load (UInt16.ofNat value).toInt16)
        rw [← Line.text_load, ← text] at kept
        simp only [Line.map, Line.statement?, if_pos small, Option.map_some, Statement.settle, kept]
      · have same := (@Shifted.same _ _ distance _ here there).settle_eq
        rw [← text] at same
        simp only [Line.map, Line.statement?, if_neg small, Option.map_some, same]
  | compute computation =>
      have kept := program.relocate_compute distance computation (.compute computation)
      exact congrArg some kept.symm
  | declare | remark => rfl

end ShiftedLines

end lines

/-! ## Programs that move -/

/-- The lines that become instructions are found in the text in order. -/
theorem instructionLines_render {lines : List (Line String)} (clean : ∀ line ∈ lines, line.Clean) :
    instructionLines (render lines) =
      (lines.filter Line.isInstruction).map fun line => line.text.toList := by
  rw [instructionLines, contents_render clean, spoken_filter]

/-- Instructions and their lines go together. -/
theorem zipWith_instructions {Found : Type} {find : Line String → Option Instruction}
    (found : ∀ line, (find line).isSome = line.isInstruction)
    (join : List Char → Instruction → Found) (lines : List (Line String)) :
    List.zipWith join ((lines.filter Line.isInstruction).map fun line => line.text.toList)
        (lines.filterMap find) =
      lines.filterMap fun line => (find line).map (join line.text.toList) := by
  induction lines with
  | nil => rfl
  | cons line rest ih =>
      have own := found line
      cases answer : find line with
      | none =>
          rw [answer, Option.isSome_none] at own
          rw [List.filter_cons_of_neg (by simp [← own]), List.filterMap_cons_none answer, ih,
            List.filterMap_cons_none (by rw [answer, Option.map_none])]
      | some instruction =>
          rw [answer, Option.isSome_some] at own
          rw [List.filter_cons_of_pos own.symm, List.map_cons, List.filterMap_cons_some answer,
            List.zipWith_cons_cons, ih,
            List.filterMap_cons_some (by rw [answer, Option.map_some])]

theorem isSome_settled (labels : Labels) (names : List String) (line : Line String) :
    (line.statement?.map (Statement.settle labels names)).isSome = line.isInstruction := by
  cases line <;> rfl

section programs

variable {Symbol : Type} {lines : List (Line Symbol)} {before after : Symbol → String}
  {start : List (Line String)} {plain moved : Program}

/--
Take the program of lines, and the program of the same lines with other names
behind some more, which load no variable.  If what is loaded is shifted by
the instructions in front, then so are the programs.
-/
theorem Program.follows_of_shifted
    (clean : ∀ line ∈ lines.map (Line.map before), line.Clean)
    (clean' : ∀ line ∈ start ++ lines.map (Line.map after), line.Clean)
    (assembled : assemble (render (lines.map (Line.map before))) = .ok plain)
    (assembled' : assemble (render (start ++ lines.map (Line.map after))) = .ok moved)
    (bound : ∀ name ∈ loadedNames start, ¬ IsVariable moved.labels name)
    (shifted : ShiftedLines plain.labels moved.labels (instructionCount start) before after lines) :
    moved.Follows plain (render (lines.map (Line.map before)))
      (start.filterMap fun line =>
        line.statement?.map (Statement.settle moved.labels moved.variableNames)) := by
  have places := (assemble_render clean assembled).2
  have places' := (assemble_render clean' assembled').2
  have names : moved.variableNames = plain.variableNames := by
    rw [variableNames_eq_foldl clean' assembled', variableNames_eq_foldl clean assembled,
      loadedNames_append, List.foldl_append, foldl_meet_of_not_isVariable bound,
      shifted.foldl_meet_eq]
  refine ⟨?_, ?_, names⟩
  · rw [instructionLines_render clean, List.length_map, ← List.countP_eq_length_filter,
      places.size_eq, instructionCount]
  · rw [Places.length_settled, places'.instructions, places.instructions, List.nil_append,
      List.nil_append, List.filterMap_append, instructionLines_render clean,
      zipWith_instructions (isSome_settled _ _), List.filterMap_map, List.filterMap_map]
    refine congrArg (_ ++ ·) (List.filterMap_congr fun line member => ?_)
    rw [names]
    exact shifted.settle_eq member

end programs

end HackToolchain.Asm
