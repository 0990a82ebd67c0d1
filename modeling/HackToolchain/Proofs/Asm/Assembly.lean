import HackToolchain.Proofs.Asm.Rendering
import HackToolchain.Proofs.Asm.Resolving

/-!
# What assembling yields

When a list of clean lines is assembled, every label stands for the number of
instructions before its declaration, every instruction line becomes one
instruction, and every other name has one cell for the whole program: the
variables are the names that are met in the order of the lines.
-/

namespace HackToolchain.Asm

/-- The names that lines declare, in order. -/
def declaredNames (lines : List (Line String)) : List String :=
  lines.filterMap Line.declared?

def instructionCount {Symbol : Type} (lines : List (Line Symbol)) : Nat :=
  lines.countP Line.isInstruction

@[simp] theorem instructionCount_append {Symbol : Type} (first second : List (Line Symbol)) :
    instructionCount (first ++ second) = instructionCount first + instructionCount second :=
  List.countP_append

/-- Renamed lines become as many instructions. -/
theorem instructionCount_map {Symbol Name : Type} (rename : Symbol → Name)
    (lines : List (Line Symbol)) :
    instructionCount (lines.map (Line.map rename)) = instructionCount lines := by
  rw [instructionCount, instructionCount, List.countP_map]
  exact List.countP_congr fun line _ => by simp

theorem instructionCount_cons {Symbol : Type} (line : Line Symbol) (rest : List (Line Symbol)) :
    instructionCount (line :: rest) = instructionCount [line] + instructionCount rest :=
  instructionCount_append [line] rest

/-! ## Labels -/

namespace Line

theorem declared?_text (name : String) :
    Asm.declared? (declare name).text.toList = some name := by
  rw [text_declare, Asm.declared?]
  simp

theorem head_text {line : Line String} (instruction : line.isInstruction) :
    line.text.toList.head? ≠ some '(' := by
  cases line with
  | number value => simp [text_number]
  | load name => simp [text_load]
  | compute computation =>
      intro first
      have alphabet := (Compute.text_alphabet computation).2
      exact absurd (alphabet '(' (List.mem_of_head? first)) (by decide)
  | declare | remark => cases instruction

theorem declared?_of_isInstruction {line : Line String} (instruction : line.isInstruction) :
    Asm.declared? line.text.toList = none := by
  have head := head_text instruction
  unfold Asm.declared?
  split
  next same => exact absurd (by rw [same]; rfl) head
  next => rfl

theorem isAside_text_declare (name : String) :
    isAside (declare name).text.toList = true := by
  rw [text_declare]
  rfl

theorem isAside_of_isInstruction {line : Line String} (instruction : line.isInstruction) :
    isAside line.text.toList = false := by
  have head := head_text instruction
  unfold isAside
  split
  next same => exact absurd (by rw [same]; rfl) head
  next => rfl

theorem isRemark_of_isInstruction {Symbol : Type} {line : Line Symbol}
    (instruction : line.isInstruction) : line.isRemark = false := by
  cases line with
  | remark => cases instruction
  | _ => rfl

end Line

/-- What collecting the labels of lines from a place on finds. -/
structure Collects (lines : List (Line String)) (place : Nat) (labels found : Labels) : Prop where
  /-- No name is declared that was known before. -/
  fresh : ∀ name ∈ declaredNames lines, labels.lookup name = none
  /-- No name is declared twice. -/
  nodup : (declaredNames lines).Nodup
  /-- Other names keep what they stand for. -/
  kept : ∀ name, name ∉ declaredNames lines → found.lookup name = labels.lookup name
  /-- A declared name stands for its place. -/
  placed : ∀ earlier name later, lines = earlier ++ .declare name :: later →
    found.lookup name = some (place + instructionCount earlier)

namespace Collects

theorem nil (place : Nat) (labels : Labels) : Collects [] place labels labels where
  fresh := by simp [declaredNames]
  nodup := List.nodup_nil
  kept _ _ := rfl
  placed earlier name later split := by simp at split

/-- A line that declares nothing only moves the place of what follows. -/
theorem cons {line : Line String} {rest : List (Line String)} {place : Nat}
    {labels found : Labels} (silent : line.declared? = none)
    (collects : Collects rest (place + instructionCount [line]) labels found) :
    Collects (line :: rest) place labels found := by
  have same : declaredNames (line :: rest) = declaredNames rest := by
    rw [declaredNames, List.filterMap_cons_none silent, declaredNames]
  refine ⟨same ▸ collects.fresh, same ▸ collects.nodup, same ▸ collects.kept, ?_⟩
  intro earlier name later split
  cases earlier with
  | nil =>
      rw [List.nil_append, List.cons.injEq] at split
      rw [split.1] at silent
      cases silent
  | cons first others =>
      rw [List.cons_append, List.cons.injEq] at split
      rw [collects.placed others name later split.2, split.1, Nat.add_assoc,
        ← instructionCount_cons]

/-- A declaration makes its name stand for the place it is met at. -/
theorem declare {name : String} {rest : List (Line String)} {place : Nat}
    {labels found : Labels} (fresh : labels.lookup name = none)
    (collects : Collects rest place ((name, place) :: labels) found) :
    Collects (.declare name :: rest) place labels found := by
  have names : declaredNames (.declare name :: rest) = name :: declaredNames rest := rfl
  have apart : name ∉ declaredNames rest := by
    intro member
    have unknown := collects.fresh name member
    simp at unknown
  have others (other : String) (differs : other ≠ name) :
      ((name, place) :: labels).lookup other = labels.lookup other := by
    rw [List.lookup_cons, beq_false_of_ne differs]
  refine ⟨?_, ?_, ?_, ?_⟩
  · intro other member
    rw [names, List.mem_cons] at member
    rcases member with rfl | later
    · exact fresh
    · rw [← others other fun same => apart (same ▸ later)]
      exact collects.fresh other later
  · rw [names]
    exact List.nodup_cons.2 ⟨apart, collects.nodup⟩
  · intro other absent
    rw [names, List.mem_cons, not_or] at absent
    rw [collects.kept other absent.2, others other absent.1]
  · intro earlier other later split
    cases earlier with
    | nil =>
        rw [List.nil_append, List.cons.injEq] at split
        obtain ⟨same, -⟩ := split
        cases same
        rw [collects.kept name apart]
        simp [instructionCount]
    | cons first following =>
        rw [List.cons_append, List.cons.injEq] at split
        rw [collects.placed following other later split.2, ← split.1, instructionCount_cons]
        simp [instructionCount, Line.isInstruction]

/-- A declared name is declared by one of the lines. -/
theorem exists_cut {lines : List (Line String)} {name : String}
    (declared : name ∈ declaredNames lines) :
    ∃ earlier later, lines = earlier ++ .declare name :: later := by
  obtain ⟨line, inside, declares⟩ := List.mem_filterMap.1 declared
  cases line with
  | declare other =>
      cases declares
      exact List.append_of_mem inside
  | _ => cases declares

section collected

variable {lines : List (Line String)} {found : Labels} {name : String}

/-- Exactly the declared names have labels. -/
theorem lookup_eq_none_iff {place : Nat} (collects : Collects lines place [] found) :
    found.lookup name = none ↔ name ∉ declaredNames lines := by
  constructor
  · intro none declared
    obtain ⟨earlier, later, split⟩ := exists_cut declared
    rw [collects.placed earlier name later split] at none
    cases none
  · exact fun absent => collects.kept name absent

/-- Labels stand for places up to the end. -/
theorem place_le (collects : Collects lines 0 [] found) {place : Nat}
    (here : found.lookup name = some place) : place ≤ instructionCount lines := by
  have declared : name ∈ declaredNames lines := by
    by_contra absent
    rw [collects.lookup_eq_none_iff.2 absent] at here
    cases here
  obtain ⟨earlier, later, rfl⟩ := exists_cut declared
  rw [collects.placed earlier name later rfl, Nat.zero_add, Option.some.injEq] at here
  rw [← here, instructionCount_append]
  exact Nat.le_add_right _ _

end collected

end Collects

/-- Labels are collected from the written forms of lines as from the lines themselves. -/
theorem collectLabels_spoken {lines : List (Line String)} {place : Nat} {labels found : Labels}
    (collected : collectLabels (spoken lines) place labels = .ok found) :
    Collects lines place labels found := by
  induction lines generalizing place labels with
  | nil =>
      cases collected
      exact .nil place _
  | cons line rest ih =>
      cases instruction : line.isInstruction with
      | true =>
          rw [spoken_cons (Line.isRemark_of_isInstruction instruction), collectLabels,
            Line.declared?_of_isInstruction instruction] at collected
          refine .cons (by cases line <;> first | rfl | cases instruction) ?_
          rw [instructionCount, List.countP_singleton, if_pos instruction]
          exact ih collected
      | false =>
          cases line with
          | number | load | compute => cases instruction
          | remark remarked =>
              rw [spoken_remark rfl] at collected
              refine .cons rfl ?_
              rw [instructionCount, List.countP_singleton, if_neg (by simp [Line.isInstruction])]
              exact ih collected
          | declare name =>
              rw [spoken_cons rfl, collectLabels, Line.declared?_text] at collected
              dsimp only at collected
              split at collected
              next => cases collected
              next unknown => exact .declare unknown (ih collected)

/-! ## Instructions -/

/-- The names that statements of lines load. -/
def loadedNames (lines : List (Line String)) : List String :=
  lines.filterMap fun line =>
    match line.statement? with
    | some (.load name) => some name
    | _ => none

theorem loadedNames_append (first second : List (Line String)) :
    loadedNames (first ++ second) = loadedNames first ++ loadedNames second :=
  List.filterMap_append

theorem loadedNames_cons (line : Line String) (rest : List (Line String)) :
    loadedNames (line :: rest) = loadedNames [line] ++ loadedNames rest :=
  loadedNames_append [line] rest

theorem loadedNames_of_silent {line : Line String} (silent : line.statement? = none)
    (rest : List (Line String)) : loadedNames (line :: rest) = loadedNames rest := by
  rw [loadedNames, List.filterMap_cons_none (by rw [silent]), loadedNames]

/-- The names of lines are met statement by statement. -/
theorem foldl_meet_loadedNames {labels : Labels} {line : Line String} {statement : Statement}
    (becomes : line.statement? = some statement) (rest : List (Line String))
    (known : List String) :
    (loadedNames (line :: rest)).foldl (meet labels) known =
      (loadedNames rest).foldl (meet labels) (statement.meet labels known) := by
  cases statement with
  | number | compute =>
      rw [loadedNames, List.filterMap_cons_none (by rw [becomes])]
      rfl
  | load name =>
      rw [loadedNames, List.filterMap_cons_some (by rw [becomes])]
      rfl

/-- What placing the instructions of lines yields. -/
structure Places (labels : Labels) (lines : List (Line String)) (known : List String)
    (placed rom : Array Instruction) (names : List String) : Prop where
  /-- Known variables keep their positions. -/
  continued : known <+: names
  /-- Every instruction line is settled in its turn. -/
  instructions : rom.toList =
    placed.toList ++ lines.filterMap fun line => line.statement?.map (Statement.settle labels names)
  /-- No variable has two positions. -/
  nodup : known.Nodup → names.Nodup
  /-- The variables are the loaded names that have no other value. -/
  member : ∀ name, name ∈ names ↔
    name ∈ known ∨ name ∈ loadedNames lines ∧ IsVariable labels name

namespace Places

section placed

variable {labels : Labels} {lines before after : List (Line String)} {rom : Array Instruction}
  {names : List String}

/-- As many lines are settled as there are instruction lines. -/
theorem length_settled (labels : Labels) (names : List String) (lines : List (Line String)) :
    (lines.filterMap fun line => line.statement?.map (Statement.settle labels names)).length =
      instructionCount lines := by
  rw [List.length_filterMap_eq_countP, instructionCount]
  refine List.countP_congr fun line _ => ?_
  cases line <;> simp [Line.statement?, Line.isInstruction]

/-- The number of instructions is the number of instruction lines. -/
theorem size_eq (places : Places labels lines [] #[] rom names) :
    rom.size = instructionCount lines := by
  rw [← Array.length_toList, places.instructions, List.nil_append, length_settled]

/-- An instruction line is found settled after the instructions of the lines before it. -/
theorem getElem?_eq {line : Line String} {statement : Statement}
    (places : Places labels (before ++ line :: after) [] #[] rom names)
    (becomes : line.statement? = some statement) :
    rom[instructionCount before]? = some (statement.settle labels names) := by
  rw [← Array.getElem?_toList, places.instructions, List.nil_append, List.filterMap_append,
    List.getElem?_append_right (Nat.le_of_eq (length_settled labels names before)),
    length_settled, Nat.sub_self, List.filterMap_cons_some (by rw [becomes, Option.map_some])]
  rfl

/-- A variable that is loaded has the cell of its position. -/
theorem exists_cell (places : Places labels lines [] #[] rom names) {name : String}
    (loaded : name ∈ loadedNames lines) (free : IsVariable labels name) :
    ∃ position < names.length, names[position]? = some name ∧
      nameValue? labels names name = some (variableCell position) := by
  have member := (places.member name).2 (.inr ⟨loaded, free⟩)
  obtain ⟨position, found⟩ := Option.isSome_iff_exists.1 (List.isSome_idxOf?.2 member)
  obtain ⟨inside, same, -⟩ := List.idxOf?_eq_some_iff.1 found
  refine ⟨position, inside, List.getElem?_eq_some_iff.2 ⟨inside, same⟩, ?_⟩
  rw [nameValue?_of_isVariable free, found, Option.map_some]

end placed

end Places

theorem spoken_filter (lines : List (Line String)) :
    (spoken lines).filter (fun line => !isAside line) =
      (lines.filter Line.isInstruction).map fun line => line.text.toList := by
  induction lines with
  | nil => rfl
  | cons line rest ih =>
      cases instruction : line.isInstruction with
      | true =>
          rw [spoken_cons (Line.isRemark_of_isInstruction instruction),
            List.filter_cons_of_pos (by simp [Line.isAside_of_isInstruction instruction]), ih,
            List.filter_cons_of_pos instruction, List.map_cons]
      | false =>
          rw [List.filter_cons_of_neg (by simp [instruction]), ← ih]
          cases line with
          | number | load | compute => cases instruction
          | remark remarked => rw [spoken_remark rfl]
          | declare name =>
              rw [spoken_cons rfl,
                List.filter_cons_of_neg (by simp [Line.isAside_text_declare])]

/-- Placing lines meets their names and settles their statements, both in order. -/
theorem placeInstructions_eq {labels : Labels} {lines : List (Line String)}
    {known names : List String} {placed rom : Array Instruction}
    (loads : ∀ line ∈ lines, line.LoadsName)
    (done : placeInstructions labels ((spoken lines).filter fun line => !isAside line) known
      placed = .ok (rom, names)) :
    names = (loadedNames lines).foldl (meet labels) known ∧
      rom.toList = placed.toList ++
        lines.filterMap fun line => line.statement?.map (Statement.settle labels names) := by
  rw [spoken_filter] at done
  induction lines generalizing known placed with
  | nil =>
      cases done
      exact ⟨rfl, by simp⟩
  | cons line rest ih =>
      have later := fun other member => loads other (List.mem_cons_of_mem _ member)
      cases instruction : line.isInstruction with
      | false =>
          rw [List.filter_cons_of_neg (by simp [instruction])] at done
          have silent : line.statement? = none := by
            cases line <;> first | rfl | cases instruction
          rw [loadedNames_of_silent silent,
            List.filterMap_cons_none (by rw [silent, Option.map_none])]
          exact ih later done
      | true =>
          rw [List.filter_cons_of_pos instruction, List.map_cons] at done
          obtain ⟨statement, read, -, done⟩ := exists_read_of_placeInstructions done
          have becomes := Line.read_text (loads line List.mem_cons_self) instruction read
          obtain ⟨met, settled⟩ := ih later done
          have continued : statement.meet labels known <+: names :=
            met ▸ prefix_foldl_meet labels _ _
          refine ⟨by rw [foldl_meet_loadedNames becomes, ← met], ?_⟩
          rw [settled, List.filterMap_cons_some (by rw [becomes, Option.map_some]),
            Statement.settle_of_continued continued]
          simp

theorem placeInstructions_spoken {labels : Labels} {lines : List (Line String)}
    {known names : List String} {placed rom : Array Instruction}
    (loads : ∀ line ∈ lines, line.LoadsName)
    (done : placeInstructions labels ((spoken lines).filter fun line => !isAside line) known
      placed = .ok (rom, names)) :
    Places labels lines known placed rom names := by
  obtain ⟨rfl, settled⟩ := placeInstructions_eq loads done
  exact ⟨prefix_foldl_meet labels _ known, settled, nodup_foldl_meet, fun _ => mem_foldl_meet⟩

/-- An assembled program is what both passes over its text have found. -/
theorem Program.passes {text : String} {program : Program}
    (assembled : assemble text = .ok program) :
    collectLabels (Text.contents text.toList) 0 [] = .ok program.labels ∧
      placeInstructions program.labels
          ((Text.contents text.toList).filter fun line => !isAside line) [] #[] =
        .ok (program.rom, program.variableNames) := by
  rw [assemble] at assembled
  cases collected : collectLabels (Text.contents text.toList) 0 [] with
  | error fault => simp [collected] at assembled
  | ok labels =>
      simp only [collected] at assembled
      cases done : placeInstructions labels
          ((Text.contents text.toList).filter fun line => !isAside line) [] #[] with
      | error fault => simp [done] at assembled
      | ok result =>
          simp only [done, Except.ok.injEq] at assembled
          subst assembled
          exact ⟨rfl, done⟩

/-- The addresses of the variables of any assembled program fit sixteen bits. -/
theorem Program.length_variableNames_le_limit {text : String} {program : Program}
    (assembled : assemble text = .ok program) : program.variableNames.length ≤ variableLimit :=
  length_le_of_placeInstructions (passes assembled).2 (Nat.zero_le _)

/-- No two variables share a cell if all their addresses fit, as they do once assembled. -/
theorem Program.cell?_inj {program : Program}
    (few : program.variableNames.length ≤ variableLimit) {name other : String} {cell : UInt16}
    (here : program.cell? name = some cell) (there : program.cell? other = some cell) :
    name = other := by
  obtain ⟨position, found, same⟩ := Option.map_eq_some_iff.1 here
  obtain ⟨position', found', same'⟩ := Option.map_eq_some_iff.1 there
  obtain ⟨inside, names, -⟩ := List.idxOf?_eq_some_iff.1 found
  obtain ⟨inside', names', -⟩ := List.idxOf?_eq_some_iff.1 found'
  have cells := congrArg UInt16.toNat (same.trans same'.symm)
  rw [toNat_variableCell (Nat.lt_of_lt_of_le inside few),
    toNat_variableCell (Nat.lt_of_lt_of_le inside' few)] at cells
  have positions : position = position' := Nat.add_left_cancel cells
  subst positions
  rw [← names, ← names']

/-- What assembling a rendered list of clean lines yields. -/
theorem Program.assemble_render {lines : List (Line String)} {program : Program}
    (clean : ∀ line ∈ lines, line.Clean) (assembled : assemble (render lines) = .ok program) :
    Collects lines 0 [] program.labels ∧
      Places program.labels lines [] #[] program.rom program.variableNames := by
  obtain ⟨collected, done⟩ := passes assembled
  rw [contents_render clean] at collected done
  refine ⟨collectLabels_spoken collected, ?_⟩
  exact placeInstructions_spoken (fun line member => (clean line member).loadsName) done

end HackToolchain.Asm
