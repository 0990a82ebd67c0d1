import HackToolchain.Proofs.Codegen.Statics
import HackToolchain.Proofs.Cpu.Loading

/-!
# Cells of static variables

However the units of a program are called, an assembled program keeps every
static in a cell of its own between the numbered cells and the stack.  The code
of a push or a pop reaches that cell, wherever in the program it stands, as long
as no declared name is written like a static and the variables fit below 256.
-/

namespace HackToolchain.Cpu

open HackToolchain.Asm (KeepsLine Line instructionCount nameValue?)
open HackToolchain.Codegen
open HackToolchain.Vm

/-- The cell of a static in an assembled program. -/
def staticCell (program : Asm.Program) (owned : String × UInt16) : Nat :=
  ((program.cell? (Symbol.static owned.1 owned.2).text).getD 0).toNat

/-- A name whose load line is read whole, and that stands for nothing but a variable. -/
structure LoadsVariable (program : Asm.Program) (name : String) : Prop where
  /-- Nothing is cut or trimmed from its line. -/
  whole : Text.content ('@' :: name.toList) = '@' :: name.toList
  /-- It is read as a name and not as a number. -/
  named : Asm.Statement.read ('@' :: name.toList) = .ok (.load name)
  /-- It is no register and no device. -/
  own : Asm.predefined? name = none
  /-- It is no label. -/
  unlabelled : program.label? name = none

/-- Every static of a program has a cell of its own, which its pushes and pops reach. -/
structure Allots (items : List Item) (program : Asm.Program) : Prop where
  loads : ∀ owned ∈ staticsOf items, LoadsVariable program (Symbol.static owned.1 owned.2).text
  between : ∀ owned ∈ staticsOf items, 16 ≤ staticCell program owned ∧ staticCell program owned ≤ 255
  apart : ∀ first ∈ staticsOf items, ∀ second ∈ staticsOf items,
    staticCell program first = staticCell program second ↔ first = second
  /-- A push runs from its place to the next one and pushes what the cell holds. -/
  pushes : ∀ position unit index, items[position]? = some (.command unit (.push .statics index)) →
    ∀ memory a d, ∃ a' d',
      Travels program.rom (place items position) (place items (position + 1))
        ⟨memory, place items position, a, d⟩
        ⟨memory.push (memory.read (.ofNat (staticCell program (unit, index)))),
          place items (position + 1), a', d'⟩
  /-- A pop runs from its place to the next one and puts the popped word into the cell. -/
  pops : ∀ position unit index, items[position]? = some (.command unit (.pop .statics index)) →
    ∀ memory a d, ∃ a' d',
      Travels program.rom (place items position) (place items (position + 1))
        ⟨memory, place items position, a, d⟩
        ⟨memory.drop.write (.ofNat (staticCell program (unit, index))) memory.popped,
          place items (position + 1), a', d'⟩

section assembled

variable {items : List Item} {annotate : Bool} {program : Asm.Program} {owned : String × UInt16}

/-- The block of an item without declarations stands at its place, whatever else is declared. -/
theorem stands_of_silent (sound : ∀ item ∈ items, item.Sound)
    (assembled : Asm.Program.assemble (itemsText annotate items) = .ok program) {position : Nat}
    {item : Item} (here : items[position]? = some item)
    (silent : ∀ number, (Code.ofItem number item).declared = []) :
    ∃ number, (linkingOf program).Stands program.rom (place items position)
      (Code.ofItem number item) := by
  obtain ⟨collects, places⟩ :=
    Asm.Program.assemble_render (clean_of_mem_blocks sound annotate 0) assembled
  obtain ⟨before, after, cut, count⟩ := exists_cut annotate 0 here
  refine ⟨0 + labelTotal (items.take position), ?_⟩
  rw [← count]
  rw [cut] at collects places
  refine stands_of_assembled collects places fun symbol member => ?_
  rw [silent] at member
  cases member

/-- The line that loads a static is read as a variable's. -/
theorem loadsVariable_static (sound : ∀ item ∈ items, item.Sound)
    (assembled : Asm.Program.assemble (itemsText annotate items) = .ok program)
    (mentioned : owned ∈ staticsOf items)
    (free : (Symbol.static owned.1 owned.2).text ∉ givenNames items) :
    LoadsVariable program (Symbol.static owned.1 owned.2).text := by
  have clean := clean_of_mem_blocks sound annotate 0 _ (load_static_mem mentioned)
  obtain ⟨collects, -⟩ :=
    Asm.Program.assemble_render (clean_of_mem_blocks sound annotate 0) assembled
  obtain ⟨own, unlabelled⟩ := isVariable_static_of_not_mem collects free
  refine ⟨?_, ?_, own, unlabelled⟩
  · rw [← Line.text_load]
    exact clean.content_text rfl
  · change Asm.Statement.ofOperand _ _ = _
    rw [Asm.Statement.ofOperand, clean.2.1]
    exact congrArg (fun name => Except.ok (Asm.Statement.load name)) String.ofList_toList

theorem staticCell_eq {cell : UInt16} (has : HasCell items program owned cell) :
    staticCell program owned = cell.toNat := by
  rw [staticCell, has.allotted, Option.getD_some]

theorem word_static {cell : UInt16} (loads : LoadsVariable program (Symbol.static owned.1 owned.2).text)
    (has : HasCell items program owned cell) :
    (linkingOf program).word (.static owned.1 owned.2) = .ofNat (staticCell program owned) := by
  have value : nameValue? program.labels program.variableNames
      (Symbol.static owned.1 owned.2).text = some cell :=
    (Asm.nameValue?_of_isVariable ⟨loads.own, loads.unlabelled⟩).trans has.allotted
  rw [staticCell_eq has, ofNat_toNat_index]
  simp only [linkingOf, value, Option.getD_some]

/-- A static has a cell from 16 on, below 256 if there are not too many variables. -/
theorem staticCell_between {cell : UInt16} (few : program.variableNames.length ≤ 240)
    (has : HasCell items program owned cell) :
    16 ≤ staticCell program owned ∧ staticCell program owned ≤ 255 := by
  obtain ⟨position, found, rfl⟩ := Option.map_eq_some_iff.1 has.allotted
  obtain ⟨inside, -, -⟩ := List.idxOf?_eq_some_iff.1 found
  have small : position < 240 := Nat.lt_of_lt_of_le inside few
  rw [staticCell_eq has, Asm.toNat_variableCell (Nat.lt_trans small (by decide)), Asm.variableBase]
  omega

/-- Code without jumps and declarations runs from the place of its item to the next. -/
theorem runs_silent (sound : ∀ item ∈ items, item.Sound)
    (assembled : Asm.Program.assemble (itemsText annotate items) = .ok program) {position : Nat}
    {item : Item} {code : Code} (here : items[position]? = some item)
    (same : ∀ number, Code.ofItem number item = code) (straight : code.all isStraight)
    (silent : code.declared = []) (nonempty : code ≠ []) {memory result : Memory}
    (effect : ∀ machine : Machine, machine.memory = memory →
      (afterAll (linkingOf program) code machine).memory = result) (a d : Word) :
    ∃ a' d', Travels program.rom (place items position) (place items (position + 1))
      ⟨memory, place items position, a, d⟩ ⟨result, place items (position + 1), a', d'⟩ := by
  obtain ⟨number, stands⟩ :=
    stands_of_silent sound assembled here fun number => (same number).symm ▸ silent
  rw [same] at stands
  rw [place_succ here, itemSize, same]
  exact travels_code stands straight nonempty effect a d

end assembled

/--
In an assembled program no declared name of which is written like one of its
statics, and which has no more variables than fit below 256, the statics are
kept apart by unit and index, whatever the units are called.
-/
theorem statics_allotted {sources : List (String × String)} {units : List SourceUnit}
    {entry : Option String} {annotate : Bool} {program : Asm.Program}
    (read : readUnits sources = .ok units)
    (keeps : ∀ source ∈ sources, KeepsLine source.1.toList)
    (starts : ∀ name ∈ entry, isSymbol name.toList)
    (assembled : Asm.Program.assemble (programText annotate entry units) = .ok program)
    (free : ∀ owned ∈ staticsOf (programItems entry units),
      (Symbol.static owned.1 owned.2).text ∉ givenNames (programItems entry units))
    (few : program.variableNames.length ≤ 240) : Allots (programItems entry units) program := by
  have sound := sound_of_mem_programItems read starts keeps
  have loads := fun owned mentioned =>
    loadsVariable_static sound assembled mentioned (free owned mentioned)
  have cells := fun owned mentioned =>
    exists_hasCell sound assembled mentioned (free owned mentioned)
  have word {position : Nat} {unit : String} {index : UInt16} {command : Command}
      (here : (programItems entry units)[position]? = some (.command unit command))
      (static : (Item.command unit command).static? = some (unit, index)) :
      (linkingOf program).word (.static unit index) = .ofNat (staticCell program (unit, index)) := by
    have mentioned := List.mem_filterMap.2 ⟨_, List.mem_of_getElem? here, static⟩
    obtain ⟨cell, has⟩ := cells _ mentioned
    exact @word_static _ _ (unit, index) _ (loads _ mentioned) has
  constructor
  case loads => exact loads
  case between =>
    intro owned mentioned
    obtain ⟨cell, has⟩ := cells owned mentioned
    exact staticCell_between few has
  case apart =>
    intro first mentioned second mentioned'
    obtain ⟨cell, has⟩ := cells first mentioned
    obtain ⟨cell', has'⟩ := cells second mentioned'
    rw [staticCell_eq has, staticCell_eq has', UInt16.toNat_inj]
    constructor
    · rintro rfl
      exact has.inj (Nat.le_trans (Nat.add_le_add_left few 16) (by decide)) has'
    · rintro rfl
      exact Option.some.inj (has.allotted.symm.trans has'.allotted)
  case pushes =>
    intro position unit index here memory a d
    refine runs_silent sound assembled here (fun _ => rfl) rfl rfl (List.cons_ne_nil _ _) ?_ a d
    rintro machine rfl
    rw [← word here rfl]
    exact (grounded_linkingOf program).memory_pushCell machine _
  case pops =>
    intro position unit index here memory a d
    refine runs_silent sound assembled here (fun _ => rfl) rfl rfl (List.cons_ne_nil _ _) ?_ a d
    rintro machine rfl
    rw [← word here rfl]
    exact (grounded_linkingOf program).memory_popCell machine _

/-- Sources of odd names, two of them the same, and one named like a static of another. -/
def oddSources : List (String × String) :=
  [("R1", "push static 0"), ("A.static.1", "pop static 2"), ("A", "push static 1"),
    ("(1) @b", "push static 0"), ("R1", "pop static 0")]

def oddUnits : List SourceUnit :=
  [⟨"R1", [.push .statics 0]⟩, ⟨"A.static.1", [.pop .statics 2]⟩, ⟨"A", [.push .statics 1]⟩,
    ⟨"(1) @b", [.push .statics 0]⟩, ⟨"R1", [.pop .statics 0]⟩]

theorem statics_allotted_odd : ∃ program,
    readUnits oddSources = .ok oddUnits ∧
    Asm.Program.assemble (programText false none oddUnits) = .ok program ∧
    program.variableNames.length ≤ 240 ∧ Allots (programItems none oddUnits) program := by
  have read : readUnits oddSources = .ok oddUnits := by decide +kernel
  have plain : ∀ source ∈ oddSources, '\n' ∉ source.1.toList ∧ '/' ∉ source.1.toList := by decide
  have keeps : ∀ source ∈ oddSources, KeepsLine source.1.toList := fun source member =>
    ⟨(plain source member).1, Text.commentFree_of_notMem (plain source member).2⟩
  have starts : ∀ name ∈ (none : Option String), isSymbol name.toList := nofun
  have sound := sound_of_mem_programItems read starts keeps
  obtain ⟨program, assembled, size⟩ := @exists_assembled _ false sound 28 (by decide +kernel)
  have few : program.variableNames.length ≤ 240 := by
    refine (length_variableNames_le_size sound assembled).trans ?_
    rw [size]
    decide
  have free : ∀ owned ∈ staticsOf (programItems none oddUnits),
      (Symbol.static owned.1 owned.2).text ∉ givenNames (programItems none oddUnits) := by
    intro owned _
    exact List.not_mem_nil
  exact ⟨program, read, assembled, few, statics_allotted read keeps starts assembled free few⟩

end HackToolchain.Cpu
