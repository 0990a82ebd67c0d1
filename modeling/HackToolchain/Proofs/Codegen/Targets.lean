import HackToolchain.Proofs.Codegen.Acceptance
import HackToolchain.Proofs.Codegen.Names

/-!
# Where given names lead

The names that commands declare and continue at are written as they are, among
the labels of generated code, the statics and the names that every program
knows.  A declared name is never taken for a variable.  Only two things can
come between a name and its declaration: a label of generated code with the
same text, and then assembling fails, and a predefined value.
-/

namespace HackToolchain.Codegen

open HackToolchain.Asm (KeepsLine Line instructionCount nameValue?)
open HackToolchain.Vm

/-- The code of an item that declares a name starts with the declaration. -/
theorem exists_ofItem_eq_declare {item : Item} {name : String}
    (declares : item.declared? = some name) (number : Nat) :
    ∃ rest, Code.ofItem number item = .declare (.given name) :: rest := by
  cases item with
  | start => cases declares
  | command unit command =>
      cases command with
      | label | function =>
          cases declares
          exact ⟨_, rfl⟩
      | _ => cases declares

/-- How the names that items continue at are resolved in a program. -/
structure Resolves (items : List Item) (program : Asm.Program) : Prop where
  /-- Code loads the name that its item continues at, and no other given name. -/
  loads : ∀ {position : Nat} {item : Item} {block : Block}, items[position]? = some item →
    (blocks 0 items)[position]? = some block → ∀ name,
      Symbol.given name ∈ block.code.loaded ↔ item.target? = some name
  /-- Where a name that is not predefined is loaded, it is the place of the item declaring it. -/
  leads : ∀ {position target : Nat} {block : Block} {item : Item} {name : String}
    {first rest : Code},
    (blocks 0 items)[position]? = some block → block.code = first ++ .load (.given name) :: rest →
    items[target]? = some item → item.declared? = some name → Asm.predefined? name = none →
      ∃ address : UInt16, address.toNat = place items target ∧
        program.rom[place items position + instructionCount first]? =
          some (.load address.toInt16)
  /-- Where a predefined name is loaded, it is the predefined value, declared or not. -/
  fixed : ∀ {position : Nat} {block : Block} {name : String} {first rest : Code} {value : UInt16},
    (blocks 0 items)[position]? = some block → block.code = first ++ .load (.given name) :: rest →
    Asm.predefined? name = some value →
      program.rom[place items position + instructionCount first]? = some (.load value.toInt16)

section assembled

variable {items : List Item} {annotate : Bool} {labels : Asm.Labels}

/-- A declared name is the label of the place where the block of its item stands. -/
theorem lookup_declared (collects : Asm.Collects
      ((blocks 0 items).flatMap (Block.lines annotate)) 0 [] labels) {target : Nat} {item : Item}
    {name : String} (there : items[target]? = some item) (declares : item.declared? = some name) :
    labels.lookup name = some (place items target) := by
  obtain ⟨before, after, cut, count⟩ := exists_cut annotate 0 there
  obtain ⟨rest, code⟩ := exists_ofItem_eq_declare declares (0 + labelTotal (items.take target))
  rw [cut, code] at collects
  rw [collects.placed before name (Code.named rest ++ after) rfl, count, Nat.zero_add]

/-- The names of a program that was assembled are resolved, if it fits the addresses. -/
theorem resolves_of_assembled {program : Asm.Program} (sound : ∀ item ∈ items, item.Sound)
    (assembled : Asm.Program.assemble (itemsText annotate items) = .ok program)
    (small : program.rom.size ≤ memorySize) : Resolves items program := by
  obtain ⟨collects, places⟩ :=
    Asm.Program.assemble_render (clean_of_mem_blocks sound annotate 0) assembled
  refine ⟨?_, ?_, ?_⟩
  · intro position item block here stands name
    rw [getElem?_blocks, here] at stands
    cases stands
    exact Code.given_mem_loaded_iff
  · intro position target block item name first rest here split there declares free
    -- The block of the declaration stands within the program, so its place is an address.
    have within : place items target ≤ memorySize := by
      refine Nat.le_trans ?_ small
      rw [size_of_assembled sound assembled]
      exact place_mono items (Nat.le_of_lt (List.getElem?_eq_some_iff.1 there).1)
    refine ⟨.ofNat (place items target), ?_, ?_⟩
    · exact UInt16.toNat_ofNat_of_lt' (Nat.lt_of_le_of_lt within (by decide))
    · have value : nameValue? program.labels program.variableNames name =
          some (.ofNat (place items target)) := by
        rw [nameValue?, free, lookup_declared collects there declares]
      rw [getElem?_load places here split, Symbol.text, value]
      rfl
  · intro position block name first rest value here split predefined
    have known : nameValue? program.labels program.variableNames name = some value := by
      rw [nameValue?, predefined]
    rw [getElem?_load places here split, Symbol.text, known]
    rfl

end assembled

/--
Take accepted sources in units that keep to their lines, as symbols do, with
an entry that is a symbol or none, and no name declared twice.  The text declares
no label twice exactly if no label of generated code is written like a declared
name.  If it is assembled and fits the addresses, the names aimed at lead to
their declarations unless they are predefined.
-/
theorem given_names_resolve {entry : Option String} {annotate : Bool}
    {sources : List (String × String)} {units : List SourceUnit}
    (read : readUnits sources = .ok units)
    (keeps : ∀ source ∈ sources, KeepsLine source.1.toList)
    (starts : ∀ name ∈ entry, isSymbol name.toList)
    (distinct : (givenNames (programItems entry units)).Nodup) :
    let items := programItems entry units
    ((Asm.declaredNames ((blocks 0 items).flatMap (Block.lines annotate))).Nodup ↔
      ∀ label ∈ blockLabels (blocks 0 items), label.text ∉ givenNames items) ∧
    ∀ program, Asm.Program.assemble (programText annotate entry units) = .ok program →
      program.rom.size ≤ memorySize → Resolves items program := by
  have sound := sound_of_mem_programItems read starts keeps
  refine ⟨?_, fun program => resolves_of_assembled sound⟩
  exact nodup_declaredNames_iff.trans (and_iff_right distinct)

/-- A unit with a function that calls itself unless a static variable is one. -/
def repeatingUnit : SourceUnit :=
  ⟨"M", [.function "Main" 0, .label "LOOP", .push .statics 0, .push .constant 1,
    .operate (.compare .eq), .ifGoto "LOOP", .call "Main" 0, .goto "LOOP"]⟩

def repeatingSource : String × String :=
  ("M", "function Main 0\nlabel LOOP\npush static 0\npush constant 1\neq\nif-goto LOOP\n" ++
    "call Main 0\ngoto LOOP")

theorem given_names_resolve_repeating :
    let items := programItems (some "Main") [repeatingUnit]
    (Asm.declaredNames ((blocks 0 items).flatMap (Block.lines false))).Nodup ∧
    ∃ program,
      Asm.Program.assemble (programText false (some "Main") [repeatingUnit]) = .ok program ∧
        Resolves items program ∧ program.rom[119]? = some (.load 46) := by
  intro items
  have read : readUnits [repeatingSource] = .ok [repeatingUnit] := by decide +kernel
  have symbols : ∀ source ∈ [repeatingSource], isSymbol source.1.toList := by decide
  have keeps := fun source member => keepsLine_of_isSymbol (symbols source member)
  have starts : ∀ name ∈ some "Main", isSymbol name.toList := by decide
  obtain ⟨unique, resolves⟩ := @given_names_resolve _ false _ _ read keeps starts (by decide)
  have nodup := unique.2 (by decide)
  have sound := sound_of_mem_programItems read starts keeps
  obtain ⟨program, assembled⟩ := exists_assemble_itemsText sound nodup (by decide)
    (variablesFit_of_length (by decide))
  have small : program.rom.size ≤ memorySize := by
    rw [size_of_assembled sound assembled]
    decide
  have holds := resolves program assembled small
  refine ⟨nodup, program, assembled, holds, ?_⟩
  -- The last command jumps to the label behind the function.
  have here : (blocks 0 items)[8]? = some (.ofItem 3 (.command "M" (.goto "LOOP"))) := by decide
  have there : items[2]? = some (.command "M" (.label "LOOP")) := rfl
  obtain ⟨address, number, load⟩ :=
    @holds.leads 8 2 _ _ "LOOP" [] [Code.jump] here rfl there rfl rfl
  rw [UInt16.toNat_inj.1 (show address.toNat = (46 : UInt16).toNat from number)] at load
  exact load

/-! ## Captured names -/

/-- A unit that jumps to a label of a predefined name. -/
def keyboardUnit : SourceUnit :=
  ⟨"M", [.goto "KBD", .label "KBD", .push .constant 5]⟩

def keyboardSource : String × String :=
  ("M", "goto KBD\nlabel KBD\npush constant 5")

/-- A unit with a label that is written like one of the comparison after it. -/
def imitatingUnit : SourceUnit :=
  ⟨"M", [.label "M$CMP_TRUE.0", .operate (.compare .eq)]⟩

def imitatingSource : String × String :=
  ("M", "label M$CMP_TRUE.0\neq")

/--
A jump to a declared name leads to the address of the keyboard and not to the
declaration, and a declared name is declared again by generated code.
-/
theorem given_names_captured :
    (let items := programItems none [keyboardUnit]
     readUnits [keyboardSource] = .ok [keyboardUnit] ∧ isSymbol keyboardSource.1.toList ∧
      (givenNames items).Nodup ∧ (∀ item ∈ items, ∀ name ∈ item.target?, name ∈ givenNames items) ∧
      items[0]? = some (.command "M" (.goto "KBD")) ∧
      items[1]? = some (.command "M" (.label "KBD")) ∧ place items 1 = 2 ∧
      ∃ program, Asm.Program.assemble (programText false none [keyboardUnit]) = .ok program ∧
        program.rom.size ≤ memorySize ∧ program.rom[0]? = some (.load 24576)) ∧
    (let items := programItems none [imitatingUnit]
     readUnits [imitatingSource] = .ok [imitatingUnit] ∧ isSymbol imitatingSource.1.toList ∧
      (givenNames items).Nodup ∧ (∀ item ∈ items, ∀ name ∈ item.target?, name ∈ givenNames items) ∧
      ¬ (Asm.declaredNames ((blocks 0 items).flatMap (Block.lines false))).Nodup) := by
  refine ⟨?_, by decide +kernel⟩
  have read : readUnits [keyboardSource] = .ok [keyboardUnit] := by decide +kernel
  have symbols : ∀ source ∈ [keyboardSource], isSymbol source.1.toList := by decide
  have sound := @sound_of_mem_programItems none _ _ read (by decide)
    fun source member => keepsLine_of_isSymbol (symbols source member)
  obtain ⟨program, assembled⟩ := @exists_assemble_itemsText _ sound false (by decide) (by decide)
    (variablesFit_of_length (by decide))
  have small : program.rom.size ≤ memorySize := by
    rw [size_of_assembled sound assembled]
    decide
  have here : (blocks 0 (programItems none [keyboardUnit]))[0]? =
      some (.ofItem 0 (.command "M" (.goto "KBD"))) := by decide
  have load := @(resolves_of_assembled sound assembled small).fixed 0 _ "KBD" [] [Code.jump] 24576
    here rfl (by decide)
  exact ⟨read, by decide, by decide, by decide, rfl, rfl, by decide, program, assembled, small,
    load⟩

end HackToolchain.Codegen
