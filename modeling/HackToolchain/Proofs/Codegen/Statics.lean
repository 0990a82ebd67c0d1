import HackToolchain.Proofs.Codegen.Names

/-!
# Static variables

A static variable is told by its text: by the name of its unit and its index.
In an assembled program every static that is not written like a declared name
has a cell, which all its loads hold, and no two statics share one as long as
the variables fit sixteen bits.
-/

namespace HackToolchain.Codegen

open HackToolchain.Asm (instructionCount nameValue?)
open HackToolchain.Vm

theorem Symbol.static_text_inj {unit other : String} {index another : UInt16} :
    (static unit index).text = (static other another).text ↔ unit = other ∧ index = another := by
  constructor
  · intro same
    cases text_inj (by rfl) (by rfl) same
    exact ⟨rfl, rfl⟩
  · rintro ⟨rfl, rfl⟩
    rfl

/-- Two units have no static text in common exactly if their names differ. -/
theorem Symbol.forall_static_text_ne_iff {unit other : String} :
    (∀ index another, (static unit index).text ≠ (static other another).text) ↔ unit ≠ other := by
  constructor
  · rintro apart rfl
    exact apart 0 0 rfl
  · exact fun differ index another same => differ (static_text_inj.1 same).1

/-- A static, by its unit and its index, has a cell in a program that all its loads hold. -/
structure HasCell (items : List Item) (program : Asm.Program) (owned : String × UInt16)
    (cell : UInt16) : Prop where
  allotted : program.cell? (Symbol.static owned.1 owned.2).text = some cell
  loaded : ∀ {position : Nat} {block : Block} {first rest : Code},
    (blocks 0 items)[position]? = some block →
    block.code = first ++ .load (.static owned.1 owned.2) :: rest →
      program.rom[place items position + instructionCount first]? = some (.load cell.toInt16)

section assembled

variable {items : List Item} {program : Asm.Program} {owned other : String × UInt16} {cell : UInt16}

theorem exists_hasCell {annotate : Bool} (sound : ∀ item ∈ items, item.Sound)
    (assembled : Asm.Program.assemble (itemsText annotate items) = .ok program)
    (mentioned : owned ∈ staticsOf items)
    (free : (Symbol.static owned.1 owned.2).text ∉ givenNames items) :
    ∃ cell, HasCell items program owned cell := by
  obtain ⟨collects, places⟩ :=
    Asm.Program.assemble_render (clean_of_mem_blocks sound annotate 0) assembled
  have isVariable := isVariable_static_of_not_mem collects free
  obtain ⟨position, -, -, value⟩ := places.exists_cell (loaded_static mentioned) isVariable
  refine ⟨Asm.variableCell position, ?_, fun here split => ?_⟩
  · rw [Asm.Program.cell?, ← Asm.nameValue?_of_isVariable isVariable, value]
  · rw [getElem?_load places here split, value, Option.getD_some]

/-- Statics of one cell are the same static. -/
theorem HasCell.inj (few : 16 + program.variableNames.length ≤ UInt16.size)
    (first : HasCell items program owned cell) (second : HasCell items program other cell) :
    owned = other := by
  have within : program.variableNames.length ≤ Asm.variableLimit := by
    rw [Asm.variableLimit, Asm.variableBase]
    omega
  obtain ⟨units, indices⟩ :=
    Symbol.static_text_inj.1 (Asm.Program.cell?_inj within first.allotted second.allotted)
  exact Prod.ext units indices

end assembled

end HackToolchain.Codegen
