import HackToolchain.Codegen.Program
import HackToolchain.Proofs.Asm.Rendering
import HackToolchain.Proofs.Vm.Validity

/-!
# Sound items

The commands of an accepted source are valid, so the names in them are made of
symbol characters only.  If the names of the units keep to their lines as well,
every item of the program is sound.
-/

namespace HackToolchain.Vm

open HackToolchain.Asm (KeepsLine)

/-- A symbol keeps to its line. -/
theorem keepsLine_of_isSymbol {name : List Char} (symbol : isSymbol name) : KeepsLine name := by
  have plain (character : Char) (member : character ∈ name) :=
    plain_of_isSymbolChar (isSymbolChar_of_isSymbol symbol member)
  exact ⟨fun member => (plain _ member).2.1 rfl,
    Text.commentFree_of_notMem fun member => (plain _ member).2.2 rfl⟩

/-- A symbol is no numeral: it does not start with a digit or a sign. -/
theorem readSigned16?_of_isSymbol {name : List Char} (symbol : isSymbol name) :
    Text.readSigned16? name = none := by
  cases name with
  | nil => cases symbol
  | cons first rest =>
      have symbolic := isSymbolChar_of_isSymbol symbol List.mem_cons_self
      simp only [isSymbol, Bool.and_eq_true, Bool.not_eq_true'] at symbol
      refine Asm.readSigned16?_of_mem List.mem_cons_self symbol.1 ?_
      rintro rfl
      exact absurd symbolic (by decide)

theorem not_isBlank_getLast?_of_isSymbol {name : List Char} (symbol : isSymbol name) :
    ∀ character ∈ name.getLast?, Text.isBlank character = false := by
  intro character last
  exact (plain_of_isSymbolChar
    (isSymbolChar_of_isSymbol symbol (List.mem_of_getLast? last))).1

namespace Item

/-- Names of the source that generated code can carry. -/
def Sound : Item → Prop
  | start entry => isSymbol entry.toList
  | command unit written => KeepsLine unit.toList ∧ written.Valid

/-- Items with valid commands, whatever the units and the entry are called. -/
def Valid : Item → Prop
  | start _ => True
  | command _ written => written.Valid

theorem Sound.valid {item : Item} (sound : item.Sound) : item.Valid := by
  cases item with
  | start => trivial
  | command => exact sound.2

end Item

end HackToolchain.Vm

namespace HackToolchain.Codegen

open HackToolchain.Asm (KeepsLine Line)
open HackToolchain.Vm

/-- Sources are read into units of the same names. -/
theorem readUnits_spec {sources : List (String × String)} {units : List SourceUnit}
    (accepted : readUnits sources = .ok units) :
    ∀ unit ∈ units, (∃ source, (unit.name, source) ∈ sources) ∧
      ∀ command ∈ unit.commands, command.Valid := by
  induction sources generalizing units with
  | nil =>
      cases accepted
      simp
  | cons first rest ih =>
      obtain ⟨name, source⟩ := first
      rw [readUnits] at accepted
      split at accepted
      next => cases accepted
      next read own =>
        split at accepted
        next => cases accepted
        next others later =>
          rw [← Except.ok.inj accepted]
          intro unit member
          rcases List.mem_cons.1 member with rfl | inside
          · exact ⟨⟨source, List.mem_cons_self⟩, fun _ => valid_of_mem_commands own⟩
          · obtain ⟨⟨other, listed⟩, valid⟩ := ih later unit inside
            exact ⟨⟨other, List.mem_cons_of_mem _ listed⟩, valid⟩

/-- The items of accepted sources: perhaps a start, and valid commands of the named units. -/
theorem mem_programItems_of_readUnits {entry : Option String} {sources : List (String × String)}
    {units : List SourceUnit} (accepted : readUnits sources = .ok units) {item : Item}
    (member : item ∈ programItems entry units) :
    (∃ name ∈ entry, item = .start name) ∨
      ∃ source ∈ sources, ∃ command : Command, item = .command source.1 command ∧ command.Valid := by
  rw [programItems, List.mem_append, Option.mem_toList,
    Option.map_eq_some_iff, List.mem_flatMap] at member
  rcases member with ⟨name, same, rfl⟩ | ⟨unit, inside, mapped⟩
  · exact .inl ⟨name, same, rfl⟩
  · obtain ⟨command, written, rfl⟩ := List.mem_map.1 mapped
    obtain ⟨⟨source, listed⟩, valid⟩ := readUnits_spec accepted unit inside
    exact .inr ⟨_, listed, command, rfl, valid command written⟩

/-- The items of accepted sources are valid. -/
theorem valid_of_mem_programItems {entry : Option String} {sources : List (String × String)}
    {units : List SourceUnit} (accepted : readUnits sources = .ok units) :
    ∀ item ∈ programItems entry units, item.Valid := by
  intro item member
  rcases mem_programItems_of_readUnits accepted member with
    ⟨name, -, rfl⟩ | ⟨source, -, command, rfl, valid⟩
  · trivial
  · exact valid

/-- The items of accepted sources are sound. -/
theorem sound_of_mem_programItems {entry : Option String} {sources : List (String × String)}
    {units : List SourceUnit} (accepted : readUnits sources = .ok units)
    (starts : ∀ name ∈ entry, isSymbol name.toList)
    (keeps : ∀ source ∈ sources, KeepsLine source.1.toList) :
    ∀ item ∈ programItems entry units, item.Sound := by
  intro item member
  rcases mem_programItems_of_readUnits accepted member with
    ⟨name, same, rfl⟩ | ⟨source, listed, command, rfl, valid⟩
  · exact starts name same
  · exact ⟨keeps source listed, valid⟩

end HackToolchain.Codegen
