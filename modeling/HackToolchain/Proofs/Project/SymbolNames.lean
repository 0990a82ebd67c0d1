import HackToolchain.Proofs.Codegen.SymbolNames
import HackToolchain.Proofs.Project.Discovery
import HackToolchain.Proofs.Project.Isolation

/-!
# Names in the text of a run

The entry and the stems of source files are not held to symbols, whereas names
in source text are.  So a run writes well-formed lines only exactly if the entry
and the stems that its text carries happen to be symbols.
-/

namespace HackToolchain.Files

theorem FileName.stem_ne_nil {name : List Char} (nonempty : name ≠ []) :
    (FileName.ofName name).stem ≠ [] := by
  unfold FileName.ofName
  split
  next => exact nonempty
  next => exact nonempty
  next after dot before several cut => exact fun none => several (List.reverse_eq_nil_iff.1 none)

/-- A path with a name has a stem. -/
theorem FilePath.stem_ne_empty {path : FilePath} (named : lastName? path.text.toList ≠ none) :
    path.stem ≠ "" := by
  obtain ⟨name, found⟩ := Option.ne_none_iff_exists'.1 named
  have nonempty : name ≠ [] := by
    unfold lastName? at found
    dsimp only at found
    split at found
    next => cases found
    next others =>
      cases found
      exact fun none => others (.inl none)
  unfold stem fileName?
  rw [found]
  exact fun none => FileName.stem_ne_nil nonempty (String.ofList_eq_empty_iff.1 none)

end HackToolchain.Files

namespace HackToolchain.Project

open HackToolchain.Codegen HackToolchain.Files
open HackToolchain.Vm (Item SourceUnit isSymbol programItems)

/-- A source file compiles to one unit only. -/
theorem rightUnique_compiles (files : FileSystem) : Relator.RightUnique (Compiles files) := by
  rintro path ⟨unit, commands⟩ ⟨other, commands'⟩ ⟨name, text, read, accepted⟩
    ⟨name', text', read', accepted'⟩
  cases read.symm.trans read'
  cases name.trans name'.symm
  cases accepted.symm.trans accepted'
  rfl

/-- The units of a run have names, which are the stems of its sources. -/
theorem unit_ne_empty {configuration : Configuration} {files changed : FileSystem} {input : Input}
    {units : List SourceUnit} (runs : Runs configuration files input units changed)
    {entry : Option String} :
    ∀ unit command, Item.command unit command ∈ programItems entry units → unit ≠ "" := by
  intro unit command member
  obtain ⟨sources, read, names⟩ := readUnits_of_compiles runs.compiles
  rcases mem_programItems_of_readUnits read member with
    ⟨_, -, same⟩ | ⟨source, listed, _, same, -⟩
  · cases same
  · cases same
    obtain ⟨path, inside, stem⟩ := List.mem_map.1 (names ▸ List.mem_map_of_mem listed)
    have ends := endsIn_of_finds (discover_eq_ok_iff.1 runs.finds) path inside
    rw [← stem]
    exact FilePath.stem_ne_empty (ends.lastName?_ne_none isExtension_source)

/--
A run that succeeds writes lines whose names are symbols exactly if the names
from outside that its items carry are symbols, and lines that are one line each
exactly if these names are.  In the first case the lines of the file are the
lines that were generated.
-/
theorem written_symbols_iff {configuration : Configuration} {files : FileSystem} {report : Report}
    (done : (run configuration files).result = .ok report) :
    ∃ input units, Runs configuration files input units (run configuration files).files ∧
      let items := programItems (configuration.entryFor input) units
      let lines := (blocks 0 items).flatMap (Block.lines configuration.annotate)
      ((∀ line ∈ lines, line.WellFormed) ↔
        ∀ item ∈ items, ∀ name ∈ item.carried?, isSymbol name.toList) ∧
      ((∀ line ∈ lines, '\n' ∉ line.text.toList) ↔
        ∀ item ∈ items, ∀ name ∈ item.carried?, '\n' ∉ name.toList) ∧
      ((∀ line ∈ lines, line.WellFormed) →
        Text.lines (programText configuration.annotate (configuration.entryFor input)
          units).toList = (lines.map fun line => line.text.toList) ++ [[]]) := by
  obtain ⟨input, units, runs, -⟩ := runs_of_run done
  obtain ⟨sources, read, -⟩ := readUnits_of_compiles runs.compiles
  have valid := @valid_of_mem_programItems (configuration.entryFor input) _ _ read
  have formed := wellFormed_iff valid configuration.annotate (unit_ne_empty runs)
  have single := newline_notMem_iff valid configuration.annotate
  refine ⟨input, units, runs, formed, single, fun all => Asm.lines_render (single.2 ?_)⟩
  exact fun item member name carries =>
    (Vm.keepsLine_of_isSymbol (formed.1 all item member name carries)).1

/-- A source file whose stem is no symbol. -/
def spacedFiles : FileSystem :=
  ⟨.file "my file.vm" "push static 0".toUTF8 .empty, []⟩

def spacedConfiguration : Configuration :=
  ⟨⟨"my file.vm"⟩, none, false, "Sys.init", false⟩

def spacedUnit : SourceUnit :=
  ⟨"my file", [.push .statics 0]⟩

/-- The run succeeds, and it writes a load of `my file.static.0`. -/
theorem written_symbols_iff_spaced :
    ∃ report input units, (run spacedConfiguration spacedFiles).result = .ok report ∧
      Runs spacedConfiguration spacedFiles input units (run spacedConfiguration spacedFiles).files ∧
      ∃ line ∈ (blocks 0 (programItems (spacedConfiguration.entryFor input) units)).flatMap
        (Block.lines false), ¬ line.WellFormed := by
  have resolved : spacedFiles.resolve ⟨"my file.vm"⟩ = .ok ["my file.vm"] := by decide +kernel
  have found : discover spacedFiles ⟨"my file.vm"⟩ = .ok (.file ⟨"my file.vm"⟩) := by
    have named : FilePath.extension? ⟨"my file.vm"⟩ = some sourceExtension := by decide +kernel
    unfold discover FileSystem.get?
    simp only [resolved, named, if_true]
    rfl
  have compile : List.Forall₂ (Compiles spacedFiles) [⟨"my file.vm"⟩] [spacedUnit] := by
    refine .cons ⟨by decide +kernel, "push static 0", ?_, by decide +kernel⟩ .nil
    exact FileSystem.readText_of_resolve resolved rfl
  have output : spacedConfiguration.outputFor spacedFiles (.file ⟨"my file.vm"⟩) =
      ⟨"my file.asm"⟩ := by decide +kernel
  have place : spacedFiles.destination ⟨"my file.asm"⟩ = .ok ["my file.asm"] := by decide +kernel
  obtain ⟨report, done⟩ := @exists_run spacedConfiguration spacedFiles _ _ _
    ⟨found, compile, by rw [output, FileSystem.write, place]⟩
  obtain ⟨input, units, runs, formed, -⟩ := written_symbols_iff done
  refine ⟨report, input, units, done, runs, ?_⟩
  by_contra all
  push Not at all
  cases found.symm.trans runs.finds
  cases (rightUnique_compiles spacedFiles).forall₂ runs.compiles compile
  have symbol := formed.1 all _ List.mem_cons_self _ rfl
  exact absurd symbol (by decide)

end HackToolchain.Project
