import HackToolchain.Proofs.Codegen.Statics
import HackToolchain.Proofs.Files.Writing
import HackToolchain.Proofs.Project.Running

/-!
# Statics of different source files

The statics of a source file carry the stem of its path, whatever directory it
lies in.  So two source files of a run keep their statics apart exactly if
their stems differ.  If they do, their variables in the assembled program differ
as well, unless a label is written like one of them.
-/

namespace HackToolchain.Files

/-- What stands before the dot of a name is part of the name. -/
theorem FileName.stem_subset (name : List Char) : (FileName.ofName name).stem ⊆ name := by
  intro character member
  unfold FileName.ofName at member
  rw [List.span_eq_takeWhile_dropWhile] at member
  split at member
  next => exact member
  next => exact member
  next before cut =>
    have later : character ∈ name.reverse.dropWhile (· != '.') := by
      rw [(Prod.mk.inj cut).2]
      exact List.mem_cons_of_mem _ (List.mem_reverse.1 member)
    exact List.mem_reverse.1 ((List.dropWhile_sublist _).subset later)

/-- The name of a path is cut off at its slashes. -/
theorem FilePath.slash_notMem_stem (path : FilePath) : '/' ∉ path.stem.toList := by
  intro member
  unfold stem fileName? at member
  cases named : lastName? path.text.toList with
  | none =>
      rw [named] at member
      cases member
  | some name =>
      have written : '/' ∈ (FileName.ofName name).stem := by simpa [named] using member
      have last : (cutLast path.text.toList).2 = name := by
        unfold lastName? at named
        dsimp only at named
        split at named
        next => cases named
        next => exact Option.some.inj named
      have inside : '/' ∈ (cutLast path.text.toList).2 := last ▸ FileName.stem_subset name written
      have kept := List.mem_takeWhile_imp (List.mem_reverse.1 inside)
      exact absurd kept (by decide)

end HackToolchain.Files

namespace HackToolchain.Project

open HackToolchain.Codegen HackToolchain.Files
open HackToolchain.Asm (KeepsLine)
open HackToolchain.Vm (Item SourceUnit isSymbol programItems)

/-- The units of compiled sources are those that are read from their texts under their stems. -/
theorem readUnits_of_compiles {files : FileSystem} {paths : List FilePath} {units : List SourceUnit}
    (compile : List.Forall₂ (Compiles files) paths units) :
    ∃ sources, readUnits sources = .ok units ∧ sources.map Prod.fst = paths.map FilePath.stem := by
  obtain ⟨texts, read, made⟩ := exists_texts compile
  refine ⟨_, made, List.map_fst_zip ?_⟩
  rw [List.length_map]
  exact Nat.le_of_eq read.length_eq

/-- Items of compiled sources are sound if the entry is a symbol and the stems are of one line. -/
theorem sound_of_compiles {files : FileSystem} {paths : List FilePath} {units : List SourceUnit}
    (compile : List.Forall₂ (Compiles files) paths units) {entry : Option String}
    (starts : ∀ name ∈ entry, isSymbol name.toList)
    (unbroken : ∀ path ∈ paths, '\n' ∉ path.stem.toList) :
    ∀ item ∈ programItems entry units, item.Sound := by
  obtain ⟨sources, read, names⟩ := readUnits_of_compiles compile
  refine sound_of_mem_programItems read starts fun source member => ?_
  have listed : source.1 ∈ paths.map FilePath.stem := names ▸ List.mem_map_of_mem member
  obtain ⟨path, inside, same⟩ := List.mem_map.1 listed
  rw [← same]
  exact ⟨unbroken path inside, Text.commentFree_of_notMem path.slash_notMem_stem⟩

/-- How far the statics of the sources of a program are kept apart. -/
structure Isolates (sources : List FilePath) (entry : Option String) (annotate : Bool)
    (units : List SourceUnit) : Prop where
  /-- A command refers to the static of its own index, under the name of its unit. -/
  refers : ∀ unit ∈ units, ∀ command ∈ unit.commands, ∀ number name index,
    Symbol.static name index ∈ (Code.ofItem number (.command unit.name command)).loaded ↔
      name = unit.name ∧ Generator.staticIndex? command = some index
  /-- Two sources have no static in common exactly if their stems differ. -/
  apart : ∀ first ∈ sources, ∀ second ∈ sources,
    (∀ index another,
      (Symbol.static first.stem index).text ≠ (Symbol.static second.stem another).text) ↔
        first.stem ≠ second.stem
  /-- Statics of different units have different cells, unless they are written like labels. -/
  cells : (∀ name ∈ entry, isSymbol name.toList) → (∀ path ∈ sources, '\n' ∉ path.stem.toList) →
    ∀ program, Asm.Program.assemble (programText annotate entry units) = .ok program →
      16 + program.variableNames.length ≤ memorySize →
        ∀ first ∈ staticsOf (programItems entry units),
          ∀ second ∈ staticsOf (programItems entry units), first.1 ≠ second.1 →
          (Symbol.static first.1 first.2).text ∉ givenNames (programItems entry units) →
          (Symbol.static second.1 second.2).text ∉ givenNames (programItems entry units) →
            ∃ cell cell', HasCell (programItems entry units) program first cell ∧
              HasCell (programItems entry units) program second cell' ∧ cell ≠ cell'

/-- The static of an item is that of its command, under the name of its unit. -/
theorem static?_command (unit : String) (command : Vm.Command) :
    (Item.command unit command).static? =
      (Generator.staticIndex? command).map fun index => (unit, index) := by
  cases command with
  | push segment index => cases segment <;> rfl
  | pop segment index => cases segment <;> rfl
  | operate | label | goto | ifGoto | function | call | ret => rfl

theorem isolates_of_compiles {files : FileSystem} {paths : List FilePath} {units : List SourceUnit}
    (compile : List.Forall₂ (Compiles files) paths units) (entry : Option String)
    (annotate : Bool) : Isolates paths entry annotate units := by
  refine ⟨?_, ?_, ?_⟩
  · intro unit _ command _ number name index
    rw [Code.static_mem_loaded_iff, static?_command]
    cases Generator.staticIndex? command with
    | none => simp
    | some own => simp [eq_comm]
  · exact fun first _ second _ => Symbol.forall_static_text_ne_iff
  · intro starts unbroken program assembled few first mentioned second mentioned' differ free free'
    have sound := sound_of_compiles compile starts unbroken
    obtain ⟨cell, has⟩ := exists_hasCell sound assembled mentioned free
    obtain ⟨cell', has'⟩ := exists_hasCell sound assembled mentioned' free'
    refine ⟨cell, cell', has, has', ?_⟩
    rintro rfl
    exact differ (congrArg Prod.fst (has.inj (Nat.le_trans few (by decide)) has'))

/--
A run that succeeds writes the text of the units of its sources, each under the
stem of its path, and two of the sources share no static exactly if their stems
differ.
-/
theorem statics_isolated {configuration : Configuration} {files : FileSystem} {report : Report}
    (done : (run configuration files).result = .ok report) :
    ∃ input units, Runs configuration files input units (run configuration files).files ∧
      Isolates input.sources (configuration.entryFor input) configuration.annotate units := by
  obtain ⟨input, units, runs, -⟩ := runs_of_run done
  exact ⟨input, units, runs, isolates_of_compiles runs.compiles _ _⟩

/-- Two source files that use a static of the same index. -/
def pairedFiles : FileSystem :=
  ⟨.file "Bar.vm" "push static 0".toUTF8 (.file "Foo.vm" "pop static 0".toUTF8 .empty), []⟩

def pairedConfiguration : Configuration :=
  ⟨⟨"."⟩, none, true, "Sys.init", false⟩

def pairedUnits : List SourceUnit :=
  [⟨"Bar", [.push .statics 0]⟩, ⟨"Foo", [.pop .statics 0]⟩]

theorem discover_paired :
    discover pairedFiles ⟨"."⟩ = .ok (.directory ⟨"."⟩ [⟨"./Bar.vm"⟩, ⟨"./Foo.vm"⟩]) := by
  have followed : pairedFiles.resolve ⟨"."⟩ = .ok [] := by decide +kernel
  have found : pairedFiles.get? ⟨"."⟩ = some (.directory pairedFiles.root) := by
    rw [FileSystem.get?, followed]
    rfl
  have routes : sourceRoutes ⟨"."⟩ pairedFiles.root = [["Bar.vm"], ["Foo.vm"]] := by decide +kernel
  have sorted : sortRoutes [["Bar.vm"], ["Foo.vm"]] = [["Bar.vm"], ["Foo.vm"]] :=
    List.mergeSort_of_pairwise (by decide)
  unfold discover
  simp only [found, routes, sorted]
  rfl

theorem statics_isolated_paired :
    ∃ report input units, (run pairedConfiguration pairedFiles).result = .ok report ∧
      Runs pairedConfiguration pairedFiles input units (run pairedConfiguration pairedFiles).files ∧
      Isolates input.sources (pairedConfiguration.entryFor input) false units ∧
      ∃ first ∈ input.sources, ∃ second ∈ input.sources, first.stem ≠ second.stem := by
  have compile : List.Forall₂ (Compiles pairedFiles) [⟨"./Bar.vm"⟩, ⟨"./Foo.vm"⟩] pairedUnits := by
    refine .cons ⟨by decide +kernel, "push static 0", ?_, by decide +kernel⟩
      (.cons ⟨by decide +kernel, "pop static 0", ?_, by decide +kernel⟩ .nil)
    · exact @FileSystem.readText_of_resolve _ _ ["Bar.vm"] _ (by decide +kernel) rfl
    · exact @FileSystem.readText_of_resolve _ _ ["Foo.vm"] _ (by decide +kernel) rfl
  have output : pairedConfiguration.outputFor pairedFiles
      (.directory ⟨"."⟩ [⟨"./Bar.vm"⟩, ⟨"./Foo.vm"⟩]) = ⟨"./out.asm"⟩ := by decide +kernel
  have place : pairedFiles.destination ⟨"./out.asm"⟩ = .ok ["out.asm"] := by decide +kernel
  obtain ⟨report, done⟩ := @exists_run pairedConfiguration pairedFiles _ _ _
    ⟨discover_paired, compile, by rw [output, FileSystem.write, place]⟩
  obtain ⟨input, units, runs, isolates⟩ := statics_isolated done
  refine ⟨report, input, units, done, runs, isolates, ?_⟩
  cases discover_paired.symm.trans runs.finds
  exact ⟨⟨"./Bar.vm"⟩, List.mem_cons_self, ⟨"./Foo.vm"⟩, by decide, by decide +kernel⟩

end HackToolchain.Project
