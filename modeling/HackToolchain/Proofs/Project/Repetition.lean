import HackToolchain.Proofs.Project.Atomicity
import HackToolchain.Proofs.Project.Discovery

/-!
# Runs repeated

A default output ends in another extension than sources do.  So it is never
found as a source, and never lies where a source lies.  A run that has written
its default output therefore finds the same sources again, reads the same texts
from them, and writes what is already there.
-/

namespace HackToolchain.Project

open HackToolchain.Files HackToolchain.Codegen
open HackToolchain.Files.FileSystem (Writable)
open HackToolchain.Files.FilePath (IsExtension EndsIn)

/-! ## Default outputs -/

theorem isExtension_output : IsExtension outputExtension :=
  ⟨by decide, by decide, by decide⟩

/-- No path ends in the extensions of sources and of outputs. -/
theorem not_endsIn_output {path : FilePath} (ends : path.EndsIn sourceExtension) :
    ¬path.EndsIn outputExtension := by
  intro ends'
  exact absurd (ends.unique ends' isExtension_source isExtension_output) (by decide)

/-- A default output ends in the extension of outputs, or has no name and cannot be written. -/
theorem endsIn_defaultOutput (files : FileSystem) (input : Input) :
    (defaultOutput files input).EndsIn outputExtension ∨
      FilePath.lastName? (defaultOutput files input).text.toList = none := by
  cases input with
  | file path => exact FilePath.endsIn_withExtension path outputExtension
  | directory path sources =>
      refine .inl (FilePath.endsIn_join path ?_)
      rw [String.toList_append, String.toList_append, List.append_assoc]
      exact List.suffix_append _ _

section outputs

variable {files later : FileSystem} {source : FilePath} {input : Input} {parent : Route}
  {last : String}

theorem ne_defaultOutput (ends : source.EndsIn sourceExtension) :
    source ≠ defaultOutput files input := by
  rintro rfl
  rcases endsIn_defaultOutput files input with output | unnamed
  · exact not_endsIn_output ends output
  · exact ends.lastName?_ne_none isExtension_source unnamed

theorem suffix_of_writable (writable : Writable files (defaultOutput files input) parent last) :
    '.' :: outputExtension.toList <:+ last.toList := by
  rcases endsIn_defaultOutput files input with output | unnamed
  · exact writable.suffix_last output isExtension_output
  · cases writable.lastName?_eq.symm.trans unnamed

/-- A source never lies where a default output is written. -/
theorem resolve_ne_of_writable (writable : Writable files (defaultOutput files input) parent last)
    (ends : source.EndsIn sourceExtension) : later.resolve source ≠ .ok (parent ++ [last]) := by
  intro resolved
  obtain ⟨above, name, split, suffix⟩ :=
    FileSystem.exists_concat_of_resolve ends isExtension_source resolved
  obtain ⟨-, same⟩ := List.append_inj' split rfl
  cases same
  exact @not_endsIn_output ⟨last⟩ suffix (suffix_of_writable writable)

theorem not_isSourceName_of_writable
    (writable : Writable files (defaultOutput files input) parent last) :
    isSourceName last = false := by
  rw [← Bool.not_eq_true]
  intro named
  exact @not_endsIn_output ⟨last⟩ (suffix_of_isSourceName named) (suffix_of_writable writable)

end outputs

/-! ## Compiling the same texts -/

section compiling

variable {files changed : FileSystem} {sources : List FilePath}

theorem compileFiles_congr {emitter : Emitter}
    (same : ∀ path ∈ sources, changed.readText path = files.readText path) :
    compileFiles changed sources emitter = compileFiles files sources emitter := by
  induction sources generalizing emitter with
  | nil => rfl
  | cons path rest ih =>
      obtain ⟨own, others⟩ := List.forall_mem_cons.1 same
      have first : compileFile changed path emitter = compileFile files path emitter := by
        rw [compileFile, compileFile, own]
      rw [compileFiles, compileFiles, first]
      dsimp only
      rw [ih others]

/-- A compilation depends on the texts of its sources only. -/
theorem compile_congr (same : ∀ path ∈ sources, changed.readText path = files.readText path)
    (entry : Option String) (annotate : Bool) (sink : Sink) :
    compile changed sources entry annotate sink = compile files sources entry annotate sink := by
  unfold compile
  simp only [compileFiles_congr same]

end compiling

/-! ## The second run -/

section running

variable {configuration : Configuration} {files changed : FileSystem} {input : Input}
  {compiled : Compiled} {parent : Route} {last : String}

theorem defaultOutput_of_finds (grows : FileSystem.Grows files.root changed.root)
    (same : changed.workingDirectory = files.workingDirectory) {path : FilePath}
    (finds : Finds files path input) : defaultOutput changed input = defaultOutput files input := by
  cases finds with
  | file => rfl
  | directory resolved =>
      rw [defaultOutput, defaultOutput, directoryOutput, directoryOutput,
        FileSystem.resolvedName?_of_grows grows same resolved]

/-- A text is still read after a file was written that it does not come from. -/
theorem readText_of_writable {output source : FilePath} {text : String}
    (writable : Writable files output parent last) (content : ByteArray)
    (read : files.readText source = .ok text)
    (apart : files.resolve source ≠ .ok (parent ++ [last])) :
    (files.withFile (parent ++ [last]) content).readText source = .ok text := by
  obtain ⟨route, old, resolved, found, valid⟩ := FileSystem.readText_eq_ok_iff.1 read
  refine FileSystem.readText_eq_ok_iff.2 ⟨route, old, ?_, ?_, valid⟩
  · exact FileSystem.resolve_of_grows (writable.grows content) rfl resolved
  · rw [writable.kind?_put, if_neg]
    · exact found
    · rintro rfl
      exact apart resolved

/-- A run into its default output is repeated by any run after it. -/
theorem run_of_default (chosen : configuration.output = none)
    (completes : Completes configuration files input compiled changed) :
    run configuration changed = run configuration files := by
  obtain ⟨finds, compiles, writes⟩ := completes
  have default (files : FileSystem) :
      configuration.outputFor files input = defaultOutput files input := by
    rw [Configuration.outputFor, chosen, Option.getD_none]
  have found := discover_eq_ok_iff.1 finds
  have repeats := FileSystem.write_again writes
  obtain ⟨parent, last, writable, rfl⟩ := FileSystem.exists_of_write writes
  rw [default] at writable
  obtain ⟨units, each, -⟩ := bytes_compile compiles
  have same : ∀ source ∈ input.sources,
      (files.withFile (parent ++ [last]) compiled.bytes).readText source =
        files.readText source := by
    intro source member
    obtain ⟨text, read, -⟩ := exists_units_iff.1 ⟨units, each⟩ source member
    rw [read]
    exact readText_of_writable writable _ read
      (resolve_ne_of_writable writable (endsIn_of_finds found source member))
  have finds' := discover_eq_ok_iff.2
    (finds_of_writable writable (not_isSourceName_of_writable writable) compiled.bytes found)
  have output := defaultOutput_of_finds (writable.grows compiled.bytes) rfl found
  rw [run_of_completes ⟨finds', ?_, ?_⟩, run_of_completes ⟨finds, compiles, writes⟩, default,
    default, output, compile_congr same]
  · rw [compile_congr same]
    exact compiles
  · rw [default, output, ← default]
    exact repeats

end running

/--
A run without a chosen output leaves the files so that the same run yields the
same again.  Whatever its input, the default output is no source of it, nor is
it found as one later, under that path or under any other that leads there.
-/
theorem run_repeats (configuration : Configuration) (files : FileSystem) :
    (configuration.output = none → ∀ report, (run configuration files).result = .ok report →
      run configuration (run configuration files).files = run configuration files) ∧
    ∀ path input, discover files path = .ok input →
      ∀ later other found, discover later other = .ok found → ∀ source ∈ found.sources,
        source ≠ defaultOutput files input ∧
        ∀ route, files.destination (defaultOutput files input) = .ok route →
          later.resolve source ≠ .ok route := by
  constructor
  · intro chosen report done
    obtain ⟨input, compiled, completes, -⟩ := completes_of_run done
    exact run_of_default chosen completes
  · intro path input _ later other found discovered source member
    have ends := endsIn_of_finds (discover_eq_ok_iff.1 discovered) source member
    refine ⟨ne_defaultOutput ends, ?_⟩
    intro route placed
    obtain ⟨parent, last, writable, rfl⟩ := FileSystem.exists_writable placed
    exact resolve_ne_of_writable writable ends

/-- A directory that is named like a source and holds one. -/
def nestedFiles : FileSystem :=
  ⟨.directory "X.vm" (.file "Main.vm" "push constant 1".toUTF8 .empty) .empty, []⟩

def nestedConfiguration : Configuration :=
  ⟨⟨"X.vm/."⟩, none, false, "Sys.init", false⟩

theorem discover_nested : discover nestedFiles ⟨"X.vm/."⟩ =
    .ok (.directory ⟨"X.vm/."⟩ [⟨"X.vm/./Main.vm"⟩]) := by
  have resolved : nestedFiles.resolve ⟨"X.vm/."⟩ = .ok ["X.vm"] := by decide +kernel
  have listed : sourceRoutes ⟨"X.vm/."⟩ (.file "Main.vm" "push constant 1".toUTF8 .empty) =
      [["Main.vm"]] := by decide +kernel
  have routes : sortRoutes (sourceRoutes ⟨"X.vm/."⟩
      (.file "Main.vm" "push constant 1".toUTF8 .empty)) = [["Main.vm"]] := by
    rw [listed]
    exact List.mergeSort_singleton _
  have found := Finds.directory resolved rfl (routes ▸ List.cons_ne_nil _ _)
  rw [routes] at found
  exact discover_eq_ok_iff.2 found

theorem run_repeats_nested :
    let outcome := run nestedConfiguration nestedFiles
    (∃ report, outcome.result = .ok report ∧ report.output = ⟨"X.vm/./X.vm.asm"⟩) ∧
    run nestedConfiguration outcome.files = outcome ∧
    nestedFiles.destination ⟨"X.vm/./X.vm.asm"⟩ = .ok ["X.vm", "X.vm.asm"] ∧
    (⟨"X.vm/./Main.vm"⟩ : FilePath) ≠ ⟨"X.vm/./X.vm.asm"⟩ ∧
    nestedFiles.resolve ⟨"X.vm/./Main.vm"⟩ ≠ .ok ["X.vm", "X.vm.asm"] := by
  have output : defaultOutput nestedFiles (.directory ⟨"X.vm/."⟩ [⟨"X.vm/./Main.vm"⟩]) =
      ⟨"X.vm/./X.vm.asm"⟩ := by decide +kernel
  have place : nestedFiles.destination ⟨"X.vm/./X.vm.asm"⟩ = .ok ["X.vm", "X.vm.asm"] := by
    decide +kernel
  have resolved : nestedFiles.resolve ⟨"X.vm/./Main.vm"⟩ = .ok ["X.vm", "Main.vm"] := by
    decide +kernel
  have compiles : Compiles nestedFiles ⟨"X.vm/./Main.vm"⟩ ⟨"Main", [.push .constant 1]⟩ :=
    ⟨by decide +kernel, "push constant 1", FileSystem.readText_of_resolve resolved rfl,
      by decide +kernel⟩
  have completes : Completes nestedConfiguration nestedFiles
      (.directory ⟨"X.vm/."⟩ [⟨"X.vm/./Main.vm"⟩]) _ _ :=
    ⟨discover_nested, (compile_of_compiles (.cons compiles .nil) rfl rfl).1, by
      rw [nestedConfiguration, Configuration.outputFor, Option.getD_none, output, FileSystem.write,
        place]⟩
  intro outcome
  have done : outcome.result = _ := congrArg Outcome.result (run_of_completes completes)
  obtain ⟨apart, elsewhere⟩ := (run_repeats nestedConfiguration nestedFiles).2 _ _ discover_nested
    nestedFiles _ _ discover_nested ⟨"X.vm/./Main.vm"⟩ List.mem_cons_self
  rw [output] at apart elsewhere
  exact ⟨⟨_, done, output⟩, (run_repeats nestedConfiguration nestedFiles).1 rfl _ done, place, apart,
    elsewhere _ place⟩

end HackToolchain.Project
