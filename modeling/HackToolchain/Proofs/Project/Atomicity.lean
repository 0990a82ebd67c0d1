import HackToolchain.Proofs.Project.FirstFailure
import HackToolchain.Proofs.Project.Running

/-!
# Runs write everything or nothing

The output is the last thing a run touches.  So a run that fails leaves the
files as they were, and a run that succeeds replaces its output and leaves
every other file as it was, be the output one of its own sources or not.
-/

namespace HackToolchain.Project

open HackToolchain.Files HackToolchain.Codegen

def Input.isDirectory : Input → Bool
  | file _ => false
  | directory _ _ => true

theorem entryFor_eq (configuration : Configuration) (input : Input) :
    configuration.entryFor input =
      if input.isDirectory || configuration.bootstrap then some configuration.entry else none := by
  cases input with
  | file path => simp [Configuration.entryFor, Input.isDirectory]
  | directory path sources => rfl

/-- What a run that succeeded has written, from what input. -/
structure Delivers (configuration : Configuration) (files : FileSystem) (input : Input)
    (report : Report) (compiled : Compiled) (changed : FileSystem) : Prop where
  finds : discover files configuration.input = .ok input
  /-- The sources are compiled as they were before the run. -/
  compiles : (compile files input.sources
    (if input.isDirectory || configuration.bootstrap then some configuration.entry else none)
    configuration.annotate .unbounded).result = .ok compiled
  output : report.output = configuration.output.getD (defaultOutput files input)
  summaries : report.summaries = compiled.summaries
  /-- The output has the compiled bytes, and nothing else has changed. -/
  replaces : files.Replaces changed report.output compiled.bytes

/--
A run that fails leaves the files as they were.  A run that succeeds has written
one file, its output, which holds what the sources were compiled to.
-/
theorem run_writes_output_or_nothing (configuration : Configuration) (files : FileSystem) :
    (∀ failure, (run configuration files).result = .error failure →
      (run configuration files).files = files) ∧
    ∀ report, (run configuration files).result = .ok report →
      ∃ input compiled,
        Delivers configuration files input report compiled (run configuration files).files := by
  constructor
  · intro failure failed
    rcases fails_or_completes configuration files with
      ⟨-, -, same⟩ | ⟨input, compiled, changed, completes⟩
    · exact same
    · rw [run_of_completes completes] at failed
      cases failed
  · intro report done
    obtain ⟨input, compiled, completes, rfl⟩ := completes_of_run done
    exact ⟨input, compiled, completes.finds, entryFor_eq configuration input ▸ completes.compiles,
      rfl, rfl, FileSystem.replaces_of_write completes.writes⟩

/-- A run on one file of the spoiled ones whose output is another of them. -/
def intoSource (input output : FilePath) : Configuration :=
  ⟨input, some output, false, "Sys.init", false⟩

theorem discover_spoiled {path : FilePath} {route : Route} {content : ByteArray}
    (resolved : spoiledFiles.resolve path = .ok route)
    (found : spoiledFiles.root.find? route = some (.file content))
    (named : path.extension? = some sourceExtension) : discover spoiledFiles path = .ok (.file path) := by
  unfold discover FileSystem.get?
  simp only [resolved, found, named, if_true]

theorem run_writes_output_or_nothing_spoiled :
    let failing := run (intoSource ⟨"Bad.vm"⟩ ⟨"Good.vm"⟩) spoiledFiles
    let succeeding := run (intoSource ⟨"Good.vm"⟩ ⟨"Bad.vm"⟩) spoiledFiles
    (failing.result = .error (.fault ⟨"Bad.vm"⟩ ⟨2, "add 1", .extraOperands ["1"]⟩) ∧
      failing.files = spoiledFiles) ∧
    ∃ report, succeeding.result = .ok report ∧ report.output = ⟨"Bad.vm"⟩ ∧
      ∃ compiled, Delivers (intoSource ⟨"Good.vm"⟩ ⟨"Bad.vm"⟩) spoiledFiles (.file ⟨"Good.vm"⟩)
        report compiled succeeding.files := by
  have bad := @discover_spoiled ⟨"Bad.vm"⟩ ["Bad.vm"] _ (by decide +kernel) rfl (by decide +kernel)
  have good := @discover_spoiled ⟨"Good.vm"⟩ ["Good.vm"] _ (by decide +kernel) rfl
    (by decide +kernel)
  intro failing succeeding
  constructor
  · have failed : failing.result =
        .error (.fault ⟨"Bad.vm"⟩ ⟨2, "add 1", .extraOperands ["1"]⟩) := by
      have stopped := (@compile_of_flawed spoiledFiles none false .unbounded [] [] _ _ _ _ .nil
        flawed_bad rfl).1
      rw [List.nil_append] at stopped
      simp only [failing, run, intoSource, bad, Input.sources, Configuration.entryFor, stopped,
        Bool.false_eq_true, if_false]
    exact ⟨failed, (run_writes_output_or_nothing _ _).1 _ failed⟩
  · have place : spoiledFiles.destination ⟨"Bad.vm"⟩ = .ok ["Bad.vm"] := by decide +kernel
    have completes : Completes (intoSource ⟨"Good.vm"⟩ ⟨"Bad.vm"⟩) spoiledFiles (.file ⟨"Good.vm"⟩)
        _ _ :=
      ⟨good, (compile_of_compiles (.cons compiles_good .nil) rfl rfl).1, by
        rw [intoSource, Configuration.outputFor, Option.getD_some, FileSystem.write, place]⟩
    have done : succeeding.result = _ := congrArg Outcome.result (run_of_completes completes)
    obtain ⟨input, compiled, delivers⟩ := (run_writes_output_or_nothing _ _).2 _ done
    cases good.symm.trans delivers.finds
    exact ⟨_, done, rfl, compiled, delivers⟩

end HackToolchain.Project
