import HackToolchain.Proofs.Project.Compilation

/-!
# What a run does

A run fails before it changes a file, or it has found its sources, compiled
them, and written the text of the program made from them, with one unit for
each source.
-/

namespace HackToolchain.Project

open HackToolchain.Codegen HackToolchain.Files
open HackToolchain.Vm (SourceUnit)

/-- A run that finds its sources, compiles them, and writes what they are compiled to. -/
structure Completes (configuration : Configuration) (files : FileSystem) (input : Input)
    (compiled : Compiled) (changed : FileSystem) : Prop where
  finds : discover files configuration.input = .ok input
  compiles : (compile files input.sources (configuration.entryFor input) configuration.annotate
    .unbounded).result = .ok compiled
  writes : files.write (configuration.outputFor files input) compiled.bytes = .ok changed

section running

variable {configuration : Configuration} {files changed : FileSystem} {input : Input}
  {compiled : Compiled}

theorem run_of_completes (completes : Completes configuration files input compiled changed) :
    run configuration files =
      ⟨.ok ⟨configuration.outputFor files input, compiled.summaries⟩,
        ignoredNotes configuration input ++ input.sources.map sourceNote ++
          (compile files input.sources (configuration.entryFor input) configuration.annotate
            .unbounded).log ++ [writtenNote (configuration.outputFor files input)],
        changed⟩ := by
  unfold run
  simp only [completes.finds, completes.compiles, completes.writes]

/-- A run fails before it changes a file, or completes. -/
theorem fails_or_completes (configuration : Configuration) (files : FileSystem) :
    (∃ failure, (run configuration files).result = .error failure ∧
      (run configuration files).files = files) ∨
      ∃ input compiled changed, Completes configuration files input compiled changed := by
  cases finds : discover files configuration.input with
  | error failure =>
      refine .inl ⟨failure, ?_⟩
      simp only [run, finds, and_self]
  | ok input =>
      cases compiles : (compile files input.sources (configuration.entryFor input)
          configuration.annotate .unbounded).result with
      | error failure =>
          refine .inl ⟨failure, ?_⟩
          simp only [run, finds, compiles, and_self]
      | ok compiled =>
          cases writes : files.write (configuration.outputFor files input) compiled.bytes with
          | error cause =>
              refine .inl ⟨.access (configuration.outputFor files input) cause, ?_⟩
              simp only [run, finds, compiles, writes, and_self]
          | ok changed => exact .inr ⟨input, compiled, changed, finds, compiles, writes⟩

/-- A run that reports success has completed, and its report and its files say so. -/
theorem completes_of_run {report : Report} (done : (run configuration files).result = .ok report) :
    ∃ input compiled,
      Completes configuration files input compiled (run configuration files).files ∧
      report = ⟨configuration.outputFor files input, compiled.summaries⟩ := by
  rcases fails_or_completes configuration files with
    ⟨failure, failed, -⟩ | ⟨input, compiled, changed, completes⟩
  · cases failed.symm.trans done
  · rw [run_of_completes completes] at done ⊢
    exact ⟨input, compiled, completes, (Except.ok.inj done).symm⟩

/-- A run that finds its sources, compiles them and writes the text of their program. -/
structure Runs (configuration : Configuration) (files : FileSystem) (input : Input)
    (units : List SourceUnit) (changed : FileSystem) : Prop where
  finds : discover files configuration.input = .ok input
  compiles : List.Forall₂ (Compiles files) input.sources units
  writes : files.write (configuration.outputFor files input)
    (programText configuration.annotate (configuration.entryFor input) units).toUTF8 = .ok changed

/-- A run that reports success has found, compiled and written what it should. -/
theorem runs_of_run {report : Report} (done : (run configuration files).result = .ok report) :
    ∃ input units, Runs configuration files input units (run configuration files).files ∧
      report.output = configuration.outputFor files input := by
  obtain ⟨input, compiled, completes, rfl⟩ := completes_of_run done
  obtain ⟨units, each, bytes⟩ := bytes_compile completes.compiles
  exact ⟨input, units, ⟨completes.finds, each, bytes ▸ completes.writes⟩, rfl⟩

/-- What can be found, compiled and written is reported as a success. -/
theorem exists_run {units : List SourceUnit} (runs : Runs configuration files input units changed) :
    ∃ report, (run configuration files).result = .ok report := by
  have compiles := (@compile_of_compiles _ _ (configuration.entryFor input) configuration.annotate
    .unbounded _ runs.compiles rfl rfl).1
  have bytes := (@written_programOperations (configuration.entryFor input) units
    configuration.annotate .unbounded rfl).trans ByteArray.empty_append
  exact ⟨_, congrArg Outcome.result (run_of_completes
    ⟨runs.finds, compiles, (congrArg (files.write _) bytes).trans runs.writes⟩)⟩

end running

end HackToolchain.Project
