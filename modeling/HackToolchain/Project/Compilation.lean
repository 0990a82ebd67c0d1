import HackToolchain.Log.Record
import HackToolchain.Project.Failure
import HackToolchain.Codegen.Emitter

/-!
# Compilation of source files

Source files are compiled one after the other by one emitter, each as a
unit named after the stem of its path.  The first failure ends the compilation.
-/

namespace HackToolchain.Project

open HackToolchain.Files HackToolchain.Codegen

/-- What is reported of a compiled unit. -/
structure Summary where
  name : String
  commands : Nat
  statics : Nat
  deriving DecidableEq, Repr

def Summary.note (summary : Summary) : String :=
  summary.name ++ ": " ++ toString summary.commands ++ " commands, " ++
    toString summary.statics ++ " statics"

/-- The result of a stage of the compilation, its log, and the emitter after it. -/
structure Stage (Value : Type) where
  result : Except Failure Value
  log : List Log.Record
  emitter : Emitter

/-- The log record of a line that was passed over. -/
def skipRecord (reading : Vm.Reading) : Log.Record :=
  ⟨.debug, .reader, reading.skipNote⟩

/-- A failure of the emitter while it works on a file. -/
def failureIn (path : FilePath) : Codegen.Failure → Failure
  | .fault located => .fault path located
  | .sink cause => .sink cause

/-- Compile one source file. -/
def compileFile (files : FileSystem) (path : FilePath) (emitter : Emitter) : Stage Summary :=
  match files.readText path with
  | .error cause => ⟨.error (.access path cause), [], emitter⟩
  | .ok text =>
      let begun := Progress.start (emitter.beginUnit path.stem)
      let (result, progress) := begun.advanceAll (Vm.readings text)
      let skips := progress.skipped.reverse.map skipRecord
      match result with
      | .error failure => ⟨.error (failureIn path failure), skips, progress.emitter⟩
      | .ok () =>
          let summary : Summary :=
            ⟨path.stem, progress.commands, progress.emitter.generator.statics.length⟩
          ⟨.ok summary, skips ++ [⟨.debug, .driver, summary.note⟩], progress.emitter⟩

def compileFiles (files : FileSystem) : List FilePath → Emitter → Stage (List Summary)
  | [], emitter => ⟨.ok [], [], emitter⟩
  | path :: rest, emitter =>
      let first := compileFile files path emitter
      match first.result with
      | .error failure => ⟨.error failure, first.log, first.emitter⟩
      | .ok summary =>
          let others := compileFiles files rest first.emitter
          ⟨others.result.map (summary :: ·), first.log ++ others.log, others.emitter⟩

/-- Write the bootstrap code of an entry function, if there is one. -/
def compileEntry (entry : Option String) (emitter : Emitter) : Stage Unit :=
  match entry with
  | none => ⟨.ok (), [], emitter⟩
  | some entry =>
      let (result, emitter) := emitter.bootstrap entry
      ⟨result.mapError .sink, [], emitter⟩

/-- What was written and what is reported of it. -/
structure Compiled where
  bytes : ByteArray
  /-- One summary for each source file, in order. -/
  summaries : List Summary

/-- Compile source files into a sink, after the bootstrap code if there is an entry function. -/
def compile (files : FileSystem) (sources : List FilePath) (entry : Option String)
    (annotate : Bool) (sink : Sink) : Stage Compiled :=
  let entered := compileEntry entry (Emitter.start annotate sink)
  match entered.result with
  | .error failure => ⟨.error failure, entered.log, entered.emitter⟩
  | .ok () =>
      let units := compileFiles files sources entered.emitter
      match units.result with
      | .error failure => ⟨.error failure, units.log, units.emitter⟩
      | .ok summaries =>
          match units.emitter.sink.flush with
          | .error cause => ⟨.error (.sink cause), units.log, units.emitter⟩
          | .ok bytes => ⟨.ok ⟨bytes, summaries⟩, units.log, units.emitter⟩

end HackToolchain.Project
