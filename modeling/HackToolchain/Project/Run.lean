import HackToolchain.Project.Sources
import HackToolchain.Project.Compilation

/-!
# Runs

A run finds the sources of its input, compiles them into one text, and writes
the text only when every source has been compiled.
-/

namespace HackToolchain.Project

open HackToolchain.Files HackToolchain.Codegen

/-- What a run is asked to do. -/
structure Configuration where
  input : FilePath
  /-- The file to write, unless the default is wanted. -/
  output : Option FilePath
  /-- Whether a single file is bootstrapped; directories always are. -/
  bootstrap : Bool
  entry : String
  /-- Whether every command is shown before its code. -/
  annotate : Bool
  deriving DecidableEq, Repr

/-- What a run yields. -/
structure Report where
  output : FilePath
  summaries : List Summary
  deriving DecidableEq, Repr

/-- The result of a run, its log, and the files after it. -/
structure Outcome where
  result : Except Failure Report
  log : List Log.Record
  files : FileSystem

/-- The file a run writes. -/
def Configuration.outputFor (configuration : Configuration) (files : FileSystem)
    (input : Input) : FilePath :=
  configuration.output.getD (defaultOutput files input)

/-- The entry function of a run; a single file may do without. -/
def Configuration.entryFor (configuration : Configuration) : Input → Option String
  | .file _ => if configuration.bootstrap then some configuration.entry else none
  | .directory _ _ => some configuration.entry

/-- The note that an option has no effect on directories. -/
def ignoredNotes (configuration : Configuration) : Input → List Log.Record
  | .file _ => []
  | .directory path _ =>
      if configuration.bootstrap then []
      else [⟨.warn, .driver, path.text ++ ": directories are always bootstrapped"⟩]

def sourceNote (path : FilePath) : Log.Record :=
  ⟨.info, .driver, "translating " ++ path.text⟩

def writtenNote (path : FilePath) : Log.Record :=
  ⟨.info, .driver, "wrote " ++ path.text⟩

/-- Run a configuration on a file system. -/
def run (configuration : Configuration) (files : FileSystem) : Outcome :=
  match discover files configuration.input with
  | .error failure => ⟨.error failure, [], files⟩
  | .ok input =>
      let notes := ignoredNotes configuration input ++ input.sources.map sourceNote
      let output := configuration.outputFor files input
      let compilation :=
        compile files input.sources (configuration.entryFor input) configuration.annotate
          Sink.unbounded
      match compilation.result with
      | .error failure => ⟨.error failure, notes ++ compilation.log, files⟩
      | .ok compiled =>
          match files.write output compiled.bytes with
          | .error cause => ⟨.error (.access output cause), notes ++ compilation.log, files⟩
          | .ok changed =>
              ⟨.ok ⟨output, compiled.summaries⟩,
                notes ++ compilation.log ++ [writtenNote output], changed⟩

end HackToolchain.Project
