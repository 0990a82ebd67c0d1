import HackToolchain.Files.FileSystem
import HackToolchain.Codegen.Sink
import HackToolchain.Vm.Fault

/-!
# Failures of a run

A run fails on an input that is no program, on a line that is wrong, or on a
file that cannot be read or written.  The report names the path.
-/

namespace HackToolchain.Project

open HackToolchain.Files

/-- Why a run fails. -/
inductive Failure where
  | fault (path : FilePath) (located : Vm.LocatedFault)
  | invalidInput (path : FilePath)
  | noSources (path : FilePath)
  | access (path : FilePath) (cause : AccessFailure)
  | sink (cause : Codegen.SinkFailure)
  deriving DecidableEq, Repr

def Failure.message : Failure → String
  | fault path located => path.text ++ ": " ++ located.message
  | invalidInput path => path.text ++ ": not a .vm file or a directory"
  | noSources path => path.text ++ ": no .vm files found"
  | access path cause => path.text ++ ": " ++ cause.message
  | sink cause => "<output>: " ++ cause.message

end HackToolchain.Project
