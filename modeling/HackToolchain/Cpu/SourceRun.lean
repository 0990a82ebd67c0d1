import HackToolchain.Codegen.Program
import HackToolchain.Cpu.Machine

/-!
# Running sources

A source can be run on its own: its program is compiled without a bootstrap,
assembled, and run on a cleared machine whose bases are set.
-/

namespace HackToolchain.Cpu

/-- Why a source does not run to its end. -/
inductive RunFailure where
  | source (located : Vm.LocatedFault)
  | assembly (fault : Asm.Fault)
  | stuck (cause : Machine.Stuck)
  deriving DecidableEq, Repr

/-- The machine after a source has run as a unit of the given name. -/
def runSource (unit source : String) : Except RunFailure Machine :=
  match Codegen.sourceText true none [(unit, source)] with
  | .error located => .error (.source located)
  | .ok text =>
      match Asm.Program.assemble text with
      | .error fault => .error (.assembly fault)
      | .ok program =>
          match Machine.initial.setBases.run program with
          | (.error cause, _) => .error (.stuck cause)
          | (.ok (), machine) => .ok machine

end HackToolchain.Cpu
