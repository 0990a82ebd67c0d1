import HackToolchain.Cpu.SourceRun
import HackToolchain.Main
import HackToolchain.Proofs.Codegen.Generated
import HackToolchain.Proofs.Cpu.CallReturn
import HackToolchain.Proofs.Cpu.Refinement
import HackToolchain.Proofs.Asm.Acceptance
import HackToolchain.Proofs.Vm.Shortening
import HackToolchain.Proofs.Codegen.Acceptance
import HackToolchain.Proofs.Codegen.Targets
import HackToolchain.Proofs.Codegen.Emission
import HackToolchain.Proofs.Project.Compilation
import HackToolchain.Proofs.Codegen.Statics
import HackToolchain.Proofs.Project.Isolation
import HackToolchain.Proofs.Codegen.FullSinks
import HackToolchain.Proofs.Project.FirstFailure
import HackToolchain.Proofs.Files.Contents
import HackToolchain.Proofs.Files.Writing
import HackToolchain.Proofs.Project.Atomicity
import HackToolchain.Proofs.Files.Extensions
import HackToolchain.Proofs.Project.AllSources
import HackToolchain.Proofs.Project.Repetition
import HackToolchain.Proofs.Cpu.StaticCells
import HackToolchain.Proofs.Cpu.TruthValues
import HackToolchain.Proofs.Codegen.Remarks
import HackToolchain.Proofs.Codegen.Relocation
import HackToolchain.Proofs.Project.SymbolNames
import HackToolchain.Proofs.Asm.Passes
