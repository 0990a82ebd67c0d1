import HackToolchain.Project.Run
import HackToolchain.Proofs.Codegen.Operations
import Mathlib.Data.List.Forall2

/-!
# What compiling does

Over a sink without a limit, sources are compiled in order as long as they are
text without a fault.  The first one that is not ends the compilation, and then
the emitter has done what comes before: the units of the earlier sources, and
of the failing one the commands before its first fault.
-/

namespace HackToolchain.Project

open HackToolchain.Codegen HackToolchain.Files
open HackToolchain.Vm (Reading SourceUnit programItems)

/-- A source file compiled to a unit, which has its stem and the commands of its text. -/
structure Compiles (files : FileSystem) (path : FilePath) (unit : SourceUnit) : Prop where
  name : unit.name = path.stem
  read : ∃ text, files.readText path = .ok text ∧ Vm.commands text = .ok unit.commands

theorem commands_eq_ok_iff {source : String} {commands : List Vm.Command} :
    Vm.commands source = .ok commands ↔
      (Vm.readings source).findSome? Reading.fault? = none ∧
        (Vm.readings source).filterMap Reading.command? = commands := by
  unfold Vm.commands
  cases (Vm.readings source).findSome? Reading.fault? with
  | none => simp
  | some located => simp

/-- What is reported of a unit: its name, its commands, and its different statics. -/
def Summary.ofUnit (unit : SourceUnit) : Summary :=
  ⟨unit.name, unit.commands.length,
    (unit.commands.filterMap Generator.staticIndex?).toFinset.card⟩

/-- A source that cannot be compiled, the failure it ends with, and what is compiled of it. -/
inductive Flawed (files : FileSystem) (path : FilePath) : Failure → List SourceUnit → Prop where
  /-- It cannot be read, and nothing of it is compiled. -/
  | unreadable {cause : AccessFailure} (refused : files.readText path = .error cause) :
      Flawed files path (.access path cause) []
  /-- A line of it has a fault, and the commands before its first such line are compiled. -/
  | faulty {text : String} {before after : List Reading} {reading : Reading}
      {located : Vm.LocatedFault} (read : files.readText path = .ok text)
      (split : Vm.readings text = before ++ reading :: after)
      (correct : ∀ earlier ∈ before, earlier.fault? = none)
      (wrong : reading.fault? = some located) :
      Flawed files path (.fault path located) [⟨path.stem, before.filterMap Reading.command?⟩]

/-- The first source that has a flaw, its failure, and the units of all that comes before it. -/
def StopsAt (files : FileSystem) (sources : List FilePath) (failure : Failure)
    (reached : List SourceUnit) : Prop :=
  ∃ before path after units rest, sources = before ++ path :: after ∧
    List.Forall₂ (Compiles files) before units ∧ Flawed files path failure rest ∧
    reached = units ++ rest

section compiling

variable {files : FileSystem} {path : FilePath} {emitter : Emitter}

theorem compiles_iff {unit : SourceUnit} :
    Compiles files path unit ↔ unit.name = path.stem ∧
      ∃ text, files.readText path = .ok text ∧
        (∀ reading ∈ Vm.readings text, reading.fault? = none) ∧
        (Vm.readings text).filterMap Reading.command? = unit.commands := by
  constructor
  · rintro ⟨name, text, read, commands⟩
    obtain ⟨correct, same⟩ := commands_eq_ok_iff.1 commands
    exact ⟨name, text, read, List.findSome?_eq_none_iff.1 correct, same⟩
  · rintro ⟨name, text, read, correct, same⟩
    exact ⟨name, text, read, commands_eq_ok_iff.2 ⟨List.findSome?_eq_none_iff.2 correct, same⟩⟩

/-- A source is compiled to a unit or has a flaw. -/
theorem compiles_or_flawed (files : FileSystem) (path : FilePath) :
    (∃ unit, Compiles files path unit) ∨ ∃ failure reached, Flawed files path failure reached := by
  cases read : files.readText path with
  | error cause => exact .inr ⟨_, _, .unreadable read⟩
  | ok text =>
      cases first : (Vm.readings text).findSome? Reading.fault? with
      | none =>
          refine .inl ⟨⟨path.stem, (Vm.readings text).filterMap Reading.command?⟩, ?_⟩
          exact compiles_iff.2 ⟨rfl, text, read, List.findSome?_eq_none_iff.1 first, rfl⟩
      | some located =>
          obtain ⟨before, reading, after, split, wrong, correct⟩ :=
            List.findSome?_eq_some_iff.1 first
          exact .inr ⟨_, _, .faulty read split correct wrong⟩

theorem compileFile_of_compiles {unit : SourceUnit} (compiles : Compiles files path unit)
    (limitless : emitter.sink.room = none) :
    (compileFile files path emitter).result = .ok (Summary.ofUnit unit) ∧
      (compileFile files path emitter).emitter = emitter.performed (unitOperations unit) := by
  obtain ⟨name, text, read, correct, commands⟩ := compiles_iff.1 compiles
  obtain ⟨after, advanced, emitted, count⟩ :=
    @Progress.advanceAll_of_correct _ (.start (emitter.beginUnit path.stem)) limitless correct
  rw [commands] at emitted count
  have statics : after.emitter.generator.statics.length =
      (unit.commands.filterMap Generator.staticIndex?).toFinset.card := by
    rw [emitted, Emitter.generator_performed]
    exact Generator.length_statics path.stem unit.commands emitter.generator
  unfold compileFile
  simp only [read, advanced]
  constructor
  · rw [statics, count, Summary.ofUnit, name]
    exact congrArg (fun commands => Except.ok (Summary.mk _ commands _)) (Nat.zero_add _)
  · rw [emitted, unitOperations, name]
    rfl

theorem compileFile_of_flawed {failure : Failure} {reached : List SourceUnit}
    (flawed : Flawed files path failure reached) (limitless : emitter.sink.room = none) :
    (compileFile files path emitter).result = .error failure ∧
      (compileFile files path emitter).emitter =
        emitter.performed (reached.flatMap unitOperations) := by
  unfold compileFile
  cases flawed with
  | unreadable refused =>
      simp only [refused, true_and]
      rfl
  | @faulty text before after reading located read split correct wrong =>
      obtain ⟨between, advanced, emitted, -⟩ :=
        @Progress.advanceAll_of_correct before (.start (emitter.beginUnit path.stem)) limitless
          correct
      -- The reading after the correct ones stops the progress where it is.
      have stopped : (Progress.start (emitter.beginUnit path.stem)).advanceAll (Vm.readings text) =
          (.error (.fault located), between) := by
        rw [split, Progress.advanceAll_append, advanced]
        obtain ⟨line, said, outcome⟩ := reading
        cases outcome with
        | fault fault =>
            cases wrong
            rfl
        | command | skipped => cases wrong
      simp only [read, stopped, failureIn, true_and]
      rw [emitted, List.flatMap_singleton, unitOperations]
      rfl

theorem compileFiles_of_compiles {sources : List FilePath} {units : List SourceUnit}
    (compile : List.Forall₂ (Compiles files) sources units)
    (limitless : emitter.sink.room = none) :
    (compileFiles files sources emitter).result = .ok (units.map Summary.ofUnit) ∧
      (compileFiles files sources emitter).emitter =
        emitter.performed (units.flatMap unitOperations) := by
  induction compile generalizing emitter with
  | nil => exact ⟨rfl, rfl⟩
  | @cons path unit rest units compiles _ ih =>
      obtain ⟨own, moved⟩ := compileFile_of_compiles compiles limitless
      obtain ⟨later, last⟩ := @ih (emitter.performed (unitOperations unit))
        ((emitter.continues_performed _).room.trans limitless)
      unfold compileFiles
      simp only [own, moved, later, last]
      refine ⟨rfl, ?_⟩
      rw [List.flatMap_cons, Emitter.performed_append]

/-- After sources that are compiled, the first one with a flaw ends the compilation. -/
theorem compileFiles_of_flawed {before after : List FilePath} {units reached : List SourceUnit}
    {failure : Failure} (compile : List.Forall₂ (Compiles files) before units)
    (flawed : Flawed files path failure reached) (limitless : emitter.sink.room = none) :
    (compileFiles files (before ++ path :: after) emitter).result = .error failure ∧
      (compileFiles files (before ++ path :: after) emitter).emitter =
        emitter.performed ((units ++ reached).flatMap unitOperations) := by
  induction compile generalizing emitter with
  | nil =>
      obtain ⟨stopped, left⟩ := compileFile_of_flawed flawed limitless
      rw [List.nil_append]
      unfold compileFiles
      simp only [stopped, left, List.nil_append, and_self]
  | @cons first unit rest units compiles _ ih =>
      obtain ⟨own, moved⟩ := compileFile_of_compiles compiles limitless
      obtain ⟨later, last⟩ := @ih (emitter.performed (unitOperations unit))
        ((emitter.continues_performed _).room.trans limitless)
      rw [List.cons_append]
      unfold compileFiles
      simp only [own, moved, later, last]
      refine ⟨rfl, ?_⟩
      rw [List.cons_append, List.flatMap_cons, Emitter.performed_append]

/-- All sources are compiled, or one is the first that has a flaw. -/
theorem compile_or_stopsAt (files : FileSystem) (sources : List FilePath) :
    (∃ units, List.Forall₂ (Compiles files) sources units) ∨
      ∃ failure reached, StopsAt files sources failure reached := by
  induction sources with
  | nil => exact .inl ⟨[], .nil⟩
  | cons path rest ih =>
      rcases compiles_or_flawed files path with ⟨unit, compiles⟩ | ⟨failure, reached, flawed⟩
      · rcases ih with ⟨units, each⟩ | ⟨failure, reached, before, other, after, units, own, split,
          each, flawed, same⟩
        · exact .inl ⟨unit :: units, .cons compiles each⟩
        · exact .inr ⟨failure, unit :: reached, path :: before, other, after, unit :: units, own,
            congrArg (path :: ·) split, .cons compiles each, flawed, congrArg (unit :: ·) same⟩
      · exact .inr ⟨failure, reached, [], path, rest, [], reached, rfl, .nil, flawed, rfl⟩

/-- All sources are compiled exactly if every one of them is text without a fault. -/
theorem exists_units_iff {sources : List FilePath} :
    (∃ units, List.Forall₂ (Compiles files) sources units) ↔
      ∀ path ∈ sources, ∃ text, files.readText path = .ok text ∧
        ∀ reading ∈ Vm.readings text, reading.fault? = none := by
  induction sources with
  | nil => exact ⟨fun _ _ member => absurd member List.not_mem_nil, fun _ => ⟨[], .nil⟩⟩
  | cons path rest ih =>
      rw [List.forall_mem_cons, ← ih]
      constructor
      · rintro ⟨_, each⟩
        cases each with
        | cons compiles each =>
            obtain ⟨-, text, read, correct, -⟩ := compiles_iff.1 compiles
            exact ⟨⟨text, read, correct⟩, _, each⟩
      · rintro ⟨⟨text, read, correct⟩, units, each⟩
        exact ⟨⟨path.stem, (Vm.readings text).filterMap Reading.command?⟩ :: units,
          .cons (compiles_iff.2 ⟨rfl, text, read, correct, rfl⟩) each⟩

/-- The bootstrap code is written if there is an entry. -/
theorem compileEntry_of_limitless (entry : Option String) (limitless : emitter.sink.room = none) :
    (compileEntry entry emitter).result = .ok () ∧
      (compileEntry entry emitter).emitter =
        emitter.performed (entry.map Operation.bootstrap).toList := by
  cases entry with
  | none => exact ⟨rfl, rfl⟩
  | some entry =>
      refine ⟨?_, rfl⟩
      simp only [compileEntry, Emitter.bootstrap, Emitter.emitBlock,
        Sink.write_of_room_eq_none limitless]
      rfl

end compiling

/-! ## The whole compilation -/

section whole

variable {files : FileSystem} {sources : List FilePath} {entry : Option String} {annotate : Bool}
  {sink : Sink}

theorem compile_of_compiles {units : List SourceUnit}
    (each : List.Forall₂ (Compiles files) sources units)
    (limitless : sink.room = none) (flushes : sink.flushFails = false) :
    let last := (Emitter.start annotate sink).performed (programOperations entry units)
    (compile files sources entry annotate sink).result =
        .ok ⟨last.sink.written, units.map Summary.ofUnit⟩ ∧
      (compile files sources entry annotate sink).emitter = last := by
  obtain ⟨started, entered⟩ :=
    @compileEntry_of_limitless (Emitter.start annotate sink) entry limitless
  have kept := (Emitter.start annotate sink).continues_performed
    (entry.map Operation.bootstrap).toList
  obtain ⟨compiled, last⟩ := compileFiles_of_compiles each (kept.room.trans limitless)
  have flushed := ((Emitter.start annotate sink).continues_performed
    (programOperations entry units)).flushFails.trans flushes
  rw [programOperations, Emitter.performed_append] at flushed ⊢
  unfold Project.compile
  simp only [started, entered, compiled, last, Sink.flush, flushed]
  exact ⟨rfl, rfl⟩

theorem compile_of_flawed {before after : List FilePath} {path : FilePath}
    {units reached : List SourceUnit} {failure : Failure}
    (each : List.Forall₂ (Compiles files) before units)
    (flawed : Flawed files path failure reached) (limitless : sink.room = none) :
    (compile files (before ++ path :: after) entry annotate sink).result = .error failure ∧
      (compile files (before ++ path :: after) entry annotate sink).emitter =
        (Emitter.start annotate sink).performed (programOperations entry (units ++ reached)) := by
  obtain ⟨started, entered⟩ :=
    @compileEntry_of_limitless (Emitter.start annotate sink) entry limitless
  have kept := (Emitter.start annotate sink).continues_performed
    (entry.map Operation.bootstrap).toList
  obtain ⟨stopped, last⟩ :=
    @compileFiles_of_flawed _ _ _ before after _ _ _ each flawed (kept.room.trans limitless)
  rw [programOperations, Emitter.performed_append]
  unfold Project.compile
  simp only [started, entered, stopped, last, and_self]

/-- The operations of a program write the text of the program. -/
theorem written_programOperations (entry : Option String) (units : List SourceUnit)
    (annotate : Bool) {sink : Sink} (limitless : sink.room = none) :
    ((Emitter.start annotate sink).performed (programOperations entry units)).sink.written =
      sink.written ++ (programText annotate entry units).toUTF8 := by
  have emits := @Emitter.emits_programOperations entry units (.start annotate sink) limitless
  rw [emits.sink]
  exact appendTexts_eq annotate sink.written (blocks 0 (programItems entry units))

/-- Sources that are compiled are read, and their texts are the sources of their units. -/
theorem exists_texts {units : List SourceUnit} (each : List.Forall₂ (Compiles files) sources units) :
    ∃ texts, List.Forall₂ (fun path text => files.readText path = .ok text) sources texts ∧
      readUnits ((sources.map FilePath.stem).zip texts) = .ok units := by
  induction each with
  | nil => exact ⟨[], .nil, rfl⟩
  | @cons path unit rest units compiles _ ih =>
      obtain ⟨texts, read, made⟩ := ih
      obtain ⟨text, own, commands⟩ := compiles.read
      refine ⟨text :: texts, .cons own read, ?_⟩
      rw [List.map_cons, List.zip_cons_cons, readUnits, commands, made, ← compiles.name]

/-- What is compiled is the text of the program made from the units of the sources. -/
theorem bytes_compile {compiled : Compiled}
    (done : (compile files sources entry annotate .unbounded).result = .ok compiled) :
    ∃ units, List.Forall₂ (Compiles files) sources units ∧
      compiled.bytes = (programText annotate entry units).toUTF8 := by
  rcases compile_or_stopsAt files sources with ⟨units, each⟩ |
    ⟨failure, reached, before, path, after, units, rest, rfl, each, flawed, -⟩
  · cases done.symm.trans (compile_of_compiles each rfl rfl).1
    refine ⟨units, each, ?_⟩
    exact (written_programOperations entry units annotate rfl).trans ByteArray.empty_append
  · cases done.symm.trans (compile_of_flawed each flawed rfl).1

end whole

end HackToolchain.Project
