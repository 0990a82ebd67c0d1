import HackToolchain.Proofs.Files.Writing
import HackToolchain.Proofs.Project.Compilation

/-!
# Compilation up to the first failure

A compilation over a sink that never fails has done all its sources, or it has
done what comes before the first flaw in them and says which flaw that is.
-/

namespace HackToolchain.Project

open HackToolchain.Codegen HackToolchain.Files
open HackToolchain.Vm (Reading SourceUnit)

section whole

variable {files : FileSystem} {sources : List FilePath} {entry : Option String} {annotate : Bool}
  {sink : Sink}

/-- A compilation that has done all its sources, given their texts and their units. -/
structure Translates (files : FileSystem) (sources : List FilePath) (entry : Option String)
    (annotate : Bool) (sink : Sink) (texts : List String) (units : List SourceUnit)
    (compiled : Compiled) : Prop where
  reads : List.Forall₂ (fun path text => files.readText path = .ok text) sources texts
  /-- The units have the stems of the paths and the commands of the texts. -/
  made : readUnits ((sources.map FilePath.stem).zip texts) = .ok units
  /-- The bytes are those of one emitter that performs the operations of the program. -/
  performed : compiled.bytes =
    ((Emitter.start annotate sink).performed (programOperations entry units)).sink.written
  /-- They are the text of the program that stems and texts give, behind what the sink held. -/
  text : ∃ text, sourceText annotate entry ((sources.map FilePath.stem).zip texts) = .ok text ∧
    compiled.bytes = sink.written ++ text.toUTF8
  /-- There is one summary for each unit. -/
  summaries : compiled.summaries = units.map Summary.ofUnit

theorem translates_of_compiles {units : List SourceUnit} {compiled : Compiled}
    (each : List.Forall₂ (Compiles files) sources units)
    (limitless : sink.room = none) (flushes : sink.flushFails = false)
    (done : (compile files sources entry annotate sink).result = .ok compiled) :
    ∃ texts, Translates files sources entry annotate sink texts units compiled := by
  obtain ⟨texts, reads, made⟩ := exists_texts each
  have whole := (@compile_of_compiles _ _ entry annotate _ _ each limitless flushes).1
  cases done.symm.trans whole
  refine ⟨texts, reads, made, rfl, ⟨programText annotate entry units, ?_, ?_⟩, rfl⟩
  · rw [sourceText, made]
    rfl
  · exact written_programOperations entry units annotate limitless

/--
Over a sink that never fails, a compilation succeeds exactly if every source is
text without a fault.  Otherwise it fails like the first source that is not, and
the emitter has then been asked for everything before that flaw and nothing else.
-/
theorem compile_stops_first (limitless : sink.room = none) (flushes : sink.flushFails = false) :
    let stage := compile files sources entry annotate sink
    ((∃ compiled, stage.result = .ok compiled) ↔
      ∀ path ∈ sources, ∃ text, files.readText path = .ok text ∧
        ∀ reading ∈ Vm.readings text, reading.fault? = none) ∧
    (∀ compiled, stage.result = .ok compiled →
      ∃ texts units, Translates files sources entry annotate sink texts units compiled) ∧
    (∀ failure, stage.result = .error failure ↔
      ∃ reached, StopsAt files sources failure reached) ∧
    ∀ failure reached, StopsAt files sources failure reached →
      stage.emitter =
        (Emitter.start annotate sink).performed (programOperations entry reached) := by
  intro stage
  have stops {failure : Failure} {reached : List SourceUnit}
      (first : StopsAt files sources failure reached) : stage.result = .error failure ∧
        stage.emitter =
          (Emitter.start annotate sink).performed (programOperations entry reached) := by
    obtain ⟨before, path, after, units, rest, rfl, each, flawed, rfl⟩ := first
    exact compile_of_flawed each flawed limitless
  refine ⟨⟨?_, ?_⟩, ?_, fun failure => ⟨?_, ?_⟩, fun failure reached first => (stops first).2⟩
  · rintro ⟨compiled, done⟩
    rcases compile_or_stopsAt files sources with each | ⟨failure, reached, first⟩
    · exact exists_units_iff.1 each
    · cases done.symm.trans (stops first).1
  · intro good
    obtain ⟨units, each⟩ := exists_units_iff.2 good
    exact ⟨_, (compile_of_compiles each limitless flushes).1⟩
  · intro compiled done
    rcases compile_or_stopsAt files sources with ⟨units, each⟩ | ⟨failure, reached, first⟩
    · obtain ⟨texts, translates⟩ := translates_of_compiles each limitless flushes done
      exact ⟨texts, units, translates⟩
    · cases done.symm.trans (stops first).1
  · intro failed
    rcases compile_or_stopsAt files sources with ⟨units, each⟩ | ⟨other, reached, first⟩
    · cases failed.symm.trans (compile_of_compiles each limitless flushes).1
    · cases failed.symm.trans (stops first).1
      exact ⟨reached, first⟩
  · rintro ⟨reached, first⟩
    exact (stops first).1

end whole

/-- A correct source file and one with a fault in its second line. -/
def spoiledFiles : FileSystem :=
  ⟨.file "Good.vm" "push static 3\npop static 3\nadd".toUTF8
    (.file "Bad.vm" "not\nadd 1\nsub".toUTF8 .empty), []⟩

def correctUnit : SourceUnit :=
  ⟨"Good", [.push .statics 3, .pop .statics 3, .operate (.binary .add)]⟩

theorem compiles_good : Compiles spoiledFiles ⟨"Good.vm"⟩ correctUnit := by
  have resolved : spoiledFiles.resolve ⟨"Good.vm"⟩ = .ok ["Good.vm"] := by decide +kernel
  exact ⟨by decide +kernel, "push static 3\npop static 3\nadd",
    FileSystem.readText_of_resolve resolved rfl, by decide +kernel⟩

theorem flawed_bad : Flawed spoiledFiles ⟨"Bad.vm"⟩
    (.fault ⟨"Bad.vm"⟩ ⟨2, "add 1", .extraOperands ["1"]⟩) [⟨"Bad", [.operate (.unary .not)]⟩] := by
  have resolved : spoiledFiles.resolve ⟨"Bad.vm"⟩ = .ok ["Bad.vm"] := by decide +kernel
  have lines : Vm.readings "not\nadd 1\nsub" =
      [⟨1, "not", .command (.operate (.unary .not))⟩] ++
        ⟨2, "add 1", .fault (.extraOperands ["1"])⟩ ::
          [⟨3, "sub", .command (.operate (.binary .sub))⟩] := by decide +kernel
  have stem : FilePath.stem ⟨"Bad.vm"⟩ = "Bad" := by decide +kernel
  rw [← stem]
  exact .faulty (FileSystem.readText_of_resolve resolved rfl) lines (by simp [Reading.fault?]) rfl

theorem compile_stops_first_spoiled :
    let twice := compile spoiledFiles [⟨"Good.vm"⟩, ⟨"Good.vm"⟩] none false .unbounded
    let stopped := compile spoiledFiles [⟨"Good.vm"⟩, ⟨"Bad.vm"⟩, ⟨"Gone.vm"⟩] none false .unbounded
    (Sink.unbounded.room = none ∧ Sink.unbounded.flushFails = false) ∧
    (∃ compiled, twice.result = .ok compiled ∧
      compiled.summaries = [⟨"Good", 3, 1⟩, ⟨"Good", 3, 1⟩] ∧
      ∃ texts units, Translates spoiledFiles [⟨"Good.vm"⟩, ⟨"Good.vm"⟩] none false .unbounded texts
        units compiled) ∧
    stopped.result = .error (.fault ⟨"Bad.vm"⟩ ⟨2, "add 1", .extraOperands ["1"]⟩) ∧
    stopped.emitter = (Emitter.start false .unbounded).performed
      (programOperations none [correctUnit, ⟨"Bad", [.operate (.unary .not)]⟩]) := by
  intro twice stopped
  have stops : StopsAt spoiledFiles [⟨"Good.vm"⟩, ⟨"Bad.vm"⟩, ⟨"Gone.vm"⟩]
      (.fault ⟨"Bad.vm"⟩ ⟨2, "add 1", .extraOperands ["1"]⟩)
      [correctUnit, ⟨"Bad", [.operate (.unary .not)]⟩] :=
    ⟨[⟨"Good.vm"⟩], ⟨"Bad.vm"⟩, [⟨"Gone.vm"⟩], [correctUnit], _, rfl, .cons compiles_good .nil,
      flawed_bad, rfl⟩
  obtain ⟨succeeds, translates, -, -⟩ :=
    @compile_stops_first spoiledFiles [⟨"Good.vm"⟩, ⟨"Good.vm"⟩] none false .unbounded rfl rfl
  obtain ⟨-, -, fails, emits⟩ :=
    @compile_stops_first spoiledFiles [⟨"Good.vm"⟩, ⟨"Bad.vm"⟩, ⟨"Gone.vm"⟩] none false .unbounded
      rfl rfl
  refine ⟨⟨rfl, rfl⟩, ?_, (fails _).2 ⟨_, stops⟩, emits _ _ stops⟩
  have both := exists_units_iff.1 ⟨_, .cons compiles_good (.cons compiles_good .nil)⟩
  obtain ⟨compiled, done⟩ := succeeds.2 both
  cases done.symm.trans
    (compile_of_compiles (.cons compiles_good (.cons compiles_good .nil)) rfl rfl).1
  exact ⟨_, done, by decide +kernel, translates _ done⟩

end HackToolchain.Project
