import HackToolchain.Proofs.Codegen.Operations

/-!
# Full sinks

Two emitters are asked for the same operations: the sink of one takes
everything, the sink of the other has room for so many bytes.  Since code is
made before any of it is written, the limited sink always holds the beginning of
what the other one has taken, and both emitters go on alike until the limit is
passed.
-/

namespace HackToolchain.Codegen

open HackToolchain.Vm

/-! ## Writes -/

/-- Bytes within a limit are not cut. -/
theorem extract_of_size_le {bytes : ByteArray} {limit : Nat} (within : bytes.size ≤ limit) :
    bytes.extract 0 limit = bytes := by
  have whole := @ByteArray.extract_zero_max_size bytes limit
  rwa [Nat.max_eq_left within] at whole

namespace Sink

/-- A sink that holds no more than it has room for. -/
def Fits (sink : Sink) : Prop :=
  ∀ room ∈ sink.room, sink.written.size ≤ room

theorem Fits.write {sink : Sink} (fits : sink.Fits) (bytes : ByteArray) :
    (sink.write bytes).2.Fits := by
  unfold Sink.write
  split
  next limitless =>
    intro room known
    cases limitless.symm.trans known
  next room limited =>
    have held := fits room limited
    split
    next enough =>
      intro other known
      cases limited.symm.trans known
      rw [ByteArray.size_append]
      exact enough
    next =>
      intro other known
      cases limited.symm.trans known
      rw [ByteArray.size_append, ByteArray.size_extract]
      omega

/-- Write pieces one after the other, up to the first failure. -/
def writeAll : List ByteArray → Sink → Except SinkFailure Unit × Sink
  | [], sink => (.ok (), sink)
  | bytes :: rest, sink =>
      match sink.write bytes with
      | (.ok (), sink) => writeAll rest sink
      | (.error failure, sink) => (.error failure, sink)

/-- Two writes of which the second is left out after a failure are one write. -/
theorem write_append (first second : ByteArray) (sink : Sink) :
    sink.write (first ++ second) =
      match sink.write first with
      | (.ok (), between) => between.write second
      | (.error failure, between) => (.error failure, between) := by
  obtain ⟨room, flushFails, written⟩ := sink
  cases room with
  | none => simp only [write, ByteArray.append_assoc]
  | some room =>
      by_cases enough : written.size + first.size ≤ room
      · simp only [write, if_pos enough, ByteArray.size_append, ← Nat.add_assoc,
          ByteArray.append_assoc]
        split
        next => rfl
        next =>
          have whole : first.extract 0 (room - written.size) = first :=
            extract_of_size_le (by omega)
          rw [ByteArray.extract_append, whole, Nat.zero_sub, Nat.sub_sub]
      · have less : ¬ written.size + (first ++ second).size ≤ room := by
          rw [ByteArray.size_append]
          omega
        have nothing : second.extract 0 (room - written.size - first.size) = .empty := by
          rw [show room - written.size - first.size = 0 by omega, ByteArray.extract_same]
        simp only [write, if_neg enough, if_neg less]
        rw [ByteArray.extract_append, Nat.zero_sub, nothing, ByteArray.append_empty]

/-- It makes no difference in how many pieces bytes are written. -/
theorem writeAll_eq_write (pieces : List ByteArray) {sink : Sink} (fits : sink.Fits) :
    sink.writeAll pieces = sink.write (pieces.foldr (· ++ ·) .empty) := by
  induction pieces generalizing sink with
  | nil =>
      obtain ⟨room, flushFails, written⟩ := sink
      cases room with
      | none => simp only [writeAll, List.foldr_nil, write, ByteArray.append_empty]
      | some room =>
          have held : written.size + ByteArray.empty.size ≤ room := fits room rfl
          simp only [writeAll, List.foldr_nil, write, if_pos held, ByteArray.append_empty]
  | cons bytes rest ih =>
      have later := fits.write bytes
      rw [List.foldr_cons, write_append, writeAll]
      cases done : sink.write bytes with
      | mk result between =>
          rw [done] at later
          cases result with
          | error failure => rfl
          | ok nothing => exact ih later

end Sink

/-- The lines of a block as they are written: every text and then its line feed. -/
def Block.pieces (annotate : Bool) (block : Block) : List ByteArray :=
  (block.lines annotate).flatMap fun line => [line.text.toUTF8, "\n".toUTF8]

/-- A block is written as its lines are, one after the other up to the first failure. -/
theorem Emitter.emitBlock_eq_writeAll (block : Block) {emitter : Emitter}
    (fits : emitter.sink.Fits) :
    emitter.emitBlock block =
      let (result, sink) := emitter.sink.writeAll (block.pieces emitter.annotate)
      (result, { emitter with sink }) := by
  have together (lines : List (Asm.Line String)) :
      (lines.flatMap fun line => [line.text.toUTF8, "\n".toUTF8]).foldr (· ++ ·) .empty =
        (Asm.render lines).toUTF8 := by
    induction lines with
    | nil => rfl
    | cons line rest ih =>
        rw [List.flatMap_cons, Asm.render_cons, List.foldr_append, ih]
        change line.text.toUTF8 ++ ("\n".toUTF8 ++ (Asm.render rest).toUTF8) = _
        rw [← ByteArray.append_assoc]
        exact (String.toByteArray_append.trans
          (congrArg (· ++ _) String.toByteArray_append)).symm
  rw [Sink.writeAll_eq_write _ fits, Block.pieces, together]
  rfl

/-- A block with code has a text. -/
theorem Block.size_text {block : Block} (code : block.code ≠ []) (annotate : Bool) :
    0 < (block.text annotate).toUTF8.size := by
  obtain ⟨line, rest, lines⟩ : ∃ line rest, block.lines annotate = line :: rest := by
    refine List.exists_cons_of_ne_nil fun empty => code ?_
    have named := (List.append_eq_nil_iff.1 empty).2
    rwa [Code.named, List.map_eq_nil_iff] at named
  have feed : 0 < "\n".utf8ByteSize := by decide
  rw [Block.text, lines, Asm.render_cons]
  change 0 < (line.text ++ "\n" ++ Asm.render rest).utf8ByteSize
  rw [String.utf8ByteSize_append, String.utf8ByteSize_append]
  omega

theorem Code.ofItem_ne_nil (number : Nat) (item : Item) : Code.ofItem number item ≠ [] := by
  cases item with
  | start entry => exact List.cons_ne_nil _ _
  | command unit command =>
      cases command with
      | push segment index | pop segment index => cases segment <;> exact List.cons_ne_nil _ _
      | operate operator => rcases operator with _ | _ | (_ | _ | _) <;> exact List.cons_ne_nil _ _
      | _ => exact List.cons_ne_nil _ _

/-! ## Two emitters beside each other -/

/-- An emitter with a limited sink beside one whose sink takes everything. -/
structure Tracks (limit : Nat) (free own : Emitter) : Prop where
  annotate : own.annotate = free.annotate
  limitless : free.sink.room = none
  room : own.sink.room = some limit
  written : own.sink.written = free.sink.written.extract 0 limit
  /-- Until the limit is passed, the same labels and statics are used. -/
  generator : free.sink.written.size ≤ limit → own.generator = free.generator

/-- What asking both emitters for the same shows, by the bytes of the free one before and after. -/
structure Cut (limit : Nat) (before after : ByteArray) (whole own : Except Failure Unit)
    (attempts : Prop) : Prop where
  /-- Nothing differs until the limit is passed. -/
  within : after.size ≤ limit → own = whole
  crossing : before.size ≤ limit → limit < after.size → own = .error (.sink .full)
  beyond : limit < before.size → attempts → own = .error (.sink .full)

/-- What writes nothing is cut nowhere. -/
theorem Cut.silent {limit : Nat} {bytes : ByteArray} {result : Except Failure Unit} {attempts : Prop}
    (nothing : ¬ attempts) : Cut limit bytes bytes result result attempts where
  within _ := rfl
  crossing within beyond := absurd within (Nat.not_le.2 beyond)
  beyond _ attempted := absurd attempted nothing

/-- A sink that has taken more. -/
structure Sink.Grown (before after : Sink) : Prop where
  room : after.room = before.room
  written : ∃ more, after.written = before.written ++ more

namespace Sink.Grown

variable {first second third : Sink}

theorem refl (sink : Sink) : Grown sink sink :=
  ⟨rfl, .empty, ByteArray.append_empty.symm⟩

theorem trans (earlier : Grown first second) (later : Grown second third) : Grown first third := by
  obtain ⟨more, same⟩ := earlier.written
  obtain ⟨most, same'⟩ := later.written
  refine ⟨later.room.trans earlier.room, more ++ most, ?_⟩
  rw [same', same, ByteArray.append_assoc]

theorem size_le (grown : Grown first second) : first.written.size ≤ second.written.size := by
  obtain ⟨more, same⟩ := grown.written
  rw [same, ByteArray.size_append]
  exact Nat.le_add_right _ _

/-- Beyond a limit, the beginning up to the limit stays. -/
theorem extract_eq (grown : Grown first second) {limit : Nat} (beyond : limit < first.written.size) :
    second.written.extract 0 limit = first.written.extract 0 limit := by
  obtain ⟨more, same⟩ := grown.written
  rw [same, ByteArray.extract_append, Nat.zero_sub, Nat.sub_eq_zero_of_le (Nat.le_of_lt beyond),
    ByteArray.extract_same, ByteArray.append_empty]

theorem write (bytes : ByteArray) (sink : Sink) : Grown sink (sink.write bytes).2 := by
  unfold Sink.write
  split
  · exact ⟨rfl, _, rfl⟩
  · split
    · exact ⟨rfl, _, rfl⟩
    · exact ⟨rfl, _, rfl⟩

theorem advanceAll (readings : List Reading) (progress : Progress) :
    Grown progress.emitter.sink (progress.advanceAll readings).2.emitter.sink :=
  @Progress.preserved_advanceAll (fun emitter => Grown progress.emitter.sink emitter.sink)
    (fun emitter _ before => before.trans (write _ emitter.sink)) readings progress (refl _)

theorem perform (operation : Operation) (emitter : Emitter) :
    Grown emitter.sink (emitter.perform operation).2.sink := by
  cases operation with
  | bootstrap entry => exact write _ emitter.sink
  | beginUnit name => exact refl _
  | annotate annotate => exact refl _
  | command command => exact write _ emitter.sink
  | source text => exact advanceAll (readings text) (Progress.start emitter)

end Sink.Grown

theorem Progress.annotate_advanceAll (readings : List Reading) (progress : Progress) :
    (progress.advanceAll readings).2.emitter.annotate = progress.emitter.annotate :=
  @preserved_advanceAll (fun emitter => emitter.annotate = progress.emitter.annotate)
    (fun _ _ same => same) readings progress rfl

section beside

variable {limit : Nat}

/--
A limited sink is offered the same bytes as one that takes everything, until
the limit is passed; it goes on holding the beginning of what the other has.
-/
theorem Sink.write_beside {free own : Sink} (limitless : free.room = none)
    (room : own.room = some limit) (written : own.written = free.written.extract 0 limit)
    {bytes ownBytes : ByteArray} (same : free.written.size ≤ limit → ownBytes = bytes)
    (something : 0 < ownBytes.size) :
    (own.write ownBytes).2.written = (free.write bytes).2.written.extract 0 limit ∧
      (own.write ownBytes).1 =
        if (free.write bytes).2.written.size ≤ limit then .ok () else .error .full := by
  rw [Sink.write_of_room_eq_none limitless]
  obtain ⟨ownRoom, flushFails, taken⟩ := own
  dsimp only at room written ⊢
  subst room written
  by_cases within : free.written.size ≤ limit
  · rw [same within, extract_of_size_le within, ByteArray.size_append]
    simp only [Sink.write]
    split
    next enough =>
      exact ⟨(extract_of_size_le (by rwa [ByteArray.size_append])).symm, rfl⟩
    next =>
      refine ⟨?_, rfl⟩
      rw [ByteArray.extract_append, extract_of_size_le within, Nat.zero_sub]
  · have beyond : limit < free.written.size := Nat.lt_of_not_le within
    have held : (free.written.extract 0 limit).size = limit := by
      rw [ByteArray.size_extract]
      omega
    have full : ¬ limit + ownBytes.size ≤ limit := by omega
    have after : ¬ (free.written ++ bytes).size ≤ limit := by
      rw [ByteArray.size_append]
      omega
    simp only [Sink.write, held, if_neg full, if_neg after, Nat.sub_self, ByteArray.extract_same,
      ByteArray.append_empty]
    have grown : Sink.Grown free { free with written := free.written ++ bytes } := ⟨rfl, _, rfl⟩
    exact ⟨(grown.extract_eq beyond).symm, trivial⟩

namespace Tracks

variable {free own after : Emitter}

/-- Both emitters make the same block until the limit is passed; from then on one of them fails. -/
theorem emitBlock (tracks : Tracks limit free own) {block ownBlock : Block}
    {generator ownGenerator : Generator}
    (same : free.sink.written.size ≤ limit → ownBlock = block ∧ ownGenerator = generator)
    (code : ownBlock.code ≠ []) :
    Tracks limit (Emitter.emitBlock block { free with generator }).2
        (Emitter.emitBlock ownBlock { own with generator := ownGenerator }).2 ∧
      (Emitter.emitBlock ownBlock { own with generator := ownGenerator }).1 =
        if (Emitter.emitBlock block { free with generator }).2.sink.written.size ≤ limit then .ok ()
        else .error .full := by
  have grown := Sink.Grown.write (block.text free.annotate).toUTF8 free.sink
  obtain ⟨written, result⟩ := @Sink.write_beside limit free.sink own.sink tracks.limitless
    tracks.room tracks.written (block.text free.annotate).toUTF8
    (ownBlock.text own.annotate).toUTF8
    (fun within => by rw [(same within).1, tracks.annotate]) (ownBlock.size_text code own.annotate)
  refine ⟨⟨tracks.annotate, grown.room.trans tracks.limitless,
    (Sink.Grown.write _ own.sink).room.trans tracks.room, written, fun within => ?_⟩, result⟩
  exact (same (grown.size_le.trans within)).2

/-- Once the limit is passed, the free emitter may go on alone. -/
theorem overrun (tracks : Tracks limit free own) (beyond : limit < free.sink.written.size)
    (annotate : after.annotate = free.annotate) (grown : free.sink.Grown after.sink) :
    Tracks limit after own where
  annotate := tracks.annotate.trans annotate.symm
  limitless := grown.room.trans tracks.limitless
  room := tracks.room
  written := tracks.written.trans (grown.extract_eq beyond).symm
  generator within := absurd (grown.size_le.trans within) (Nat.not_le.2 beyond)

/-- A single block is cut where the limit lies in it. -/
theorem cut_emitBlock {before between : ByteArray} {result : Except SinkFailure Unit}
    {attempts : Prop} (grown : before.size ≤ between.size)
    (own : result = if between.size ≤ limit then .ok () else .error .full) :
    Cut limit before between (.ok ()) (result.mapError .sink) attempts := by
  refine ⟨fun within => ?_, fun _ beyond => ?_, fun beyond _ => ?_⟩
  · rw [own, if_pos within]
    rfl
  · rw [own, if_neg (Nat.not_le.2 beyond)]
    rfl
  · rw [own, if_neg (Nat.not_le.2 (Nat.lt_of_lt_of_le beyond grown))]
    rfl

theorem emit (tracks : Tracks limit free own) (command : Command) :
    Tracks limit (free.emit command).2 (own.emit command).2 ∧
      (own.emit command).1 =
        if (free.emit command).2.sink.written.size ≤ limit then .ok () else .error .full :=
  tracks.emitBlock
    (fun within => by rw [tracks.generator within]; exact ⟨rfl, rfl⟩)
    (Code.ofItem_ne_nil own.generator.next (.command own.generator.unit command))

/-- Readings are compiled alike until a command of theirs passes the limit. -/
theorem advanceAll (readings : List Reading) {free own : Progress}
    (tracks : Tracks limit free.emitter own.emitter) :
    Tracks limit (free.advanceAll readings).2.emitter (own.advanceAll readings).2.emitter ∧
      Cut limit free.emitter.sink.written (free.advanceAll readings).2.emitter.sink.written
        (free.advanceAll readings).1 (own.advanceAll readings).1 (own.generated readings ≠ []) := by
  induction readings generalizing free own with
  | nil => exact ⟨tracks, .silent fun attempts => attempts rfl⟩
  | cons reading rest ih =>
      obtain ⟨line, text, outcome⟩ := reading
      cases outcome with
      | fault fault => exact ⟨tracks, .silent fun attempts => attempts rfl⟩
      | skipped =>
          exact @ih { free with skipped := ⟨line, text, .skipped⟩ :: free.skipped }
            { own with skipped := ⟨line, text, .skipped⟩ :: own.skipped } tracks
      | command command =>
          obtain ⟨between, result⟩ := tracks.emit command
          have grown : free.emitter.sink.Grown (free.emitter.emit command).2.sink :=
            Sink.Grown.write _ free.emitter.sink
          have passed := Emitter.emit_of_limitless command tracks.limitless
          cases written : free.emitter.emit command with
          | mk whole emitter =>
              cases ownWritten : own.emitter.emit command with
              | mk part ownEmitter =>
                  rw [written] at passed between result grown
                  rw [ownWritten] at between result
                  cases (Prod.mk.inj passed).1
                  simp only [Progress.advanceAll, Progress.advance, written, ownWritten]
                  by_cases within : emitter.sink.written.size ≤ limit
                  · obtain rfl : part = .ok () := result.trans (if_pos within)
                    obtain ⟨later, cut⟩ := @ih
                      { free with emitter, commands := free.commands + 1 }
                      { own with emitter := ownEmitter, commands := own.commands + 1 } between
                    refine ⟨later, cut.within, fun _ => cut.crossing within, fun beyond => ?_⟩
                    exact absurd (grown.size_le.trans within) (Nat.not_le.2 beyond)
                  · obtain rfl : part = .error .full := result.trans (if_neg within)
                    have beyond := Nat.lt_of_not_le within
                    have more := Sink.Grown.advanceAll rest
                      { free with emitter, commands := free.commands + 1 }
                    refine ⟨between.overrun beyond ?_ more, fun inside => ?_, fun _ _ => rfl,
                      fun _ _ => rfl⟩
                    · exact Progress.annotate_advanceAll rest
                        { free with emitter, commands := free.commands + 1 }
                    · exact absurd (more.size_le.trans inside) within

theorem perform (tracks : Tracks limit free own) (operation : Operation) :
    Tracks limit (free.perform operation).2 (own.perform operation).2 ∧
      Cut limit free.sink.written (free.perform operation).2.sink.written
        (free.perform operation).1 (own.perform operation).1 (own.generated operation ≠ []) := by
  have grown := Sink.Grown.perform operation free
  cases operation with
  | bootstrap entry =>
      obtain ⟨between, result⟩ := @emitBlock limit free own tracks
        (free.generator.bootstrapBlock entry) (own.generator.bootstrapBlock entry)
        free.generator.advanceBootstrap own.generator.advanceBootstrap
        (fun within => by rw [tracks.generator within]; exact ⟨rfl, rfl⟩)
        (Code.ofItem_ne_nil own.generator.next (.start entry))
      have whole : (free.perform (.bootstrap entry)).1 = .ok () := by
        simp only [Emitter.perform, Emitter.bootstrap, Emitter.emitBlock,
          Sink.write_of_room_eq_none tracks.limitless]
        rfl
      rw [whole]
      exact ⟨between, cut_emitBlock grown.size_le result⟩
  | beginUnit name =>
      refine ⟨⟨tracks.annotate, tracks.limitless, tracks.room, tracks.written, fun within => ?_⟩,
        .silent fun attempts => attempts rfl⟩
      exact congrArg (Generator.beginUnit name) (tracks.generator within)
  | annotate annotate =>
      exact ⟨⟨rfl, tracks.limitless, tracks.room, tracks.written, tracks.generator⟩,
        .silent fun attempts => attempts rfl⟩
  | command command =>
      obtain ⟨between, result⟩ := tracks.emit command
      have whole : (free.perform (.command command)).1 = .ok () := by
        simp only [Emitter.perform, Emitter.emit_of_limitless command tracks.limitless]
        rfl
      rw [whole]
      exact ⟨between, cut_emitBlock grown.size_le result⟩
  | source text =>
      exact @advanceAll limit (readings text) (Progress.start free) (Progress.start own) tracks

theorem performed (operations : List Operation) (tracks : Tracks limit free own) :
    Tracks limit (free.performed operations) (own.performed operations) := by
  induction operations generalizing free own with
  | nil => exact tracks
  | cons operation rest ih => exact ih (tracks.perform operation).1

end Tracks

end beside

/-! ## Labels and statics -/

/-- Operations that do not read a source. -/
def Operation.isSingle : Operation → Bool
  | source _ => false
  | _ => true

/-- What such an operation makes of a generator, whatever becomes of the write. -/
def Generator.after (generator : Generator) : Operation → Generator
  | .bootstrap _ => generator.advanceBootstrap
  | .beginUnit name => generator.beginUnit name
  | .command command => generator.advance command
  | .annotate _ | .source _ => generator

theorem Emitter.generator_perform {operation : Operation} (single : operation.isSingle)
    (emitter : Emitter) :
    (emitter.perform operation).2.generator = emitter.generator.after operation := by
  cases operation with
  | source => cases single
  | _ => rfl

theorem Emitter.generator_performed_of_single {operations : List Operation}
    (single : ∀ operation ∈ operations, operation.isSingle) (emitter : Emitter) :
    (emitter.performed operations).generator =
      operations.foldl Generator.after emitter.generator := by
  induction operations generalizing emitter with
  | nil => rfl
  | cons operation rest ih =>
      rw [performed_cons, ih fun other member => single other (List.mem_cons_of_mem _ member),
        generator_perform (single operation List.mem_cons_self), List.foldl_cons]

/-! ## Whole runs -/

/-- What becomes of an operation after others, where the sink has room for so many bytes. -/
structure KeepsPrefix (limit : Nat) (earlier : List Operation) (operation : Operation)
    (free own : Emitter) : Prop where
  /-- The limited sink holds the first bytes that the other one has taken. -/
  written : (own.perform operation).2.sink.written =
    (free.perform operation).2.sink.written.extract 0 limit
  /-- Until the limit is passed, the results are the same. -/
  within : (free.perform operation).2.sink.written.size ≤ limit →
    (own.perform operation).1 = (free.perform operation).1
  crossing : free.sink.written.size ≤ limit →
    limit < (free.perform operation).2.sink.written.size →
      (own.perform operation).1 = .error (.sink .full)
  /-- After the limit was passed, nothing is added, and whatever would write fails. -/
  beyond : limit < free.sink.written.size →
    (own.perform operation).2.sink.written = own.sink.written ∧
      (own.generated operation ≠ [] → (own.perform operation).1 = .error (.sink .full))
  /-- Unless sources are read, the same labels and statics are used all the way. -/
  generator : (∀ done ∈ earlier ++ [operation], done.isSingle) →
    (own.perform operation).2.generator = (free.perform operation).2.generator

/--
Perform operations on two emitters, failed or not, where one sink takes
everything and the other has room for so many bytes.  At every operation of the
sequence, the limited sink keeps the beginning of what the other one has.
-/
theorem full_sink_keeps_prefix (annotate : Bool) (limit : Nat) (flushFails flushFails' : Bool)
    (earlier : List Operation) (operation : Operation) :
    KeepsPrefix limit earlier operation
      ((Emitter.start annotate ⟨none, flushFails, .empty⟩).performed earlier)
      ((Emitter.start annotate ⟨some limit, flushFails', .empty⟩).performed earlier) := by
  have start : Tracks limit (Emitter.start annotate ⟨none, flushFails, .empty⟩)
      (Emitter.start annotate ⟨some limit, flushFails', .empty⟩) :=
    ⟨rfl, rfl, rfl, (extract_of_size_le (Nat.zero_le limit)).symm, fun _ => rfl⟩
  have before := start.performed earlier
  obtain ⟨after, cut⟩ := before.perform operation
  refine ⟨after.written, cut.within, cut.crossing, fun beyond => ⟨?_, cut.beyond beyond⟩, ?_⟩
  · rw [after.written, before.written]
    exact (Sink.Grown.perform operation _).extract_eq beyond
  · intro single
    change ((Emitter.performed earlier _).performed [operation]).generator =
      ((Emitter.performed earlier _).performed [operation]).generator
    rw [← Emitter.performed_append, ← Emitter.performed_append,
      Emitter.generator_performed_of_single single, Emitter.generator_performed_of_single single]
    rfl

end HackToolchain.Codegen
