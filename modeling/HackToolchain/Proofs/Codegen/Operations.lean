import HackToolchain.Proofs.Codegen.Emission
import Mathlib.Data.Finset.Card

/-!
# Operations one after the other

Readings without a fault are compiled as if an emitter were asked for each of
their commands in turn; a fault ends that.  Whatever an emitter is asked for,
its sink keeps its limit.  The statics that a unit has used are the distinct
indices of its commands.
-/

namespace HackToolchain.Codegen

open HackToolchain.Vm

/-- The operations that compile a unit: it is started, and its commands follow. -/
def unitOperations (unit : SourceUnit) : List Operation :=
  .beginUnit unit.name :: unit.commands.map .command

/-- The operations that compile a program: the bootstrap, if there is an entry, and its units. -/
def programOperations (entry : Option String) (units : List SourceUnit) : List Operation :=
  (entry.map Operation.bootstrap).toList ++ units.flatMap unitOperations

/-! ## Sinks -/

/-- Sinks of which the later one has only taken more or less. -/
structure Sink.Continues (earlier later : Sink) : Prop where
  room : later.room = earlier.room
  flushFails : later.flushFails = earlier.flushFails

namespace Sink.Continues

variable {first second third : Sink}

theorem refl (sink : Sink) : Continues sink sink := ⟨rfl, rfl⟩

theorem trans (earlier : Continues first second) (later : Continues second third) :
    Continues first third :=
  ⟨later.room.trans earlier.room, later.flushFails.trans earlier.flushFails⟩

theorem write (bytes : ByteArray) (sink : Sink) : Continues sink (sink.write bytes).2 := by
  unfold Sink.write
  split
  · exact ⟨rfl, rfl⟩
  · split
    · exact ⟨rfl, rfl⟩
    · exact ⟨rfl, rfl⟩

end Sink.Continues

namespace Emitter

/-- The emitter after operations, failed or not. -/
def performed (operations : List Operation) (emitter : Emitter) : Emitter :=
  operations.foldl (fun emitter operation => (emitter.perform operation).2) emitter

theorem performed_cons (operation : Operation) (rest : List Operation) (emitter : Emitter) :
    emitter.performed (operation :: rest) = (emitter.perform operation).2.performed rest :=
  rfl

theorem performed_append (first second : List Operation) (emitter : Emitter) :
    emitter.performed (first ++ second) = (emitter.performed first).performed second :=
  List.foldl_append

theorem continues_emit (command : Command) (emitter : Emitter) :
    emitter.sink.Continues (emitter.emit command).2.sink :=
  Sink.Continues.write _ emitter.sink

end Emitter

namespace Progress

/-- What every emission preserves, readings preserve, however far they are compiled. -/
theorem preserved_advanceAll {property : Emitter → Prop}
    (preserved : ∀ emitter command, property emitter → property (emitter.emit command).2)
    (readings : List Reading) {progress : Progress} (start : property progress.emitter) :
    property (progress.advanceAll readings).2.emitter := by
  induction readings generalizing progress with
  | nil => exact start
  | cons reading rest ih =>
      obtain ⟨line, text, outcome⟩ := reading
      cases outcome with
      | fault fault => exact start
      | skipped =>
          exact @ih { progress with skipped := ⟨line, text, .skipped⟩ :: progress.skipped } start
      | command command =>
          have own := preserved progress.emitter command start
          cases written : progress.emitter.emit command with
          | mk result emitter =>
              rw [written] at own
              cases result with
              | error failure =>
                  simp only [advanceAll, advance, written]
                  exact own
              | ok nothing =>
                  simp only [advanceAll, advance, written]
                  exact @ih { progress with emitter, commands := progress.commands + 1 } own

theorem continues_advanceAll (readings : List Reading) (progress : Progress) :
    progress.emitter.sink.Continues (progress.advanceAll readings).2.emitter.sink :=
  @preserved_advanceAll (fun emitter => progress.emitter.sink.Continues emitter.sink)
    (fun emitter command before => before.trans (emitter.continues_emit command)) readings progress
    (.refl _)

/-- Readings after others are advanced through where the first ones have led to. -/
theorem advanceAll_append (first second : List Reading) (progress : Progress) :
    progress.advanceAll (first ++ second) =
      match progress.advanceAll first with
      | (.ok (), between) => between.advanceAll second
      | (.error failure, between) => (.error failure, between) := by
  induction first generalizing progress with
  | nil => rfl
  | cons reading rest ih =>
      rw [List.cons_append, advanceAll, advanceAll]
      rcases progress.advance reading with ⟨_ | _, between⟩
      · rfl
      · exact ih between

/-- Readings without a fault are compiled by emitting their commands in turn. -/
theorem advanceAll_of_correct {readings : List Reading} {progress : Progress}
    (limitless : progress.emitter.sink.room = none)
    (correct : ∀ reading ∈ readings, reading.fault? = none) :
    ∃ after, progress.advanceAll readings = (.ok (), after) ∧
      after.emitter =
        progress.emitter.performed ((readings.filterMap Reading.command?).map .command) ∧
      after.commands = progress.commands + (readings.filterMap Reading.command?).length := by
  induction readings generalizing progress with
  | nil => exact ⟨progress, rfl, rfl, rfl⟩
  | cons reading rest ih =>
      have later : ∀ reading ∈ rest, reading.fault? = none :=
        fun other inside => correct other (List.mem_cons_of_mem _ inside)
      have own := correct reading List.mem_cons_self
      obtain ⟨line, text, outcome⟩ := reading
      cases outcome with
      | fault fault => cases own
      | skipped =>
          exact @ih { progress with skipped := ⟨line, text, .skipped⟩ :: progress.skipped }
            limitless later
      | command command =>
          obtain ⟨emitter, written⟩ : ∃ emitter, progress.emitter.emit command = (.ok (), emitter) :=
            ⟨_, Emitter.emit_of_limitless command limitless⟩
          have kept := Emitter.continues_emit command progress.emitter
          rw [written] at kept
          obtain ⟨after, advanced, emitted, count⟩ :=
            @ih { progress with emitter, commands := progress.commands + 1 }
              (kept.room.trans limitless) later
          refine ⟨after, ?_, ?_, count.trans (Nat.add_right_comm _ 1 _)⟩
          · simp only [advanceAll, advance, written]
            exact advanced
          · have same : (progress.emitter.perform (.command command)).2 = emitter :=
              congrArg Prod.snd written
            change after.emitter = (progress.emitter.perform (.command command)).2.performed _
            rw [same]
            exact emitted

end Progress

namespace Emitter

theorem continues_perform (operation : Operation) (emitter : Emitter) :
    emitter.sink.Continues (emitter.perform operation).2.sink := by
  cases operation with
  | bootstrap entry => exact Sink.Continues.write _ emitter.sink
  | beginUnit name => exact .refl _
  | annotate annotate => exact .refl _
  | command command => exact emitter.continues_emit command
  | source text => exact Progress.continues_advanceAll (readings text) (Progress.start emitter)

theorem continues_performed (operations : List Operation) (emitter : Emitter) :
    emitter.sink.Continues (emitter.performed operations).sink := by
  induction operations generalizing emitter with
  | nil => exact .refl _
  | cons operation rest ih => exact (emitter.continues_perform operation).trans (ih _)

/-- Commands move the generator on, each in its turn. -/
theorem generator_performed (commands : List Command) (emitter : Emitter) :
    (emitter.performed (commands.map .command)).generator =
      commands.foldl (fun generator command => generator.advance command) emitter.generator := by
  induction commands generalizing emitter with
  | nil => rfl
  | cons command rest ih => exact ih (emitter.emit command).2

/-- Commands are emitted as those of the current unit. -/
theorem emits_performed_commands (commands : List Command) {emitter : Emitter}
    (limitless : emitter.sink.room = none) :
    Emits (commands.map (.command emitter.generator.unit)) emitter
      (emitter.performed (commands.map .command)) := by
  induction commands generalizing emitter with
  | nil => exact .refl emitter
  | cons command rest ih =>
      obtain ⟨after, written⟩ : ∃ after, emitter.emit command = (.ok (), after) :=
        ⟨_, emit_of_limitless command limitless⟩
      obtain ⟨own, generator⟩ := emits_emit written
      have later := @ih after (by rw [own.sink]; exact limitless)
      -- The unit is the same after the command.
      have unit : after.generator.unit = emitter.generator.unit := by
        rw [generator]
        rfl
      have moved : (emitter.perform (.command command)).2 = after := congrArg Prod.snd written
      rw [unit] at later
      rw [List.map_cons, List.map_cons, performed_cons, moved]
      exact own.append later

theorem emits_unitOperations (units : List SourceUnit) {emitter : Emitter}
    (limitless : emitter.sink.room = none) :
    Emits (programItems none units) emitter
      (emitter.performed (units.flatMap unitOperations)) := by
  induction units generalizing emitter with
  | nil => exact .refl emitter
  | cons unit rest ih =>
      have own := @emits_performed_commands unit.commands (emitter.beginUnit unit.name) limitless
      have begun := (Emits.beginUnit unit.name emitter).append own
      have later := @ih ((emitter.beginUnit unit.name).performed (unit.commands.map .command))
        (by rw [begun.sink]; exact limitless)
      rw [List.flatMap_cons, performed_append]
      exact begun.append later

/-- The operations of a program emit its items. -/
theorem emits_programOperations (entry : Option String) (units : List SourceUnit)
    {emitter : Emitter} (limitless : emitter.sink.room = none) :
    Emits (programItems entry units) emitter
      (emitter.performed (programOperations entry units)) := by
  rw [programOperations, performed_append]
  cases entry with
  | none => exact emits_unitOperations units limitless
  | some entry =>
      have booted : Emits [.start entry] emitter (emitter.bootstrap entry).2 := by
        apply emits_bootstrap
        rw [bootstrap, emitBlock, Sink.write_of_room_eq_none limitless]
      exact booted.append (emits_unitOperations units (by rw [booted.sink]; exact limitless))

end Emitter

/-! ## Statics -/

theorem pairwise_insertIndex {index : UInt16} {indices : List UInt16}
    (sorted : indices.Pairwise (· < ·)) : (insertIndex index indices).Pairwise (· < ·) := by
  induction indices with
  | nil => exact List.pairwise_singleton _ _
  | cons first rest ih =>
      obtain ⟨least, rest'⟩ := List.pairwise_cons.1 sorted
      unfold insertIndex
      split
      next before =>
        refine List.pairwise_cons.2 ⟨fun other member => ?_, sorted⟩
        rcases List.mem_cons.1 member with rfl | inside
        · exact before
        · exact UInt16.lt_trans before (least other inside)
      next notBefore =>
        split
        next => exact sorted
        next different =>
          refine List.pairwise_cons.2 ⟨fun other member => ?_, ih rest'⟩
          rcases mem_insertIndex.1 member with rfl | inside
          · exact UInt16.lt_of_le_of_ne (UInt16.not_lt.1 notBefore) (Ne.symm different)
          · exact least other inside

namespace Generator

/-- The statics of a generator are in order, and the index of the command is one of them. -/
theorem statics_advance (command : Command) {generator : Generator}
    (sorted : generator.statics.Pairwise (· < ·)) :
    (generator.advance command).statics.Pairwise (· < ·) ∧
      ∀ index, index ∈ (generator.advance command).statics ↔
        staticIndex? command = some index ∨ index ∈ generator.statics := by
  unfold advance
  cases staticIndex? command with
  | none => exact ⟨sorted, fun index => by simp⟩
  | some own =>
      refine ⟨pairwise_insertIndex sorted, fun index => ?_⟩
      rw [mem_insertIndex, Option.some.injEq, eq_comm]

theorem statics_foldl (commands : List Command) {generator : Generator}
    (sorted : generator.statics.Pairwise (· < ·)) :
    let moved := commands.foldl (fun generator command => generator.advance command) generator
    moved.statics.Pairwise (· < ·) ∧
      ∀ index, index ∈ moved.statics ↔
        index ∈ commands.filterMap staticIndex? ∨ index ∈ generator.statics := by
  induction commands generalizing generator with
  | nil => exact ⟨sorted, fun index => by simp⟩
  | cons command rest ih =>
      obtain ⟨sorted', own⟩ := statics_advance command sorted
      obtain ⟨last, later⟩ := ih sorted'
      refine ⟨last, fun index => ?_⟩
      rw [List.foldl_cons, later index, own index, ← or_assoc]
      refine or_congr_left ?_
      rw [List.mem_filterMap, List.mem_filterMap, or_comm]
      simp only [List.mem_cons, or_and_right, exists_or, exists_eq_left]

/-- A unit has used as many statics as there are different indices in its commands. -/
theorem length_statics (name : String) (commands : List Command) (generator : Generator) :
    (commands.foldl (fun generator command => generator.advance command)
        (generator.beginUnit name)).statics.length =
      (commands.filterMap staticIndex?).toFinset.card := by
  obtain ⟨sorted, members⟩ :=
    @statics_foldl commands (generator.beginUnit name) List.Pairwise.nil
  have distinct := sorted.imp fun less => UInt16.ne_of_lt less
  rw [← List.toFinset_card_of_nodup distinct]
  refine congrArg Finset.card (Finset.ext fun index => ?_)
  rw [List.mem_toFinset, List.mem_toFinset, members index]
  exact or_iff_left List.not_mem_nil

end Generator

end HackToolchain.Codegen
