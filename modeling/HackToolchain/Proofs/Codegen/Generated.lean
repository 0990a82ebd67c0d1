import HackToolchain.Codegen.Emitter
import HackToolchain.Proofs.Codegen.Labels

/-!
# Blocks generated by a run

An emitter makes the code of a command before it writes any of it, so the
blocks of a run are there whether or not the sink takes them.  They are the
blocks of one row of items with one run of numbers, and that is why no label
of a run is ever declared again, failed operations included.  This holds
whichever of the writes fail: each operation may find another sink in the place
of the one before it.
-/

namespace HackToolchain.Codegen

open HackToolchain.Vm

/-- The labels of its own that the code of an item declares, counted. -/
def ownLabelCount : Item → Nat
  | .command _ (.operate (.compare .gt)) | .command _ (.operate (.compare .lt)) => 5
  | .command _ (.operate (.compare .eq)) => 2
  | .command _ (.call _ _) | .start _ => 1
  | _ => 0

namespace Progress

/-- The blocks generated for readings up to the first failure, the failing one included. -/
def generated : List Reading → Progress → List Block
  | [], _ => []
  | reading :: rest, progress =>
      (reading.command?.map progress.emitter.generator.block).toList ++
        match progress.advance reading with
        | (.ok (), progress) => generated rest progress
        | (.error _, _) => []

end Progress

namespace Emitter

/-- The blocks that an operation generates, written or not. -/
def generated (operation : Operation) (emitter : Emitter) : List Block :=
  match operation with
  | .bootstrap entry => [emitter.generator.bootstrapBlock entry]
  | .beginUnit _ | .annotate _ => []
  | .command command => [emitter.generator.block command]
  | .source text => (Progress.start emitter).generated (readings text)

def generatedAll : List Operation → Emitter → List Block
  | [], _ => []
  | operation :: rest, emitter =>
      emitter.generated operation ++ generatedAll rest (emitter.perform operation).2

/--
The blocks that operations generate when each of them finds a sink of its own,
so that a write that fails may be followed by one that does not.
-/
def generatedOn : List (Sink × Operation) → Emitter → List Block
  | [], _ => []
  | (sink, operation) :: rest, emitter =>
      let emitter := { emitter with sink }
      emitter.generated operation ++ generatedOn rest (emitter.perform operation).2

/-- A run on one sink is a run that finds this sink as every operation has left it. -/
theorem exists_generatedOn (operations : List Operation) (emitter : Emitter) :
    ∃ steps : List (Sink × Operation), steps.map Prod.snd = operations ∧
      emitter.generatedOn steps = emitter.generatedAll operations := by
  induction operations generalizing emitter with
  | nil => exact ⟨[], rfl, rfl⟩
  | cons operation rest ih =>
      obtain ⟨steps, same, blocks⟩ := ih (emitter.perform operation).2
      refine ⟨(emitter.sink, operation) :: steps, congrArg (operation :: ·) same, ?_⟩
      exact congrArg (emitter.generated operation ++ ·) blocks

end Emitter

/-- An operation with at most one write; a source stops at the first write that fails. -/
def Operation.IsSingle : Operation → Prop
  | .source _ => False
  | .bootstrap _ | .beginUnit _ | .annotate _ | .command _ => True

namespace Emitter

/-- What single operations generate, and which generator they leave, is up to the generator. -/
theorem generated_congr {operation : Operation} (single : operation.IsSingle)
    {emitter other : Emitter} (same : emitter.generator = other.generator) :
    emitter.generated operation = other.generated operation ∧
      (emitter.perform operation).2.generator = (other.perform operation).2.generator := by
  cases operation with
  | source text => cases single
  | bootstrap entry =>
      exact ⟨by rw [generated, generated, same], congrArg Generator.advanceBootstrap same⟩
  | beginUnit name => exact ⟨rfl, congrArg (Generator.beginUnit name) same⟩
  | annotate annotate => exact ⟨rfl, same⟩
  | command command =>
      exact ⟨by rw [generated, generated, same], congrArg (Generator.advance command) same⟩

/-- The blocks that single operations generate do not depend on the sinks. -/
theorem generatedOn_eq_generatedAll {steps : List (Sink × Operation)}
    (single : ∀ step ∈ steps, step.2.IsSingle) {emitter other : Emitter}
    (same : emitter.generator = other.generator) :
    emitter.generatedOn steps = other.generatedAll (steps.map Prod.snd) := by
  induction steps generalizing emitter other with
  | nil => rfl
  | cons step rest ih =>
      obtain ⟨sink, operation⟩ := step
      have others := fun step member => single step (List.mem_cons_of_mem _ member)
      obtain ⟨own, next⟩ := @generated_congr operation
        (single (sink, operation) List.mem_cons_self) { emitter with sink } other same
      rw [generatedOn, List.map_cons, generatedAll, own, ih others next]

end Emitter

namespace Progress

/-- Readings generate a row of blocks from the next number on and leave the number after it. -/
theorem generated_eq_blocks (readings : List Reading) (progress : Progress) :
    ∃ items, progress.generated readings = blocks progress.emitter.generator.next items ∧
      (progress.advanceAll readings).2.emitter.generator.next =
        progress.emitter.generator.next + labelTotal items := by
  induction readings generalizing progress with
  | nil => exact ⟨[], rfl, rfl⟩
  | cons reading rest ih =>
      obtain ⟨line, text, outcome⟩ := reading
      cases outcome with
      | fault fault => exact ⟨[], rfl, rfl⟩
      | skipped =>
          exact ih { progress with skipped := ⟨line, text, .skipped⟩ :: progress.skipped }
      | command command =>
          -- The item takes its numbers before the write, so both results leave the same number.
          let item := Item.command progress.emitter.generator.unit command
          have moved : (progress.emitter.emit command).2.generator.next =
              progress.emitter.generator.next + labelCount item :=
            congrArg Generator.next (Emitter.generator_emit command progress.emitter)
          cases written : progress.emitter.emit command with
          | mk result emitter =>
              rw [written] at moved
              dsimp only at moved
              cases result with
              | error failure =>
                  refine ⟨[item], ?_, ?_⟩
                  · simp only [generated, advance, written]
                    rfl
                  · simp only [advanceAll, advance, written]
                    rw [moved, labelTotal_cons]
                    rfl
              | ok done =>
                  obtain ⟨items, same, next⟩ :=
                    ih { progress with emitter, commands := progress.commands + 1 }
                  dsimp only at same next
                  refine ⟨item :: items, ?_, ?_⟩
                  · simp only [generated, advance, written]
                    rw [same, moved]
                    rfl
                  · simp only [advanceAll, advance, written]
                    rw [next, moved, labelTotal_cons, Nat.add_assoc]

end Progress

namespace Emitter

/-- An operation generates a row of blocks from the next number on and leaves the number after it. -/
theorem generated_eq_blocks (operation : Operation) (emitter : Emitter) :
    ∃ items, emitter.generated operation = blocks emitter.generator.next items ∧
      (emitter.perform operation).2.generator.next =
        emitter.generator.next + labelTotal items := by
  cases operation with
  | bootstrap entry => exact ⟨[.start entry], rfl, rfl⟩
  | beginUnit name => exact ⟨[], rfl, rfl⟩
  | annotate annotate => exact ⟨[], rfl, rfl⟩
  | command command =>
      refine ⟨[.command emitter.generator.unit command], rfl, ?_⟩
      rw [labelTotal_cons]
      rfl
  | source text => exact Progress.generated_eq_blocks (readings text) (Progress.start emitter)

/-- All blocks of a run are one row of blocks, with one run of numbers. -/
theorem generatedOn_eq_blocks (steps : List (Sink × Operation)) (emitter : Emitter) :
    ∃ items, emitter.generatedOn steps = blocks emitter.generator.next items := by
  induction steps generalizing emitter with
  | nil => exact ⟨[], rfl⟩
  | cons step rest ih =>
      obtain ⟨sink, operation⟩ := step
      obtain ⟨first, own, next⟩ := generated_eq_blocks operation { emitter with sink }
      obtain ⟨later, others⟩ := ih (perform operation { emitter with sink }).2
      refine ⟨first ++ later, ?_⟩
      rw [generatedOn, own, others, next, blocks_append]

end Emitter

/-- Bytes followed by the texts of blocks. -/
def appendTexts (annotate : Bool) (bytes : ByteArray) (blocks : List Block) : ByteArray :=
  blocks.foldl (fun bytes block => bytes ++ (block.text annotate).toUTF8) bytes

theorem Emitter.emit_of_limitless (command : Command) {emitter : Emitter}
    (limitless : emitter.sink.room = none) :
    emitter.emit command =
      (.ok (),
        { emitter with
          generator := emitter.generator.advance command
          sink :=
            { emitter.sink with
              written :=
                appendTexts emitter.annotate emitter.sink.written
                  [emitter.generator.block command] } }) := by
  simp [Emitter.emit, Emitter.emitBlock, Sink.write_of_room_eq_none limitless, appendTexts]

theorem Progress.written_advanceAll (readings : List Reading) {progress : Progress}
    (limitless : progress.emitter.sink.room = none) :
    (progress.advanceAll readings).2.emitter.sink.written =
      appendTexts progress.emitter.annotate progress.emitter.sink.written
        (progress.generated readings) := by
  induction readings generalizing progress with
  | nil => rfl
  | cons reading rest ih =>
      obtain ⟨line, text, outcome⟩ := reading
      cases outcome with
      | fault fault => rfl
      | skipped =>
          exact @ih { progress with skipped := ⟨line, text, .skipped⟩ :: progress.skipped } limitless
      | command command =>
          have written := Emitter.emit_of_limitless command limitless
          simp only [advanceAll, generated, advance, written]
          rw [ih (by exact limitless)]
          rfl

/-- What a sink without a limit takes from an operation is the text of the generated blocks. -/
theorem Emitter.written_perform (operation : Operation) {emitter : Emitter}
    (limitless : emitter.sink.room = none) :
    (emitter.perform operation).2.sink.written =
      appendTexts emitter.annotate emitter.sink.written (emitter.generated operation) := by
  cases operation with
  | bootstrap entry =>
      simp [perform, bootstrap, emitBlock, Sink.write_of_room_eq_none limitless, appendTexts,
        generated]
  | beginUnit name => rfl
  | annotate annotate => rfl
  | command command =>
      simp only [perform, emit_of_limitless command limitless]
      rfl
  | source text =>
      exact @Progress.written_advanceAll (readings text) (Progress.start emitter) limitless

theorem length_itemLabels (number : Nat) (item : Item) :
    (itemLabels number item).length = ownLabelCount item := by
  cases item with
  | start entry => rfl
  | command unit command =>
      cases command with
      | operate operator => rcases operator with _ | _ | (_ | _ | _) <;> rfl
      | _ => rfl

/-- The blocks of a row are the blocks of its items. -/
theorem exists_item_of_mem_blocks {number : Nat} {items : List Item} {block : Block}
    (member : block ∈ blocks number items) :
    ∃ own item, item ∈ items ∧ block = .ofItem own item := by
  induction items generalizing number with
  | nil => cases member
  | cons item rest ih =>
      rcases List.mem_cons.1 member with rfl | later
      · exact ⟨number, item, List.mem_cons_self, rfl⟩
      · obtain ⟨own, found, inside, same⟩ := ih later
        exact ⟨own, found, List.mem_cons_of_mem _ inside, same⟩

/-- Blocks whose labels of their own are told apart and are all that is referred to as such. -/
structure ClosedLabels (blocks : List Block) : Prop where
  /-- The labels have pairwise different texts. -/
  nodup : ((blockLabels blocks).map Symbol.text).Nodup
  /-- Each block declares the labels of its item. -/
  own : ∀ block ∈ blocks, ∃ number item,
    block = .ofItem number item ∧ block.code.labels.length = ownLabelCount item
  /-- No label is written like a static variable. -/
  apart : ∀ unit index,
    (Symbol.static unit index).text ∉ (blockLabels blocks).map Symbol.text
  /-- What a block refers to as its own is declared once, in that block. -/
  closed : ∀ block ∈ blocks, ∀ used ∈ block.code.references,
    used.text ∈ block.code.labels.map Symbol.text ∧
      ((blockLabels blocks).map Symbol.text).count used.text = 1

theorem closedLabels_blocks (number : Nat) (items : List Item) :
    ClosedLabels (blocks number items) where
  nodup := nodup_text_blockLabels number items
  own block member := by
    obtain ⟨number, item, -, rfl⟩ := exists_item_of_mem_blocks member
    refine ⟨number, item, rfl, ?_⟩
    rw [Block.ofItem, Code.labels_ofItem, length_itemLabels]
  apart unit index clash := by
    -- Both symbols are numbered, so equal texts make the label a static variable.
    obtain ⟨label, member, texts⟩ := List.mem_map.1 clash
    have synthetic := (number_of_mem_blockLabels member).1
    have label_eq := Symbol.text_inj (Symbol.isNumbered_of_isSynthetic synthetic) rfl texts
    rw [label_eq] at synthetic
    cases synthetic
  closed block member used refers := by
    have own := references_subset_labels member refers
    have listed : used ∈ blockLabels (blocks number items) :=
      List.mem_flatMap.2 ⟨block, member, own⟩
    exact ⟨List.mem_map_of_mem own,
      List.count_eq_one_of_mem (nodup_text_blockLabels number items) (List.mem_map_of_mem listed)⟩

/-- The labels of a run are closed, whatever sinks its operations find. -/
theorem closedLabels_generatedOn (steps : List (Sink × Operation)) (emitter : Emitter) :
    ClosedLabels (emitter.generatedOn steps) := by
  obtain ⟨items, same⟩ := emitter.generatedOn_eq_blocks steps
  rw [same]
  exact closedLabels_blocks emitter.generator.next items

/--
The labels that the blocks of any run declare for themselves have pairwise
different texts, none of them is the text of a static variable, and what a
block refers to as its own is declared once in the run, in that block.
-/
theorem labels_unique_and_closed (operations : List Operation) (emitter : Emitter) :
    ((blockLabels (emitter.generatedAll operations)).map Symbol.text).Nodup ∧
    (∀ block ∈ emitter.generatedAll operations, ∃ number item,
      block = .ofItem number item ∧ block.code.labels.length = ownLabelCount item) ∧
    (∀ unit index, (Symbol.static unit index).text ∉
      (blockLabels (emitter.generatedAll operations)).map Symbol.text) ∧
    (∀ block ∈ emitter.generatedAll operations, ∀ used ∈ block.code.references,
      used.text ∈ block.code.labels.map Symbol.text ∧
      ((blockLabels (emitter.generatedAll operations)).map Symbol.text).count used.text = 1) := by
  obtain ⟨steps, -, same⟩ := emitter.exists_generatedOn operations
  have labels := closedLabels_generatedOn steps emitter
  rw [same] at labels
  exact ⟨labels.nodup, labels.own, labels.apart, labels.closed⟩

end HackToolchain.Codegen
