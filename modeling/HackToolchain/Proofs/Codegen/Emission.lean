import HackToolchain.Codegen.Program
import HackToolchain.Proofs.Codegen.Generated

/-!
# What an emitter has written

A write that succeeds has stored all its bytes.  So an emitter that gets
through items without a failure has appended the texts of their blocks to its
sink, numbered on from where it stood, and changed nothing else about the sink.
-/

namespace HackToolchain.Codegen

open HackToolchain.Vm

theorem Sink.write_ok {bytes : ByteArray} {sink after : Sink}
    (done : sink.write bytes = (.ok (), after)) :
    after = { sink with written := sink.written ++ bytes } := by
  unfold Sink.write at done
  split at done
  next => exact (Prod.mk.inj done).2.symm
  next =>
    split at done
    next => exact (Prod.mk.inj done).2.symm
    next => cases (Prod.mk.inj done).1

/-- Bytes followed by the texts of blocks are followed by the text of their lines. -/
theorem appendTexts_eq (annotate : Bool) (bytes : ByteArray) (blocks : List Block) :
    appendTexts annotate bytes blocks =
      bytes ++ (Asm.render (blocks.flatMap (Block.lines annotate))).toUTF8 := by
  induction blocks generalizing bytes with
  | nil =>
      change bytes = bytes ++ ByteArray.empty
      rw [ByteArray.append_empty]
  | cons block rest ih =>
      rw [appendTexts, List.foldl_cons]
      change appendTexts annotate (bytes ++ (block.text annotate).toUTF8) rest = _
      rw [ih, List.flatMap_cons, Asm.render_append, ByteArray.append_assoc]
      exact congrArg (bytes ++ ·) String.toByteArray_append.symm

/-- An emitter before and after it has emitted items. -/
structure Emits (items : List Item) (before after : Emitter) : Prop where
  annotate : after.annotate = before.annotate
  next : after.generator.next = before.generator.next + labelTotal items
  sink : after.sink = { before.sink with
    written := appendTexts before.annotate before.sink.written
      (blocks before.generator.next items) }

namespace Emits

variable {earlier later : List Item} {before between after : Emitter}

theorem refl (emitter : Emitter) : Emits [] emitter emitter := ⟨rfl, rfl, rfl⟩

/-- A new source unit is started without writing anything. -/
theorem beginUnit (name : String) (emitter : Emitter) : Emits [] emitter (emitter.beginUnit name) :=
  ⟨rfl, rfl, rfl⟩

theorem append (first : Emits earlier before between) (second : Emits later between after) :
    Emits (earlier ++ later) before after := by
  refine ⟨second.annotate.trans first.annotate, ?_, ?_⟩
  · rw [second.next, first.next, labelTotal_append, Nat.add_assoc]
  · rw [second.sink, first.sink, first.annotate, first.next, blocks_append, appendTexts,
      appendTexts, appendTexts, List.foldl_append]

end Emits

namespace Emitter

variable {emitter after : Emitter}

/-- Writing the block of an item emits it, whatever the generator goes on with. -/
theorem emits_emitBlock {item : Item} {generator : Generator}
    (next : generator.next = emitter.generator.next + labelCount item)
    (done : emitBlock (.ofItem emitter.generator.next item) { emitter with generator } =
      (.ok (), after)) : Emits [item] emitter after ∧ after.generator = generator := by
  rw [emitBlock] at done
  cases written : emitter.sink.write
      ((Block.ofItem emitter.generator.next item).text emitter.annotate).toUTF8 with
  | mk result sink =>
      simp only [written, Prod.mk.injEq] at done
      obtain ⟨rfl, rfl⟩ := done
      refine ⟨⟨rfl, ?_, Sink.write_ok written⟩, rfl⟩
      rw [labelTotal_cons]
      exact next

theorem emits_emit {command : Command} (done : emitter.emit command = (.ok (), after)) :
    Emits [.command emitter.generator.unit command] emitter after ∧
      after.generator = emitter.generator.advance command :=
  emits_emitBlock rfl done

theorem emits_bootstrap {entry : String} (done : emitter.bootstrap entry = (.ok (), after)) :
    Emits [.start entry] emitter after :=
  (emits_emitBlock rfl done).1

end Emitter

end HackToolchain.Codegen
