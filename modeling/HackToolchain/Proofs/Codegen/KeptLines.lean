import HackToolchain.Proofs.Asm.OddNames
import HackToolchain.Proofs.Codegen.Names
import HackToolchain.Proofs.Codegen.Placement

/-!
# Programs with odd entries

An entry need not be a symbol for the rest of a program to stand where it
should.  As long as it keeps to its line, its lines keep to themselves, and every
other block stands at its place.
-/

namespace HackToolchain.Vm

open HackToolchain.Asm (KeepsLine)

/-- Items that are sound, but for an entry that may be any name that keeps to its line. -/
def Item.Kept : Item → Prop
  | .start entry => KeepsLine entry.toList
  | .command unit written => (Item.command unit written).Sound

theorem Item.Kept.valid {item : Item} (kept : item.Kept) : item.Valid := by
  cases item with
  | start => trivial
  | command => exact Sound.valid kept

theorem Item.Kept.keepsLine_carried {item : Item} (kept : item.Kept) {name : String}
    (carries : item.carried? = some name) : KeepsLine name.toList := by
  cases item with
  | start =>
      cases carries
      exact kept
  | command unit command =>
      exact Sound.keepsLine_carried (show (Item.command unit command).Sound from kept) carries

end HackToolchain.Vm

namespace HackToolchain.Codegen

open HackToolchain.Asm (KeepsLine Line instructionCount instructionCount_append)
open HackToolchain.Vm

/-- The items of accepted sources keep to their lines if the names of the units and the entry do. -/
theorem kept_of_mem_programItems {entry : Option String} {sources : List (String × String)}
    {units : List SourceUnit} (accepted : readUnits sources = .ok units)
    (starts : ∀ name ∈ entry, KeepsLine name.toList)
    (keeps : ∀ source ∈ sources, KeepsLine source.1.toList) :
    ∀ item ∈ programItems entry units, item.Kept := by
  intro item member
  rcases mem_programItems_of_readUnits accepted member with
    ⟨name, same, rfl⟩ | ⟨source, listed, command, rfl, valid⟩
  · exact starts name same
  · exact ⟨keeps source listed, valid⟩

theorem Mentioned.keepsLine_text {item : Item} {number : Nat} {symbol : Symbol}
    (valid : item.Valid) (keeps : ∀ name ∈ item.carried?, KeepsLine name.toList)
    (mentioned : Mentioned number item symbol) : KeepsLine symbol.text.toList := by
  refine Symbol.keepsLine_text ?_
  rcases mentioned.root valid with ⟨empty, -⟩ | symbolic | carries
  · exact empty ▸ Asm.keepsLine_nil
  · exact keepsLine_of_isSymbol symbolic
  · exact keeps _ carries

namespace Code

/-- Code is written in lines that keep to themselves if the name from outside does. -/
theorem kept_ofItem {item : Item} (valid : item.Valid)
    (keeps : ∀ name ∈ item.carried?, KeepsLine name.toList) (number : Nat) :
    ∀ line ∈ (ofItem number item).named, line.Kept :=
  forall_mem_named valid (fun _ => trivial) (fun _ => trivial)
    (fun _ mentioned => mentioned.keepsLine_text valid keeps)
    fun _ mentioned => mentioned.keepsLine_text valid keeps

end Code

/-- The lines of the blocks of such items keep to themselves. -/
theorem kept_of_mem_blocks {items : List Item} (kept : ∀ item ∈ items, item.Kept)
    (annotate : Bool) (number : Nat) :
    ∀ line ∈ (blocks number items).flatMap (Block.lines annotate), line.Kept :=
  forall_mem_blocks (fun item member => newline_notMem_text (kept item member).valid)
    (fun item member =>
      Code.kept_ofItem (kept item member).valid fun _ => (kept item member).keepsLine_carried)
    annotate number

section kept

variable {items : List Item} {annotate : Bool} {number : Nat} {program : Asm.Program}
  (kept : ∀ item ∈ items, item.Kept)
  (assembled : Asm.Program.assemble
    (Asm.render ((blocks number items).flatMap (Block.lines annotate))) = .ok program)

include kept assembled

/-- An assembled program ends behind the block of its last item. -/
theorem size_of_kept : program.rom.size = place items items.length := by
  have laid := Asm.Program.laysOut_of_kept (kept_of_mem_blocks kept annotate number) assembled
  rw [laid.size, instructionCount_blocks]

/-- The block of a command whose own labels are not predefined stands at its place. -/
theorem stands_of_kept {position : Nat} {unit : String} {command : Command}
    (here : items[position]? = some (.command unit command))
    (fresh : ∀ own, ∀ symbol ∈ (Code.ofCommand unit own command).declared,
      Asm.predefined? symbol.text = none) :
    (linkingOf program).Stands program.rom (place items position)
      (Code.ofCommand unit (number + labelTotal (items.take position)) command) := by
  have laid := Asm.Program.laysOut_of_kept (kept_of_mem_blocks kept annotate number) assembled
  have sound : (Item.command unit command).Sound := kept _ (List.mem_of_getElem? here)
  obtain ⟨before, after, cut, count⟩ := exists_cut annotate number here
  rw [cut] at laid
  rw [← count]
  refine stands_of_placed laid.collects (fun first line rest statement split reads => ?_)
    (fresh _)
  refine laid.instruction _ line (rest ++ after) statement ?_ ?_ reads
  · change before ++ ((Code.ofCommand unit _ command).named ++ after) = _
    rw [split]
    simp
  · refine Code.clean_ofItem sound (number + labelTotal (items.take position)) line ?_
    change line ∈ (Code.ofCommand unit _ command).named
    rw [split]
    exact List.mem_append_right _ List.mem_cons_self

end kept

end HackToolchain.Codegen
