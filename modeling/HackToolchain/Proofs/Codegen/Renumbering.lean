import HackToolchain.Proofs.Codegen.Labels
import HackToolchain.Proofs.Asm.Rendering

/-!
# Code of programs, renumbered

Before its symbols are named, the code of a program depends on the first label
number in one way only: every label of generated code carries its number.
-/

namespace HackToolchain.Codegen

open HackToolchain.Asm (Line)
open HackToolchain.Vm

/-! ## Code of a program -/

/-- The code of a block, after its remark if remarks are on. -/
def Block.annotated (annotate : Bool) (block : Block) : Code :=
  (if annotate then [.remark block.remark] else []) ++ block.code

/-- The lines of the blocks of items, before their symbols are named. -/
def programCode (annotate : Bool) (number : Nat) (items : List Item) : Code :=
  (blocks number items).flatMap (Block.annotated annotate)

theorem Block.named_annotated (annotate : Bool) (block : Block) :
    (block.annotated annotate).named = block.lines annotate := by
  rw [annotated, Code.named, List.map_append, lines]
  cases annotate <;> rfl

theorem named_programCode (annotate : Bool) (number : Nat) (items : List Item) :
    (programCode annotate number items).named =
      (blocks number items).flatMap (Block.lines annotate) := by
  rw [programCode, Code.named, List.map_flatMap]
  exact List.flatMap_congr fun block _ => Block.named_annotated annotate block

theorem programCode_cons (annotate : Bool) (number : Nat) (item : Item) (rest : List Item) :
    programCode annotate number (item :: rest) =
      Block.annotated annotate (.ofItem number item) ++
        programCode annotate (number + labelCount item) rest := by
  rw [programCode, blocks, List.flatMap_cons, ← programCode]

section mem

variable {items : List Item} {annotate : Bool}

/-- A line of a program is a remark or stands in the code of an item, all of which is there. -/
theorem exists_item_of_mem_programCode {number : Nat} {line : Line Symbol}
    (member : line ∈ programCode annotate number items) :
    line.isRemark ∨ ∃ own, ∃ item ∈ items, line ∈ Code.ofItem own item ∧
      ∀ other ∈ Code.ofItem own item, other ∈ programCode annotate number items := by
  induction items generalizing number with
  | nil => cases member
  | cons item rest ih =>
      rw [programCode_cons] at member ⊢
      rcases List.mem_append.1 member with here | later
      · rcases List.mem_append.1 here with remark | code
        · cases annotate with
          | false => cases remark
          | true =>
              rw [List.mem_singleton.1 remark]
              exact .inl rfl
        · exact .inr ⟨number, item, List.mem_cons_self, code, fun other inside =>
            List.mem_append_left _ (List.mem_append_right _ inside)⟩
      · rcases ih later with remark | ⟨own, found, inside, code, all⟩
        · exact .inl remark
        · exact .inr ⟨own, found, List.mem_cons_of_mem _ inside, code, fun other within =>
            List.mem_append_right _ (all other within)⟩

/-- The code of every item is among the lines of a program. -/
theorem exists_code_of_mem (annotate : Bool) (number : Nat) {item : Item} (member : item ∈ items) :
    ∃ own, ∀ line ∈ Code.ofItem own item, line ∈ programCode annotate number items := by
  induction items generalizing number with
  | nil => cases member
  | cons first rest ih =>
      rw [programCode_cons]
      rcases List.mem_cons.1 member with rfl | later
      · exact ⟨number, fun line inside =>
          List.mem_append_left _ (List.mem_append_right _ inside)⟩
      · obtain ⟨own, all⟩ := ih (number + labelCount first) later
        exact ⟨own, fun line inside => List.mem_append_right _ (all line inside)⟩

theorem exists_named_of_mem (annotate : Bool) (number : Nat) {item : Item} (member : item ∈ items) :
    ∃ own, ∀ line ∈ (Code.ofItem own item).named,
      line ∈ (blocks number items).flatMap (Block.lines annotate) := by
  obtain ⟨own, all⟩ := exists_code_of_mem annotate number member
  rw [← named_programCode]
  exact ⟨own, List.map_subset (Asm.Line.map Symbol.text) all⟩

end mem

/-! ## Renumbering -/

/-- The same symbol of code that is numbered from further on. -/
def Symbol.renumber (distance : Nat) : Symbol → Symbol
  | mark unit place number => mark unit place (number + distance)
  | returnPoint callee number => returnPoint callee (number + distance)
  | register named => register named
  | cell number => cell number
  | given name => given name
  | static unit index => static unit index

namespace Code

theorem renumber_pointerCell (distance : Nat) (index : UInt16) :
    (pointerCell index).renumber distance = pointerCell index := by
  unfold pointerCell
  split
  · rfl
  · split <;> rfl

/-- The number of an item appears in its code only as the number of labels. -/
theorem ofItem_add (number distance : Nat) (item : Item) :
    ofItem (number + distance) item =
      (ofItem number item).map (Line.map (Symbol.renumber distance)) := by
  cases item with
  | start entry => rfl
  | command unit command =>
      cases command with
      | push segment index =>
          cases segment with
          | pointer => exact congrArg pushCell (renumber_pointerCell distance index).symm
          | _ => rfl
      | pop segment index =>
          cases segment with
          | pointer => exact congrArg popCell (renumber_pointerCell distance index).symm
          | _ => rfl
      | operate operator => rcases operator with _ | _ | (_ | _ | _) <;> rfl
      | function name locals =>
          have zeros : (List.replicate locals.toNat (pushNumber 0)).flatten.map
              (Line.map (Symbol.renumber distance)) =
                (List.replicate locals.toNat (pushNumber 0)).flatten := by
            rw [List.map_flatten, List.map_replicate]
            rfl
          exact congrArg (.declare (.given name) :: ·) zeros.symm
      | label | goto | ifGoto | call | ret => rfl

end Code

/-- A program that is numbered from further on has the same code but for the numbers. -/
theorem programCode_add (annotate : Bool) (number distance : Nat) (items : List Item) :
    programCode annotate (number + distance) items =
      (programCode annotate number items).map (Line.map (Symbol.renumber distance)) := by
  induction items generalizing number with
  | nil => rfl
  | cons item rest ih =>
      have own : Block.annotated annotate (.ofItem (number + distance) item) =
          (Block.annotated annotate (.ofItem number item)).map
            (Line.map (Symbol.renumber distance)) := by
        rw [Block.annotated, Block.annotated, List.map_append]
        refine congrArg₂ _ ?_ (Code.ofItem_add number distance item)
        cases annotate <;> rfl
      rw [programCode_cons, programCode_cons, List.map_append, own, Nat.add_right_comm, ih]

end HackToolchain.Codegen
