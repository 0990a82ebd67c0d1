import HackToolchain.Proofs.Asm.Assembly
import HackToolchain.Proofs.Codegen.Labels
import Mathlib.Data.List.Perm.Basic

/-!
# What a program declares

The text of a program declares the names that its items give and the labels
that the code of the items makes for itself, and nothing else.  The latter are
all different, so a name can only be declared twice where it is given twice or
is written like one of the labels.
-/

namespace HackToolchain.Codegen

open HackToolchain.Asm (Line)
open HackToolchain.Vm

/-- The names that items declare, in order. -/
def givenNames (items : List Item) : List String :=
  items.filterMap Item.declared?

theorem declared_ofItem (number : Nat) (item : Item) :
    (Code.ofItem number item).declared =
      (item.declared?.map Symbol.given).toList ++ itemLabels number item := by
  cases item with
  | start entry => rfl
  | command unit command =>
      cases command with
      | push segment index => cases segment <;> rfl
      | pop segment index => cases segment <;> rfl
      | operate operator => rcases operator with _ | _ | (_ | _ | _) <;> rfl
      | function name locals => exact Code.declared_function name locals
      | label | goto | ifGoto | call | ret => rfl

/-- The lines of code declare the texts of its symbols. -/
theorem declaredNames_named (code : Code) :
    Asm.declaredNames code.named = code.declared.map Symbol.text := by
  rw [Asm.declaredNames, Code.named, List.filterMap_map, Code.declared, List.map_filterMap]
  congr 1
  funext line
  cases line <;> rfl

/-- What remarks do not have, a block has by its code alone. -/
theorem filterMap_lines {Found : Type} {find : Line String → Option Found}
    (silent : ∀ text, find (.remark text) = none) (annotate : Bool) (block : Block) :
    (block.lines annotate).filterMap find = block.code.named.filterMap find := by
  rw [Block.lines, List.filterMap_append]
  cases annotate with
  | false => rfl
  | true =>
      rw [if_pos rfl, List.filterMap_cons_none (silent _), List.filterMap_nil, List.nil_append]

section blocks

variable {items : List Item} {annotate : Bool} {number : Nat}

/-- A block declares the name that its item gives, and the labels of its own. -/
theorem declaredNames_ofItem (annotate : Bool) (number : Nat) (item : Item) :
    Asm.declaredNames (Block.lines annotate (.ofItem number item)) =
      item.declared?.toList ++ (itemLabels number item).map Symbol.text := by
  rw [Asm.declaredNames, filterMap_lines (fun _ => rfl)]
  change Asm.declaredNames (Code.ofItem number item).named = _
  rw [declaredNames_named, declared_ofItem, List.map_append]
  cases item.declared? <;> rfl

/-- The names that blocks declare are the given ones and the labels, in some order. -/
theorem declaredNames_perm (annotate : Bool) (number : Nat) (items : List Item) :
    (Asm.declaredNames ((blocks number items).flatMap (Block.lines annotate))).Perm
      (givenNames items ++ (blockLabels (blocks number items)).map Symbol.text) := by
  induction items generalizing number with
  | nil => exact .refl _
  | cons item rest ih =>
      have given : givenNames (item :: rest) = item.declared?.toList ++ givenNames rest := by
        simp only [givenNames, List.filterMap_eq_flatMap_toList, List.flatMap_cons]
      have whole : Asm.declaredNames
          ((blocks number (item :: rest)).flatMap (Block.lines annotate)) =
            (item.declared?.toList ++ (itemLabels number item).map Symbol.text) ++
              Asm.declaredNames
                ((blocks (number + labelCount item) rest).flatMap (Block.lines annotate)) := by
        rw [blocks, List.flatMap_cons, ← declaredNames_ofItem annotate number item]
        exact List.filterMap_append
      rw [whole, given, blockLabels_cons, List.map_append]
      -- The labels of the first item move behind the given names of the rest.
      refine (List.Perm.append_left _ (ih (number + labelCount item))).trans ?_
      rw [List.append_assoc, List.append_assoc]
      refine List.Perm.append_left _ ?_
      rw [← List.append_assoc, ← List.append_assoc]
      exact List.perm_append_comm.append_right _

theorem mem_declaredNames_iff {name : String} :
    name ∈ Asm.declaredNames ((blocks number items).flatMap (Block.lines annotate)) ↔
      name ∈ givenNames items ∨ ∃ label ∈ blockLabels (blocks number items), label.text = name := by
  rw [(declaredNames_perm annotate number items).mem_iff, List.mem_append, List.mem_map]

/-- No name is declared twice if none is given twice and no label is written like a given one. -/
theorem nodup_declaredNames_iff :
    (Asm.declaredNames ((blocks number items).flatMap (Block.lines annotate))).Nodup ↔
      (givenNames items).Nodup ∧
        ∀ label ∈ blockLabels (blocks number items), label.text ∉ givenNames items := by
  rw [(declaredNames_perm annotate number items).nodup_iff, List.nodup_append']
  constructor
  · rintro ⟨given, -, apart⟩
    exact ⟨given, fun label member inside => apart inside (List.mem_map_of_mem member)⟩
  · rintro ⟨given, apart⟩
    refine ⟨given, nodup_text_blockLabels number items, fun name inside member => ?_⟩
    obtain ⟨label, listed, rfl⟩ := List.mem_map.1 member
    exact apart label listed inside

end blocks

end HackToolchain.Codegen
