import HackToolchain.Codegen.Block
import HackToolchain.Proofs.Codegen.SymbolText
import Mathlib.Data.List.Nodup

/-!
# Labels of blocks

The code of an item declares the labels it jumps to within itself, and every
one of them carries the number that the item was given.  Blocks of a row of
items take different numbers, so no label is declared twice.
-/

namespace HackToolchain.Codegen

open HackToolchain.Vm

namespace Code

/-- The symbols that code declares, in order. -/
def declared (code : Code) : List Symbol :=
  code.filterMap Asm.Line.declared?

/-- The symbols that code loads, in order. -/
def loaded (code : Code) : List Symbol :=
  code.filterMap Asm.Line.loaded?

/-- The labels of its own making that code declares. -/
def labels (code : Code) : List Symbol :=
  code.declared.filter Symbol.isSynthetic

/-- The labels of its own making that code loads. -/
def references (code : Code) : List Symbol :=
  code.loaded.filter Symbol.isSynthetic

theorem declared_append (first second : Code) :
    declared (first ++ second) = first.declared ++ second.declared :=
  List.filterMap_append

theorem loaded_append (first second : Code) :
    loaded (first ++ second) = first.loaded ++ second.loaded :=
  List.filterMap_append

end Code

/-- The labels that the code of an item declares, given its number. -/
def itemLabels (number : Nat) : Item → List Symbol
  | .start entry => [.returnPoint entry number]
  | .command unit (.operate (.compare .eq)) =>
      [.mark unit .holds number, .mark unit .done number]
  | .command unit (.operate (.compare _)) =>
      [.mark unit .negative number, .mark unit .sameSign number, .mark unit .test number,
       .mark unit .holds number, .mark unit .done number]
  | .command _ (.call callee _) => [.returnPoint callee number]
  | .command _ _ => []

namespace Code

theorem declared_function (name : String) (locals : UInt16) :
    (function name locals).declared = [.given name] := by
  have zeros (count : Nat) :
      declared (List.replicate count (pushNumber 0)).flatten = [] := by
    induction count with
    | zero => rfl
    | succ count ih =>
        rw [List.replicate_succ, List.flatten_cons, declared_append, ih]
        rfl
  have rest := zeros locals.toNat
  simp only [declared] at rest
  simp [function, declared, Asm.Line.declared?, rest]

theorem loaded_function (name : String) (locals : UInt16) :
    ∀ symbol ∈ (function name locals).loaded, symbol = .register .sp := by
  have zeros (count : Nat) :
      ∀ symbol ∈ loaded (List.replicate count (pushNumber 0)).flatten, symbol = .register .sp := by
    induction count with
    | zero => simp [loaded]
    | succ count ih =>
        intro symbol member
        rw [List.replicate_succ, List.flatten_cons, loaded_append, List.mem_append] at member
        rcases member with head | tail
        · have only : symbol ∈ [Symbol.register .sp] := head
          exact List.mem_singleton.1 only
        · exact ih symbol tail
  intro symbol member
  exact zeros locals.toNat symbol member

theorem isSynthetic_register (named : Asm.Register) : (Symbol.register named).isSynthetic = false :=
  rfl

theorem not_isSynthetic_pointerCell (index : UInt16) :
    (pointerCell index).isSynthetic = false := by
  unfold pointerCell
  split
  · rfl
  · split <;> rfl

theorem labels_ofItem (number : Nat) (item : Item) :
    (ofItem number item).labels = itemLabels number item := by
  cases item with
  | start entry => rfl
  | command unit command =>
      cases command with
      | push segment index => cases segment <;> rfl
      | pop segment index => cases segment <;> rfl
      | operate operator =>
          rcases operator with _ | _ | (_ | _ | _) <;> rfl
      | function name locals =>
          simp [ofItem, ofCommand, labels, declared_function, itemLabels, Symbol.isSynthetic]
      | label | goto | ifGoto | call | ret => rfl

/-- Code refers to no label of its own making but the ones it declares. -/
theorem references_ofItem (number : Nat) (item : Item) :
    (ofItem number item).references ⊆ itemLabels number item := by
  cases item with
  | start entry => exact List.Subset.refl [Symbol.returnPoint entry number]
  | command unit command =>
      cases command with
      | push segment index =>
          cases segment with
          | pointer =>
              change [pointerCell index, Symbol.register .sp].filter _ ⊆ []
              simp [not_isSynthetic_pointerCell, isSynthetic_register]
          | _ => exact List.nil_subset _
      | pop segment index =>
          cases segment with
          | pointer =>
              change [Symbol.register .sp, pointerCell index].filter _ ⊆ []
              simp [not_isSynthetic_pointerCell, isSynthetic_register]
          | _ => exact List.nil_subset _
      | operate operator =>
          rcases operator with (_ | _) | (_ | _ | _ | _) | (_ | _ | _)
          case compare.eq => exact List.Subset.refl _
          case compare.gt | compare.lt =>
            change [Symbol.mark unit .negative number, .mark unit .sameSign number,
              .mark unit .test number, .mark unit .sameSign number, .mark unit .test number,
              .mark unit .holds number, .mark unit .done number] ⊆
                [.mark unit .negative number, .mark unit .sameSign number,
                  .mark unit .test number, .mark unit .holds number, .mark unit .done number]
            simp
          all_goals exact List.nil_subset _
      | function name locals =>
          intro symbol member
          obtain ⟨loaded, synthetic⟩ := List.mem_filter.1 member
          rw [loaded_function name locals symbol loaded] at synthetic
          cases synthetic
      | call callee arguments => exact List.Subset.refl [Symbol.returnPoint callee number]
      | label | goto | ifGoto | ret => exact List.nil_subset _

end Code

theorem number_of_mem_itemLabels {number : Nat} {item : Item} {symbol : Symbol}
    (member : symbol ∈ itemLabels number item) :
    symbol.isSynthetic ∧ symbol.number = number := by
  cases item with
  | start entry =>
      cases List.mem_singleton.1 member
      exact ⟨rfl, rfl⟩
  | command unit command =>
      cases command with
      | operate operator =>
          rcases operator with _ | _ | (_ | _ | _)
          case compare.eq =>
            rcases List.mem_pair.1 member with rfl | rfl <;> exact ⟨rfl, rfl⟩
          case compare.gt | compare.lt =>
            simp only [itemLabels, List.mem_cons, List.not_mem_nil, or_false] at member
            rcases member with rfl | rfl | rfl | rfl | rfl <;> exact ⟨rfl, rfl⟩
          all_goals cases member
      | call callee arguments =>
          cases List.mem_singleton.1 member
          exact ⟨rfl, rfl⟩
      | push | pop | label | goto | ifGoto | function | ret => cases member

theorem nodup_itemLabels (number : Nat) (item : Item) : (itemLabels number item).Nodup := by
  unfold itemLabels
  split <;> simp

theorem itemLabels_of_labelCount {number : Nat} {item : Item} (none : labelCount item = 0) :
    itemLabels number item = [] := by
  unfold itemLabels
  unfold labelCount at none
  split <;> simp_all

/-- The labels that blocks declare, in order. -/
def blockLabels (blocks : List Block) : List Symbol :=
  blocks.flatMap fun block => block.code.labels

theorem blockLabels_cons (number : Nat) (item : Item) (rest : List Item) :
    blockLabels (blocks number (item :: rest)) =
      itemLabels number item ++ blockLabels (blocks (number + labelCount item) rest) := by
  simp only [blockLabels, blocks, List.flatMap_cons, Block.ofItem, Code.labels_ofItem]

theorem number_of_mem_blockLabels {number : Nat} {items : List Item} {symbol : Symbol}
    (member : symbol ∈ blockLabels (blocks number items)) :
    symbol.isSynthetic ∧ number ≤ symbol.number := by
  induction items generalizing number with
  | nil => simp [blockLabels, blocks] at member
  | cons item rest ih =>
      rw [blockLabels_cons, List.mem_append] at member
      rcases member with own | later
      · obtain ⟨synthetic, same⟩ := number_of_mem_itemLabels own
        exact ⟨synthetic, Nat.le_of_eq same.symm⟩
      · obtain ⟨synthetic, bound⟩ := ih later
        exact ⟨synthetic, by omega⟩

/-- No two labels of a row of blocks are the same symbol. -/
theorem nodup_blockLabels (number : Nat) (items : List Item) :
    (blockLabels (blocks number items)).Nodup := by
  induction items generalizing number with
  | nil => simp [blockLabels, blocks]
  | cons item rest ih =>
      rw [blockLabels_cons, List.nodup_append]
      refine ⟨nodup_itemLabels number item, ih _, ?_⟩
      rintro symbol own other later rfl
      have taken : labelCount item ≠ 0 := by
        intro none
        rw [itemLabels_of_labelCount none] at own
        cases own
      have same := (number_of_mem_itemLabels own).2
      have bound := (number_of_mem_blockLabels later).2
      omega

/-- No two labels of a row of blocks have the same text. -/
theorem nodup_text_blockLabels (number : Nat) (items : List Item) :
    ((blockLabels (blocks number items)).map Symbol.text).Nodup := by
  refine List.Nodup.map_on (fun first left second right same => ?_) (nodup_blockLabels number items)
  exact Symbol.text_inj
    (Symbol.isNumbered_of_isSynthetic (number_of_mem_blockLabels left).1)
    (Symbol.isNumbered_of_isSynthetic (number_of_mem_blockLabels right).1) same

/-- What a block refers to as its own is among the labels it declares. -/
theorem references_subset_labels {number : Nat} {items : List Item} {block : Block}
    (member : block ∈ blocks number items) : block.code.references ⊆ block.code.labels := by
  induction items generalizing number with
  | nil => cases member
  | cons item rest ih =>
      rcases List.mem_cons.1 member with rfl | later
      · intro symbol used
        rw [Block.ofItem, Code.labels_ofItem]
        exact Code.references_ofItem number item used
      · exact ih later

end HackToolchain.Codegen
