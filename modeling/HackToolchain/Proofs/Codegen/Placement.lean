import HackToolchain.Memory
import HackToolchain.Proofs.Asm.Assembly
import HackToolchain.Proofs.Codegen.CleanLines
import HackToolchain.Proofs.Codegen.Labels

/-!
# Where blocks stand

In an assembled program the block of every item stands at a place of its own:
after the instructions of the items before it.  Its instructions are found
there with their symbols resolved, and the symbols it declares stand for places
within it.  Remarks take no place.
-/

namespace HackToolchain.Codegen

open HackToolchain.Asm (Instruction KeepsLine Line instructionCount instructionCount_append
  instructionCount_cons nameValue?)
open HackToolchain.Vm

/-! ## Places -/

/-- The number of instructions in the block of an item. -/
def itemSize (item : Item) : Nat :=
  instructionCount (Code.ofItem 0 item)

/-- The place of the block at a position: the instructions of the items before it. -/
def place : List Item → Nat → Nat
  | [], _ | _ :: _, 0 => 0
  | item :: rest, position + 1 => itemSize item + place rest position

namespace Code

/-- The size of a block does not depend on its number. -/
theorem size_ofItem (number : Nat) (item : Item) :
    instructionCount (ofItem number item) = itemSize item := by
  cases item with
  | start entry => rfl
  | command unit command =>
      cases command with
      | operate operator => rcases operator with _ | _ | (_ | _ | _) <;> rfl
      | _ => rfl

end Code

@[simp] theorem place_zero (items : List Item) : place items 0 = 0 := by
  cases items <;> rfl

/-- A block is followed by the next one. -/
theorem place_succ {items : List Item} {position : Nat} {item : Item}
    (here : items[position]? = some item) :
    place items (position + 1) = place items position + itemSize item := by
  induction items generalizing position with
  | nil => cases here
  | cons first rest ih =>
      cases position with
      | zero =>
          cases here
          rw [place_zero (item :: rest), place, place_zero, Nat.add_comm]
      | succ position => rw [place, ih here, place, Nat.add_assoc]

theorem place_mono (items : List Item) {position later : Nat} (before : position ≤ later) :
    place items position ≤ place items later := by
  induction items generalizing position later with
  | nil => exact Nat.le_refl 0
  | cons first rest ih =>
      cases position with
      | zero =>
          rw [place_zero]
          exact Nat.zero_le _
      | succ position =>
          cases later with
          | zero => exact absurd before (Nat.not_succ_le_zero position)
          | succ later =>
              rw [place, place]
              exact Nat.add_le_add_left (ih (Nat.le_of_succ_le_succ before)) _

/-- A place is the end of the blocks before it. -/
theorem place_take (items : List Item) (position : Nat) :
    place (items.take position) (items.take position).length = place items position := by
  induction items generalizing position with
  | nil => rw [List.take_nil, List.length_nil, place_zero, place]
  | cons first rest ih =>
      cases position with
      | zero => rw [List.take_zero, List.length_nil, place_zero, place_zero]
      | succ position => rw [List.take_succ_cons, List.length_cons, place, place, ih]

/-- The blocks of items have the instructions before the end. -/
theorem instructionCount_blocks (annotate : Bool) (number : Nat) (items : List Item) :
    instructionCount ((blocks number items).flatMap (Block.lines annotate)) =
      place items items.length := by
  induction items generalizing number with
  | nil => rfl
  | cons item rest ih =>
      have remarks : instructionCount (Block.lines annotate (.ofItem number item)) =
          itemSize item := by
        rw [Block.lines, instructionCount_append]
        change _ + instructionCount (Code.ofItem number item).named = _
        rw [Code.named, Asm.instructionCount_map, Code.size_ofItem]
        cases annotate <;> simp [instructionCount, Line.isInstruction]
      rw [blocks, List.flatMap_cons, instructionCount_append, remarks, ih, List.length_cons, place]

/-- An assembled program ends behind the block of its last item. -/
theorem size_of_assembled {items : List Item} {annotate : Bool} {program : Asm.Program}
    (sound : ∀ item ∈ items, item.Sound)
    (assembled : Asm.Program.assemble (itemsText annotate items) = .ok program) :
    program.rom.size = place items items.length := by
  have places := (Asm.Program.assemble_render (clean_of_mem_blocks sound annotate 0) assembled).2
  rw [places.size_eq, instructionCount_blocks]

/-- The blocks of items are numbered on by the labels of the items before them. -/
theorem getElem?_blocks (number : Nat) (items : List Item) (position : Nat) :
    (blocks number items)[position]? =
      items[position]?.map (.ofItem (number + labelTotal (items.take position))) := by
  induction items generalizing number position with
  | nil => rfl
  | cons first rest ih =>
      cases position with
      | zero => rfl
      | succ position =>
          rw [blocks, List.getElem?_cons_succ, List.getElem?_cons_succ, ih, List.take_succ_cons,
            labelTotal_cons, Nat.add_assoc]

/-- The lines of the block at a position, with the lines before it up to its place. -/
theorem exists_cut (annotate : Bool) (number : Nat) {items : List Item} {position : Nat}
    {item : Item} (here : items[position]? = some item) :
    ∃ before after, (blocks number items).flatMap (Block.lines annotate) =
        before ++ ((Code.ofItem (number + labelTotal (items.take position)) item).named ++ after) ∧
      instructionCount before = place items position := by
  obtain ⟨inside, same⟩ := List.getElem?_eq_some_iff.1 here
  have split : items = items.take position ++ item :: items.drop (position + 1) := by
    rw [← same, List.getElem_cons_drop, List.take_append_drop]
  refine ⟨(blocks number (items.take position)).flatMap (Block.lines annotate) ++
      if annotate then [.remark item.text] else [],
    (blocks (number + labelTotal (items.take position) + labelCount item)
      (items.drop (position + 1))).flatMap (Block.lines annotate), ?_, ?_⟩
  · conv_lhs => rw [split]
    rw [blocks_append, blocks, List.flatMap_append, List.flatMap_cons, Block.lines,
      List.append_assoc, List.append_assoc]
    rfl
  · rw [instructionCount_append, instructionCount_blocks, place_take]
    cases annotate <;> simp [instructionCount, Line.isInstruction]

/-- Where a symbol is loaded, its value in the program is found. -/
theorem getElem?_load {items : List Item} {annotate : Bool} {labels : Asm.Labels}
    {rom : Array Instruction} {names : List String}
    (places : Asm.Places labels ((blocks 0 items).flatMap (Block.lines annotate)) [] #[] rom names)
    {position : Nat} {block : Block} {symbol : Symbol} {first rest : Code}
    (here : (blocks 0 items)[position]? = some block)
    (split : block.code = first ++ .load symbol :: rest) :
    rom[place items position + instructionCount first]? =
      some (.load ((nameValue? labels names symbol.text).getD 0).toInt16) := by
  rw [getElem?_blocks] at here
  obtain ⟨item, there, rfl⟩ := Option.map_eq_some_iff.1 here
  obtain ⟨before, after, cut, count⟩ := exists_cut annotate 0 there
  have code : Code.ofItem (0 + labelTotal (items.take position)) item =
      first ++ .load symbol :: rest := split
  have lines : (blocks 0 items).flatMap (Block.lines annotate) =
      (before ++ first.named) ++ .load symbol.text :: (Code.named rest ++ after) := by
    rw [cut, code, Code.named, List.map_append, List.append_assoc, List.append_assoc]
    rfl
  have length : instructionCount (before ++ first.named) =
      place items position + instructionCount first := by
    rw [instructionCount_append, Code.named, Asm.instructionCount_map, count]
  rw [lines] at places
  rw [← length]
  exact places.getElem?_eq rfl

/-! ## Code in a program -/

/-- What the symbols and the numbers of code stand for in a program. -/
structure Linking where
  word : Symbol → Word
  number : Nat → Word

namespace Linking

/-- The instruction that a line becomes. -/
def instruction? (linking : Linking) : Line Symbol → Option Instruction
  | .number value => some (.load (linking.number value))
  | .load symbol => some (.load (linking.word symbol))
  | .compute instruction => some (.compute instruction)
  | .declare _ | .remark _ => none

/-- Code stands at a place: its instructions are found there and its labels stand for them. -/
def Stands (linking : Linking) (rom : Array Instruction) : Nat → Code → Prop
  | _, [] => True
  | place, line :: rest =>
      (∀ symbol ∈ line.declared?, linking.word symbol = .ofNat place) ∧
        (∀ instruction ∈ linking.instruction? line, rom[place]? = some instruction) ∧
          Stands linking rom (place + instructionCount [line]) rest

variable {linking : Linking} {rom : Array Instruction}

/-- Code stands where its parts stand one after the other. -/
theorem stands_append {place : Nat} {first second : Code} :
    linking.Stands rom place (first ++ second) ↔
      linking.Stands rom place first ∧
        linking.Stands rom (place + instructionCount first) second := by
  induction first generalizing place with
  | nil => simp [Stands, instructionCount]
  | cons line rest ih =>
      rw [List.cons_append, Stands, Stands, ih, instructionCount_cons line rest, ← Nat.add_assoc]
      simp only [and_assoc]

/-- The rest of code stands after the instructions of its first lines. -/
theorem stands_drop {place : Nat} {code : Code} (count : Nat)
    (stands : linking.Stands rom place code) :
    linking.Stands rom (place + instructionCount (code.take count)) (code.drop count) := by
  rw [← List.take_append_drop count code, stands_append] at stands
  exact stands.2

end Linking

def linkingOf (program : Asm.Program) : Linking where
  word symbol := ((nameValue? program.labels program.variableNames symbol.text).getD 0).toInt16
  number value :=
    if value < UInt16.size then .ofNat value
    else ((nameValue? program.labels program.variableNames (toString value)).getD 0).toInt16

theorem linkingOf_instruction? (program : Asm.Program) (line : Line Symbol) :
    ((line.map Symbol.text).statement?.map
        (Asm.Statement.settle program.labels program.variableNames)) =
      (linkingOf program).instruction? line := by
  cases line with
  | number value =>
      simp only [Line.map, Line.statement?, Linking.instruction?, linkingOf]
      split <;> rfl
  | load | compute | declare | remark => rfl

/--
Code whose labels are not predefined stands after the instructions of the lines
before it, if its own instructions are placed there.
-/
theorem stands_of_placed {program : Asm.Program} {code : Code} {before after : List (Line String)}
    (collects : Asm.Collects (before ++ (code.named ++ after)) 0 [] program.labels)
    (placed : ∀ first line rest statement, code.named = first ++ line :: rest →
      line.statement? = some statement → program.rom[instructionCount (before ++ first)]? =
        some (statement.settle program.labels program.variableNames))
    (fresh : ∀ symbol ∈ code.declared, Asm.predefined? symbol.text = none) :
    (linkingOf program).Stands program.rom (instructionCount before) code := by
  induction code generalizing before with
  | nil => trivial
  | cons line rest ih =>
      have shift : before ++ (Code.named (line :: rest) ++ after) =
          (before ++ [line.map Symbol.text]) ++ (Code.named rest ++ after) := by
        simp [Code.named]
      have count : instructionCount (before ++ [line.map Symbol.text]) =
          instructionCount before + instructionCount [line] := by
        rw [instructionCount_append]
        simp [instructionCount, List.countP_singleton]
      refine ⟨?_, ?_, ?_⟩
      · intro symbol declared
        cases line with
        | declare named =>
            cases declared
            have free := fresh symbol (by simp [Code.declared, Line.declared?])
            have label := collects.placed before symbol.text (Code.named rest ++ after)
              (by simp [Code.named, Line.map])
            simp [linkingOf, nameValue?, free, label]
        | _ => cases declared
      · intro instruction becomes
        rw [Option.mem_def, ← linkingOf_instruction?] at becomes
        obtain ⟨statement, reads, rfl⟩ := Option.map_eq_some_iff.1 becomes
        have here := placed [] _ (Code.named rest) statement rfl reads
        rwa [List.append_nil] at here
      · rw [← count]
        rw [shift] at collects
        refine ih collects ?_ fun symbol member => fresh symbol ?_
        · intro first other others statement split reads
          rw [List.append_assoc]
          refine placed (line.map Symbol.text :: first) other others statement ?_ reads
          rw [List.cons_append, ← split]
          rfl
        · rw [Code.declared, List.filterMap_cons]
          split
          · exact member
          · exact List.mem_cons_of_mem _ member

/-- Code whose labels are not predefined stands after the instructions of the lines before it. -/
theorem stands_of_assembled {program : Asm.Program} {code : Code}
    {before after : List (Line String)}
    (collects : Asm.Collects (before ++ (code.named ++ after)) 0 [] program.labels)
    (places : Asm.Places program.labels (before ++ (code.named ++ after)) [] #[] program.rom
      program.variableNames)
    (fresh : ∀ symbol ∈ code.declared, Asm.predefined? symbol.text = none) :
    (linkingOf program).Stands program.rom (instructionCount before) code := by
  refine stands_of_placed collects (fun first line rest statement split reads => ?_) fresh
  have cut : before ++ (code.named ++ after) = (before ++ first) ++ line :: (rest ++ after) := by
    rw [split]
    simp
  rw [cut] at places
  exact places.getElem?_eq reads

end HackToolchain.Codegen
