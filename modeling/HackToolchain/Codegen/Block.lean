import HackToolchain.Codegen.Code
import HackToolchain.Vm.Item

/-!
# Blocks

Every item of a program becomes a block: its code, and a remark that shows the
item.  Items whose code has labels of its own take the next number for them, so
no two blocks of a program share a label.
-/

namespace HackToolchain.Codegen

open HackToolchain.Vm

/-- The code of an item; the number is that of its own labels. -/
def Code.ofItem (number : Nat) : Item → Code
  | .start entry => bootstrap number entry
  | .command unit command => ofCommand unit number command

/-- How many numbers for labels the code of an item uses. -/
def labelCount : Item → Nat
  | .start _ | .command _ (.operate (.compare _)) | .command _ (.call _ _) => 1
  | _ => 0

/-- A block of code and the remark that shows what it is the code of. -/
structure Block where
  remark : String
  code : Code
  deriving DecidableEq, Repr

namespace Block

def ofItem (number : Nat) (item : Item) : Block :=
  ⟨item.text, .ofItem number item⟩

/-- The lines of a block, after its remark if remarks are on. -/
def lines (annotate : Bool) (block : Block) : List (Asm.Line String) :=
  (if annotate then [.remark block.remark] else []) ++ block.code.named

def text (annotate : Bool) (block : Block) : String :=
  Asm.render (block.lines annotate)

end Block

/-- The blocks of items in order, with label numbers from a number on. -/
def blocks : Nat → List Item → List Block
  | _, [] => []
  | number, item :: rest => .ofItem number item :: blocks (number + labelCount item) rest

/-- The numbers that the code of items uses. -/
def labelTotal (items : List Item) : Nat :=
  items.foldl (fun total item => total + labelCount item) 0

theorem labelTotal_cons (item : Item) (rest : List Item) :
    labelTotal (item :: rest) = labelCount item + labelTotal rest := by
  have after (start : Nat) (items : List Item) :
      items.foldl (fun total item => total + labelCount item) start = start + labelTotal items := by
    induction items generalizing start with
    | nil => rfl
    | cons first others ih =>
        rw [labelTotal, List.foldl_cons, List.foldl_cons, ih, ih (0 + labelCount first)]
        omega
  rw [labelTotal, List.foldl_cons, after]
  omega

theorem labelTotal_append (earlier later : List Item) :
    labelTotal (earlier ++ later) = labelTotal earlier + labelTotal later := by
  induction earlier with
  | nil => exact (Nat.zero_add _).symm
  | cons item rest ih =>
      rw [List.cons_append, labelTotal_cons, labelTotal_cons, ih, Nat.add_assoc]

theorem blocks_append (number : Nat) (earlier later : List Item) :
    blocks number (earlier ++ later) =
      blocks number earlier ++ blocks (number + labelTotal earlier) later := by
  induction earlier generalizing number with
  | nil => rfl
  | cons item rest ih =>
      rw [List.cons_append, blocks, ih, blocks, List.cons_append, labelTotal_cons, Nat.add_assoc]

end HackToolchain.Codegen
