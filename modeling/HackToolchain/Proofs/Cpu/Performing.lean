import HackToolchain.Proofs.Cpu.Blocks

/-!
# Commands performed one after another

The machine performs an item when it runs from the item's place until it first
leaves the inside of the item's block.  What it is then is determined; and it is
what the stack machine says if the stack machine can take the step.
-/

namespace HackToolchain.Cpu

open HackToolchain.Asm (Instruction)
open HackToolchain.Codegen (Linking itemSize place)
open HackToolchain.Vm

/-- A place that is not strictly between two others. -/
def Outside (lower upper : Nat) (place : Nat) : Prop :=
  place ≤ lower ∨ upper ≤ place

/-- A run that ends at its first place outside the inside of a block ends there only. -/
theorem Travels.unique {rom : Array Instruction} {lower upper : Nat} {machine first second : Machine}
    (travels : Travels rom lower upper machine first) (ends : Outside lower upper first.pc)
    (travels' : Travels rom lower upper machine second) (ends' : Outside lower upper second.pc) :
    first = second := by
  induction travels with
  | step moves =>
      cases travels' with
      | step moves' => exact Option.some.inj (moves.symm.trans moves')
      | cons moves' above below rest =>
          cases Option.some.inj (moves.symm.trans moves')
          unfold Outside at ends
          omega
  | cons moves above below rest ih =>
      cases travels' with
      | step moves' =>
          cases Option.some.inj (moves.symm.trans moves')
          unfold Outside at ends'
          omega
      | cons moves' above' below' rest' =>
          cases Option.some.inj (moves.symm.trans moves')
          exact ih ends rest'

/-- The machine performs the item at a position. -/
structure Performs (items : List Item) (rom : Array Instruction) (position : Nat)
    (machine next : Machine) : Prop where
  /-- There are instructions to perform. -/
  filled : place items position < place items (position + 1)
  /-- The machine is at the place of the item. -/
  starts : machine.pc = place items position
  /-- It runs inside the block. -/
  travels : Travels rom (place items position) (place items (position + 1)) machine next
  /-- It has left the inside of the block. -/
  ends : Outside (place items position) (place items (position + 1)) next.pc

namespace Performs

variable {items : List Item} {rom : Array Instruction} {position : Nat}
  {machine first second : Machine}

theorem unique (performs : Performs items rom position machine first)
    (performs' : Performs items rom position machine second) : first = second :=
  performs.travels.unique performs.ends performs'.travels performs'.ends

end Performs

/-- Places are never strictly inside a block. -/
theorem outside_place (items : List Item) (position target : Nat) :
    Outside (place items position) (place items (position + 1)) (place items target) := by
  rcases Nat.lt_or_ge position target with behind | before
  · exact .inr (Codegen.place_mono items behind)
  · exact .inl (Codegen.place_mono items before)

/-- A block that is not empty ends behind its place. -/
theorem itemSize_ne_zero {items : List Item} {position : Nat} {item : Item}
    (here : items[position]? = some item) :
    itemSize item ≠ 0 ↔ place items position < place items (position + 1) := by
  rw [Codegen.place_succ here]
  omega

section linked

variable {items : List Item} {rom : Array Instruction} {linking : Linking}

/-- The machine performs an item as the stack machine steps over it. -/
theorem Linked.exists_performs (linked : Linked items rom linking) {position : Nat} {item : Item}
    {machine : Machine} (here : items[position]? = some item)
    (filled : place items position < place items (position + 1))
    (starts : machine.pc = place items position) (fits : Fits item machine.memory) {state : State}
    (moves : State.step? (layoutOf linking items) items ⟨position, stash item machine.memory⟩ =
      some state) :
    ∃ next, Performs items rom position machine next ∧ next.memory = state.memory ∧
      next.pc = place items state.position := by
  obtain ⟨memory, pc, a, d⟩ := machine
  cases starts
  obtain ⟨a', d', travels⟩ :=
    linked.runs_block here ((itemSize_ne_zero here).2 filled) fits moves a d
  exact ⟨_, ⟨filled, rfl, travels, outside_place items position _⟩, rfl, rfl⟩

end linked

end HackToolchain.Cpu
