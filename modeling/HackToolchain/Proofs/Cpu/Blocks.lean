import HackToolchain.Proofs.Cpu.Comparison

/-!
# Blocks do what items mean

From the place of an item the machine runs through the item's block and comes
to the place of the item that is next on the stack machine, with the same
memory.  The scratch words that a block keeps are put into memory beforehand,
so that the equality is exact; blocks without instructions do nothing.
-/

namespace HackToolchain.Cpu

open HackToolchain.Asm (Instruction Line Register instructionCount)
open HackToolchain.Codegen (Code Linking Symbol itemSize place)
open HackToolchain.Vm

/-- The layout of a program in which the code of items is linked. -/
def layoutOf (linking : Linking) (items : List Item) : Layout where
  staticCell unit index := linking.word (.static unit index)
  placeWord position := .ofNat (place items position)

/-- A program in which the code of items stands, block after block. -/
structure Linked (items : List Item) (rom : Array Instruction) (linking : Linking) : Prop
    extends Grounded linking where
  /-- Every block stands at its place. -/
  stands : ∀ position item, items[position]? = some item →
    ∃ number, linking.Stands rom (place items position) (Code.ofItem number item)
  /-- There is nothing behind the last block. -/
  size : rom.size = place items items.length
  /-- Every place is an address. -/
  small : rom.size ≤ memorySize
  /-- The indices of the commands lie inside their segments. -/
  sound : ∀ item ∈ items, item.Sound

/-- The register that holds the base of a movable segment. -/
def baseRegister? : Segment → Option Register
  | .locals => some .lcl
  | .arguments => some .arg
  | .this => some .this
  | .that => some .that
  | _ => none

/-- Memory with the words that the block of an item keeps in scratch cells. -/
def stash (item : Item) (memory : Memory) : Memory :=
  match item with
  | .command _ (.pop segment index) =>
      match baseRegister? segment with
      | some base => memory.write stashCell (memory.register base + index.toInt16)
      | none => memory
  | .command _ (.operate (.compare comparison)) => comparing memory comparison
  | .command _ .ret => leaving memory
  | _ => memory

/-- Scratch words are no difference to the stack machine's own cells. -/
theorem agrees_stash (item : Item) (memory : Memory) : Memory.Agrees memory (stash item memory) := by
  unfold stash
  split
  next =>
    split
    · exact memory.agrees_write_scratch (by decide) _
    · exact .refl memory
  next comparison =>
    cases comparison with
    | eq => exact .refl memory
    | gt | lt => exact memory.agrees_write_scratch (by decide) _
  next => exact agrees_leaving memory
  next => exact .refl memory

/--
When a block does what its item means: a call passes a number of arguments
that a load can hold, and a return does not store its answer over the words it
has put aside.
-/
def Fits (item : Item) (memory : Memory) : Prop :=
  match item with
  | .command _ (.call _ arguments) => 5 + arguments.toNat < UInt16.size
  | .command _ .ret =>
      cellOf (memory.register .arg) ≠ cellOf frameCell ∧
        cellOf (memory.register .arg) ≠ cellOf returnCell
  | _ => True

section blocks

variable {items : List Item} {rom : Array Instruction} {linking : Linking}

namespace Linked

variable (linked : Linked items rom linking)
include linked

theorem place_le (position : Nat) : place items position ≤ memorySize := by
  have most : place items position ≤ place items items.length := by
    rcases Nat.le_total position items.length with inside | beyond
    · exact Codegen.place_mono items inside
    · rw [← Codegen.place_take items position, List.take_of_length_le beyond]
  have small := linked.small
  rw [linked.size] at small
  exact most.trans small

theorem place_lt (position : Nat) : place items position < UInt16.size :=
  Nat.lt_of_le_of_lt (linked.place_le position) (by decide)

/-- The symbol of a declared name stands for the place of every declaration of it. -/
theorem word_declared {name : String} {position : Nat} {item : Item}
    (here : items[position]? = some item) (declares : item.declared? = some name) :
    linking.word (.given name) = .ofNat (place items position) := by
  obtain ⟨number, stands⟩ := linked.stands position item here
  cases item with
  | start entry => cases declares
  | command unit command =>
      cases command with
      | label other =>
          cases declares
          exact stands.1 _ rfl
      | function other locals =>
          cases declares
          exact stands.1 _ rfl
      | _ => cases declares

theorem word_given {name : String} {position : Nat}
    (declares : declaration? items name = some position) :
    linking.word (.given name) = .ofNat (place items position) := by
  obtain ⟨inside, same, -⟩ := List.findIdx?_eq_some_iff_getElem.1 declares
  exact linked.word_declared (List.getElem?_eq_getElem inside) (by simpa using same)

omit linked in
/-- A word that a return finds a position for is the word of that position's place. -/
theorem word_position {word : Word} {position : Nat}
    (found : position? (layoutOf linking items) items word = some position) :
    word = .ofNat (place items position) := by
  have same := List.find?_some found
  exact (by simpa using same : (layoutOf linking items).placeWord position = word).symm

end Linked

/-- Code without jumps takes memory from its place to its end. -/
theorem travels_code {code : Code} {start : Nat} {memory result : Memory}
    (stands : linking.Stands rom start code) (straight : code.all isStraight) (nonempty : code ≠ [])
    (effect : ∀ machine : Machine, machine.memory = memory →
      (afterAll linking code machine).memory = result) (a d : Word) :
    ∃ a' d', Travels rom start (start + instructionCount code) ⟨memory, start, a, d⟩
      ⟨result, start + instructionCount code, a', d'⟩ := by
  have count := length_eq_instructionCount straight
  have travels := travels_straight code ⟨memory, start, a, d⟩ stands straight nonempty
    (Nat.le_refl start) (Nat.le_of_eq (congrArg (start + ·) count))
  have pc : (afterAll linking code ⟨memory, start, a, d⟩).pc = start + code.length :=
    pc_afterAll linking straight ⟨memory, start, a, d⟩
  rw [← effect ⟨memory, start, a, d⟩ rfl, ← count, ← pc]
  rw [← count, ← pc] at travels
  exact ⟨_, _, travels⟩

/-! ## Segments -/

namespace Linked

variable (linked : Linked items rom linking)
include linked

theorem word_tempCell {index : UInt16} (allowed : Segment.temp.Allows index) :
    linking.word (Code.tempCell index) = 5 + index.toInt16 := by
  rw [Code.tempCell, linked.cell _ (Codegen.temp_lt allowed), ofNat_toNat_index,
    UInt16.toInt16_add]
  rfl

theorem word_pointerCell {index : UInt16} (allowed : Segment.pointer.Allows index) :
    linking.word (Code.pointerCell index) = 3 + index.toInt16 := by
  have most : index.toNat ≤ 1 := UInt16.le_iff_toNat_le.1 (allowed 1 rfl)
  have either : index = 0 ∨ index = 1 := by
    have cases : index.toNat = 0 ∨ index.toNat = 1 := by omega
    exact cases.imp (fun zero => UInt16.toNat_inj.1 zero) fun one => UInt16.toNat_inj.1 one
  rcases either with rfl | rfl
  · exact linked.register .this
  · exact linked.register .that

theorem memory_push (unit : String) {segment : Segment} {index : UInt16}
    (allowed : segment.Allows index) (machine : Machine) :
    (afterAll linking (Code.push unit segment index) machine).memory =
      segment.push (layoutOf linking items) unit machine.memory index := by
  cases segment with
  | constant => exact linked.memory_pushNumber machine index
  | statics => exact linked.memory_pushCell machine _
  | locals => exact linked.memory_pushBased machine .lcl index
  | arguments => exact linked.memory_pushBased machine .arg index
  | this => exact linked.memory_pushBased machine .this index
  | that => exact linked.memory_pushBased machine .that index
  | temp =>
      rw [Segment.push, Segment.address?, ← linked.word_tempCell allowed]
      exact linked.memory_pushCell machine _
  | pointer =>
      rw [Segment.push, Segment.address?, ← linked.word_pointerCell allowed]
      exact linked.memory_pushCell machine _

/-- The code of a pop pops into the segment, after its destination was put aside. -/
theorem memory_pop (unit : String) {segment : Segment} {index : UInt16}
    (allowed : segment.Allows index) (cells : segment ≠ .constant) (machine : Machine) :
    (afterAll linking (Code.pop unit segment index) machine).memory =
      segment.pop (layoutOf linking items) unit
        (stash (.command unit (.pop segment index)) machine.memory) index := by
  have based (base : Register) :
      (afterAll linking (Code.popBased base index.toNat) machine).memory =
        let address := machine.memory.register base + index.toInt16
        let stashed := machine.memory.write stashCell address
        stashed.drop.write (stashed.register base + index.toInt16) stashed.popped := by
    rw [linked.memory_popBased]
    simp only [Memory.register_write_scratch _ (show IsScratch stashCell by decide)]
  cases segment with
  | constant => exact absurd rfl cells
  | statics => exact linked.memory_popCell machine _
  | locals => exact based .lcl
  | arguments => exact based .arg
  | this => exact based .this
  | that => exact based .that
  | temp =>
      rw [Segment.pop, Segment.address?, ← linked.word_tempCell allowed]
      exact linked.memory_popCell machine _
  | pointer =>
      rw [Segment.pop, Segment.address?, ← linked.word_pointerCell allowed]
      exact linked.memory_popCell machine _

end Linked

/-! ## Runs through blocks -/

/-- From the place of a position the machine runs through the block there to a state's place. -/
def Runs (items : List Item) (rom : Array Instruction) (position : Nat) (memory : Memory)
    (next : State) : Prop :=
  ∀ a d, ∃ a' d', Travels rom (place items position) (place items (position + 1))
    ⟨memory, place items position, a, d⟩ ⟨next.memory, place items next.position, a', d'⟩

namespace Linked

variable (linked : Linked items rom linking) {position : Nat} {item : Item} {memory : Memory}
include linked

theorem exists_stands (here : items[position]? = some item) :
    ∃ number, linking.Stands rom (place items position) (Code.ofItem number item) ∧
      place items (position + 1) =
        place items position + instructionCount (Code.ofItem number item) := by
  obtain ⟨number, stands⟩ := linked.stands position item here
  exact ⟨number, stands, by rw [Codegen.place_succ here, Code.size_ofItem]⟩

/-- A block without jumps goes on with the next block. -/
theorem runs_straight (here : items[position]? = some item) {result : Memory}
    (straight : ∀ number, (Code.ofItem number item).all isStraight)
    (nonempty : ∀ number, Code.ofItem number item ≠ [])
    (effect : ∀ number machine, machine.memory = memory →
      (afterAll linking (Code.ofItem number item) machine).memory = result) :
    Runs items rom position memory ⟨position + 1, result⟩ := by
  obtain ⟨number, stands, next⟩ := linked.exists_stands here
  intro a d
  rw [next]
  exact travels_code stands (straight number) (nonempty number) (effect number) a d

theorem runs_goto {unit name : String} (here : items[position]? = some (.command unit (.goto name)))
    {target : Nat} (declares : declaration? items name = some target) :
    Runs items rom position memory ⟨target, memory⟩ := by
  obtain ⟨number, stands, next⟩ := linked.exists_stands here
  intro a d
  have loaded := linked.word_given declares
  have room : place items position + 1 < place items (position + 1) := by
    rw [next]
    exact Nat.lt_succ_self _
  exact ⟨_, _, travels_jump [.load (.given name)] ⟨memory, place items position, a, d⟩
    ⟨memory, place items position + 1, linking.word (.given name), d⟩ (place items target) stands
    rfl (by simp) (Nat.le_refl _) room rfl loaded (linked.place_lt target)⟩

/-- A conditional goto pops a word and goes on at the declaration unless the word is zero. -/
theorem runs_ifGoto {unit name : String}
    (here : items[position]? = some (.command unit (.ifGoto name))) {next : State}
    (moves : State.command? (layoutOf linking items) items unit ⟨position, memory⟩ (.ifGoto name) =
      some next) :
    Runs items rom position memory next := by
  obtain ⟨number, stands, follows⟩ := linked.exists_stands here
  intro a d
  have size : place items (position + 1) = place items position + 5 := follows
  have effect : afterAll linking (Code.popD ++ [.load (.given name)])
      ⟨memory, place items position, a, d⟩ =
      ⟨memory.drop, place items position + 4, linking.word (.given name), memory.popped⟩ := by
    simp only [afterAll, Code.popD, Code.setAM, Code.setD, Code.reg, List.foldl_append,
      List.foldl_cons, List.foldl_nil, after, Linking.instruction?, linked.register]
    rfl
  -- An undeclared name is a variable, whose cell is not jumped to.
  have travels := travels_branch (Code.popD ++ [.load (.given name)])
    ⟨memory, place items position, a, d⟩
    ⟨memory.drop, place items position + 4, linking.word (.given name), memory.popped⟩
    (linking.word (.given name)).toUInt16.toNat stands rfl (by simp) (Nat.le_refl _)
    (show place items position + 4 < place items (position + 1) by omega) effect
    (ofNat_toNat_word _).symm (UInt16.toNat_lt_size _)
  refine ⟨linking.word (.given name), memory.popped, ?_⟩
  rw [State.command?] at moves
  by_cases zero : memory.popped = 0
  · have stays : isTaken .ne memory.popped = false := by simp [isTaken, zero]
    rw [stays, size] at travels
    rw [if_pos zero] at moves
    cases moves
    rw [State.next, size]
    exact travels
  · have taken : isTaken .ne memory.popped = true := by simp [isTaken, zero]
    rw [if_neg zero] at moves
    obtain ⟨target, declares, rfl⟩ := Option.map_eq_some_iff.1 moves
    rw [taken, linked.word_given declares, toNat_ofNat_word (linked.place_lt target)] at travels
    rw [linked.word_given declares]
    exact travels

/-- A call of a declared function goes on there, with ARG as far below as the loaded number. -/
theorem runs_call {unit name : String} {arguments : UInt16}
    (here : items[position]? = some (.command unit (.call name arguments))) {target : Nat}
    (declares : declaration? items name = some target) :
    Runs items rom position memory
      ⟨target, enterAt memory (.ofNat (place items (position + 1)))
        (linking.number (5 + arguments.toNat))⟩ := by
  obtain ⟨number, stands, next⟩ := linked.exists_stands here
  intro a d
  have loaded := linked.word_given declares
  have back : linking.word (.returnPoint name number) = .ofNat (place items (position + 1)) := by
    rw [next]
    exact (Linking.stands_drop 42 stands).1 _ rfl
  have effect := linked.memory_callSetup ⟨memory, place items position, a, d⟩ number name arguments
  have room : place items position + (callSetup number name arguments).length <
      place items (position + 1) := by
    rw [next]
    exact Nat.lt_succ_self _
  have travels := travels_jump (callSetup number name arguments)
    ⟨memory, place items position, a, d⟩ _ (place items target) stands rfl (by simp [callSetup])
    (Nat.le_refl _) room rfl (effect.2.trans loaded) (linked.place_lt target)
  rw [effect.1, back] at travels
  exact ⟨_, _, travels⟩

/-- The start of a program sets SP and calls the entry function. -/
theorem runs_start {entry : String} (here : items[position]? = some (.start entry)) {target : Nat}
    (declares : declaration? items entry = some target) :
    Runs items rom position memory
      ⟨target, enter (memory.setRegister .sp 256) (.ofNat (place items (position + 1))) 0⟩ := by
  obtain ⟨number, stands, next⟩ := linked.exists_stands here
  intro a d
  have loaded := linked.word_given declares
  have back : linking.word (.returnPoint entry number) = .ofNat (place items (position + 1)) := by
    rw [next]
    exact (Linking.stands_drop 46 stands).1 _ rfl
  have based : (afterAll linking
      [.number Code.stackBase, Code.setD (.x .address), Code.reg .sp, Code.setM .d]
      ⟨memory, place items position, a, d⟩).memory = memory.setRegister .sp 256 := by
    simp only [afterAll, Code.setD, Code.setM, Code.reg, List.foldl_cons, List.foldl_nil, after,
      Linking.instruction?, linked.register, linked.number Code.stackBase (by decide)]
    rfl
  have effect := linked.memory_callSetup
    (afterAll linking [.number Code.stackBase, Code.setD (.x .address), Code.reg .sp, Code.setM .d]
      ⟨memory, place items position, a, d⟩) number entry 0
  rw [← afterAll_append, based, back, linked.number _ (by decide)] at effect
  have room : place items position +
      ([.number Code.stackBase, Code.setD (.x .address), Code.reg .sp, Code.setM .d] ++
        callSetup number entry 0).length < place items (position + 1) := by
    rw [next]
    exact Nat.lt_succ_self _
  have travels := travels_jump
    ([.number Code.stackBase, Code.setD (.x .address), Code.reg .sp, Code.setM .d] ++
      callSetup number entry 0)
    ⟨memory, place items position, a, d⟩ _ (place items target) stands rfl (by simp)
    (Nat.le_refl _) room rfl (effect.2.trans loaded) (linked.place_lt target)
  rw [effect.1] at travels
  exact ⟨_, _, travels⟩

/-- A return goes on at the position whose place was saved. -/
theorem runs_ret {unit : String} (here : items[position]? = some (.command unit .ret))
    (apart : cellOf (memory.register .arg) ≠ cellOf frameCell)
    (apart' : cellOf (memory.register .arg) ≠ cellOf returnCell) {target : Nat}
    (found : position? (layoutOf linking items) items (backWord (leaving memory)) = some target) :
    Runs items rom position memory ⟨target, leave (leaving memory)⟩ := by
  obtain ⟨number, stands, next⟩ := linked.exists_stands here
  intro a d
  have effect := linked.memory_returnSetup ⟨memory, place items position, a, d⟩ apart apart'
  have room : place items position + returnSetup.length < place items (position + 1) := by
    rw [next]
    exact Nat.lt_succ_self _
  have travels := travels_jump returnSetup ⟨memory, place items position, a, d⟩ _
    (place items target) stands rfl (by simp [returnSetup]) (Nat.le_refl _) room rfl
    (effect.2.trans (word_position found)) (linked.place_lt target)
  rw [effect.1] at travels
  exact ⟨_, _, travels⟩

theorem runs_function {unit name : String} {locals : UInt16}
    (here : items[position]? = some (.command unit (.function name locals)))
    (nonempty : locals ≠ 0) :
    Runs items rom position memory ⟨position + 1, clearLocals memory locals.toNat⟩ := by
  obtain ⟨number, stands, next⟩ := linked.exists_stands here
  intro a d
  have size : place items (position + 1) = place items position +
      instructionCount (List.replicate locals.toNat (Code.pushNumber 0)).flatten := next
  have straight (count : Nat) :
      (List.replicate count (Code.pushNumber 0)).flatten.all isStraight := by
    rw [List.all_flatten, List.all_eq_true]
    intro code member
    rw [List.eq_of_mem_replicate member]
    rfl
  have positive : locals.toNat ≠ 0 := fun zero => nonempty (UInt16.toNat_inj.1 zero)
  have filled : (List.replicate locals.toNat (Code.pushNumber 0)).flatten ≠ [] := by
    obtain ⟨count, same⟩ := Nat.exists_eq_succ_of_ne_zero positive
    rw [same, List.replicate_succ, List.flatten_cons]
    simp [Code.pushNumber]
  rw [size]
  refine travels_code stands.2.2 (straight _) filled (fun machine same => ?_) a d
  rw [linked.memory_zeros, same]

/-- The machine runs through the block of an item as the stack machine steps over the item. -/
theorem runs_block (here : items[position]? = some item) (filled : itemSize item ≠ 0)
    (fits : Fits item memory) {next : State}
    (moves : State.step? (layoutOf linking items) items ⟨position, stash item memory⟩ = some next) :
    Runs items rom position memory next := by
  rw [State.step?, here] at moves
  have sound := linked.sound item (List.mem_of_getElem? here)
  cases item with
  | start entry =>
      obtain ⟨target, declares, rfl⟩ := Option.map_eq_some_iff.1 moves
      exact linked.runs_start here declares
  | command unit command =>
      cases command with
      | push segment index =>
          cases moves
          refine linked.runs_straight here (fun _ => ?_) (fun _ => ?_) fun _ machine same => ?_
          · cases segment <;> rfl
          · cases segment <;> simp [Code.ofItem, Code.ofCommand, Code.push, Code.pushNumber,
              Code.pushBased, Code.pushCell]
          · rw [← same]
            exact linked.memory_push unit sound.2 machine
      | pop segment index =>
          cases moves
          refine linked.runs_straight here (fun _ => ?_) (fun _ => ?_) fun _ machine same => ?_
          · cases segment <;> rfl
          · cases segment <;> simp [Code.ofItem, Code.ofCommand, Code.pop, Code.popBased,
              Code.popCell]
          · rw [← same]
            exact linked.memory_pop unit sound.2.1 sound.2.2 machine
      | operate operator =>
          cases moves
          cases operator with
          | unary operator =>
              refine linked.runs_straight here (fun _ => rfl) (fun _ => by
                simp [Code.ofItem, Code.ofCommand, Code.operate, Code.replaceTop]) ?_
              rintro number machine rfl
              exact linked.memory_replaceTop machine operator
          | binary operator =>
              refine linked.runs_straight here (fun _ => rfl) (fun _ => by
                simp [Code.ofItem, Code.ofCommand, Code.operate, Code.combineTop]) ?_
              rintro number machine rfl
              exact linked.memory_combineTop machine operator
          | compare comparison =>
              obtain ⟨number, stands, ends⟩ := linked.exists_stands here
              intro a d
              exact travels_compare linked.toGrounded ⟨memory, place items position, a, d⟩ stands
                ends (linked.place_le (position + 1))
      | label name => exact absurd rfl filled
      | goto name =>
          obtain ⟨target, declares, rfl⟩ := Option.map_eq_some_iff.1 moves
          exact linked.runs_goto here declares
      | ifGoto name => exact linked.runs_ifGoto here moves
      | function name locals =>
          cases moves
          refine linked.runs_function here fun zero => filled ?_
          rw [zero]
          rfl
      | call name arguments =>
          obtain ⟨target, declares, rfl⟩ := Option.map_eq_some_iff.1 moves
          have runs := @runs_call _ _ _ linked _ memory _ _ _ here _ declares
          -- A load holds the distance, so it is no name of a variable.
          have distance : linking.number (5 + arguments.toNat) = 5 + arguments.toInt16 := by
            rw [linked.number _ fits, Int16.ofNat_add, ofNat_toNat_index]
            rfl
          rw [distance] at runs
          exact runs
      | ret =>
          obtain ⟨target, found, rfl⟩ := Option.map_eq_some_iff.1 moves
          exact linked.runs_ret here fits.1 fits.2 found

omit linked in
/-- The block of a function with locals has instructions. -/
theorem size_function_ne_zero (unit name : String) {locals : UInt16} (filled : locals ≠ 0) :
    itemSize (.command unit (.function name locals)) ≠ 0 := by
  intro empty
  have positive : locals.toNat ≠ 0 := fun zero => filled (UInt16.toNat_inj.1 zero)
  obtain ⟨count, same⟩ := Nat.exists_eq_succ_of_ne_zero positive
  have code : itemSize (.command unit (.function name locals)) =
      instructionCount (List.replicate locals.toNat (Code.pushNumber 0)).flatten := rfl
  rw [code, same, List.replicate_succ, List.flatten_cons, Asm.instructionCount_append] at empty
  exact absurd (Nat.add_eq_zero_iff.1 empty).1 (by decide)

omit linked in
/-- Items without instructions change nothing but the position. -/
theorem step?_of_empty (layout : Layout) (here : items[position]? = some item)
    (empty : itemSize item = 0) :
    stash item memory = memory ∧
      State.step? layout items ⟨position, memory⟩ = some ⟨position + 1, memory⟩ := by
  rw [State.step?, here]
  cases item with
  | start entry => cases empty
  | command unit command =>
      cases command with
      | label name => exact ⟨rfl, rfl⟩
      | function name locals =>
          by_cases none : locals = 0
          · subst none
            exact ⟨rfl, rfl⟩
          · exact absurd empty (size_function_ne_zero unit name none)
      | push segment index => cases segment <;> cases empty
      | pop segment index => cases segment <;> cases empty
      | operate operator => rcases operator with _ | _ | (_ | _ | _) <;> cases empty
      | goto | ifGoto | call | ret => cases empty

end Linked

end blocks

end HackToolchain.Cpu
