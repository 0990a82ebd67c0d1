import HackToolchain.Proofs.Cpu.Loading
import HackToolchain.Proofs.Vm.Agreement

/-!
# Whole runs follow the stack machine

Every run of the stack machine on the items of a program is followed by the
machine on the assembled text: when the stack machine is at a position, the
machine is at the place of that position, and memory is the same but for the
scratch cells.  The stack machine must not use scratch cells, and calls must not
pass more arguments than a load can hold; such a call goes wrong.
-/

namespace HackToolchain.Vm

namespace State

def steps? (layout : Layout) (items : List Item) : Nat → State → Option State
  | 0, state => some state
  | count + 1, state => (state.step? layout items).bind (steps? layout items count)

/-- The item at the position of a state uses no scratch cells. -/
def Spares (layout : Layout) (items : List Item) (state : State) : Prop :=
  ∀ item ∈ items[state.position]?, ∀ address ∈ item.uses layout state.memory,
    ¬ IsScratch address

/-- The item at the position of a state is no call with more arguments than a load can hold. -/
def Holds (items : List Item) (state : State) : Prop :=
  ∀ item ∈ items[state.position]?, ∀ distance ∈ item.distance?, distance < UInt16.size

/-- All states before some number of steps spare the scratch cells and hold their calls. -/
def Careful (layout : Layout) (items : List Item) (count : Nat) (state : State) : Prop :=
  ∀ earlier < count, ∀ middle, state.steps? layout items earlier = some middle →
    middle.Spares layout items ∧ middle.Holds items

theorem Careful.tail {layout : Layout} {items : List Item} {count : Nat} {state next : State}
    (careful : Careful layout items (count + 1) state)
    (moves : state.step? layout items = some next) : Careful layout items count next := by
  intro earlier less middle reached
  refine careful (earlier + 1) (Nat.succ_lt_succ less) middle ?_
  rw [steps?, moves, Option.bind_some, reached]

theorem exists_item_of_step? {layout : Layout} {items : List Item} {state next : State}
    (moves : state.step? layout items = some next) : ∃ item, items[state.position]? = some item := by
  cases here : items[state.position]? with
  | none =>
      rw [step?, here] at moves
      cases moves
  | some item => exact ⟨item, rfl⟩

end State

end HackToolchain.Vm

namespace HackToolchain.Cpu

open HackToolchain.Asm (Instruction KeepsLine)
open HackToolchain.Codegen
open HackToolchain.Memory (Agrees)
open HackToolchain.Vm

section refinement

variable {items : List Item} {rom : Array Instruction} {linking : Linking}

/-- The machine is at the place of a state with the same memory but for scratch cells. -/
structure Follows (items : List Item) (machine : Machine) (state : State) : Prop where
  pc : machine.pc = place items state.position
  memory : Agrees state.memory machine.memory

/-- Where the item of a state spares scratch cells and holds its call, its block does what it means. -/
theorem fits_of_spares {layout : Layout} {state : State} {item : Item} {memory : Memory}
    (agrees : Agrees state.memory memory) (here : items[state.position]? = some item)
    (spares : state.Spares layout items) (holds : state.Holds items) : Fits item memory := by
  cases item with
  | start => trivial
  | command unit command =>
      cases command with
      | call name arguments => exact holds _ here _ rfl
      | ret =>
          have plain := spares _ here (state.memory.register .arg) (by simp [Item.uses])
          rw [agrees.register .arg] at plain
          exact ⟨(Memory.cellOf_ne_of_isScratch (show IsScratch frameCell by decide) plain).symm,
            (Memory.cellOf_ne_of_isScratch (show IsScratch returnCell by decide) plain).symm⟩
      | _ => trivial

/-- One step of the stack machine is followed; only an empty block takes no step. -/
theorem Linked.follows_step (linked : Linked items rom linking) {machine : Machine}
    {state next : State} (follows : Follows items machine state)
    (spares : state.Spares (layoutOf linking items) items) (holds : state.Holds items)
    (moves : state.step? (layoutOf linking items) items = some next) :
    ∃ count last, machine.steps? rom count = some last ∧ Follows items last next ∧
      (count = 0 → next.position = state.position + 1) := by
  obtain ⟨item, here⟩ := State.exists_item_of_step? moves
  obtain ⟨memory, pc, a, d⟩ := machine
  obtain ⟨rfl, agrees⟩ := follows
  have stashed := agrees.trans (agrees_stash item memory)
  obtain ⟨result, reached, agreed⟩ := step?_agrees stashed here (spares item here) moves
  by_cases empty : itemSize item = 0
  · obtain ⟨same, idle⟩ :=
      @Linked.step?_of_empty items state.position item memory (layoutOf linking items) here empty
    rw [same, idle] at reached
    obtain ⟨position, left⟩ := next
    cases reached
    refine ⟨0, _, rfl, ⟨?_, agreed⟩, fun _ => rfl⟩
    rw [place_succ here, empty, Nat.add_zero]
  · have runs := linked.runs_block here empty (fits_of_spares agrees here spares holds) reached
    obtain ⟨a', d', travels⟩ := runs a d
    obtain ⟨count, steps⟩ := travels.exists_steps?
    exact ⟨count + 1, _, steps, ⟨rfl, agreed⟩, fun zero => absurd zero (Nat.succ_ne_zero _)⟩

/--
A run of the stack machine is followed.  Every step of it takes the machine a
step, or comes closer to the end of the items.
-/
theorem Linked.follows_steps (linked : Linked items rom linking) {count : Nat} {machine : Machine}
    {state last : State} (follows : Follows items machine state)
    (careful : state.Careful (layoutOf linking items) items count)
    (reached : state.steps? (layoutOf linking items) items count = some last) :
    ∃ steps final, machine.steps? rom steps = some final ∧ Follows items final last ∧
      count + state.position ≤ steps * (items.length + 1) + last.position := by
  induction count generalizing machine state with
  | zero =>
      cases reached
      exact ⟨0, machine, rfl, follows, by omega⟩
  | succ count ih =>
      rw [State.steps?, Option.bind_eq_some_iff] at reached
      obtain ⟨next, moves, rest⟩ := reached
      obtain ⟨spares, holds⟩ := careful 0 (Nat.zero_lt_succ count) state rfl
      -- An empty block costs the machine no step, but then the position has grown.
      obtain ⟨first, middle, began, there, idle⟩ :=
        linked.follows_step follows spares holds moves
      obtain ⟨second, final, went, at', bound⟩ := ih there (careful.tail moves) rest
      refine ⟨first + second, final, ?_, at', ?_⟩
      · rw [Machine.steps?_add, began, Option.bind_some, went]
      · obtain ⟨item, here⟩ := State.exists_item_of_step? moves
        have inside := (List.getElem?_eq_some_iff.1 here).1
        rw [Nat.add_mul]
        cases first with
        | zero =>
            have follows := idle rfl
            omega
        | succ first =>
            have most : items.length + 1 ≤ (first + 1) * (items.length + 1) :=
              Nat.le_mul_of_pos_left _ (Nat.succ_pos _)
            omega

theorem agrees_savedFrame {first second : Memory} (agrees : Agrees first second) (back : Word) :
    Agrees (savedFrame first back) (savedFrame second back) :=
  ((((agrees.push back).pushRegister .lcl).pushRegister .arg).pushRegister .this).pushRegister .that

/-- A call with more arguments than a load can hold goes on as it should but bases ARG elsewhere. -/
theorem Linked.misbases (linked : Linked items rom linking) {machine : Machine} {state next : State}
    (follows : Follows items machine state) {unit name : String} {arguments : UInt16}
    (here : items[state.position]? = some (.command unit (.call name arguments)))
    (elsewhere : linking.number (5 + arguments.toNat) ≠ 5 + arguments.toInt16)
    (moves : state.step? (layoutOf linking items) items = some next) :
    ∃ count last, machine.steps? rom count = some last ∧ last.pc = place items next.position ∧
      last.memory.register .arg ≠ next.memory.register .arg := by
  obtain ⟨memory, pc, a, d⟩ := machine
  obtain ⟨rfl, agrees⟩ := follows
  rw [State.step?, here] at moves
  obtain ⟨target, declares, rfl⟩ := Option.map_eq_some_iff.1 moves
  obtain ⟨a', d', travels⟩ := @Linked.runs_call _ _ _ linked _ memory _ _ _ here _ declares a d
  obtain ⟨count, steps⟩ := travels.exists_steps?
  refine ⟨count + 1, _, steps, rfl, ?_⟩
  change (enterAt memory _ _).register .arg ≠
    (enterAt state.memory (.ofNat (place items (state.position + 1)))
      (5 + arguments.toInt16)).register .arg
  rw [register_arg_enterAt, register_arg_enterAt]
  have saved := agrees_savedFrame agrees (.ofNat (place items (state.position + 1)))
  rw [saved.register .sp]
  intro same
  exact elsewhere ((Int16.sub_right_inj _).1 same)

end refinement

/-! ## Programs -/

/--
The machine on an assembled program does what the stack machine does on its
items.  A call with more arguments than a load can hold is the exception.
-/
structure Refines (items : List Item) (program : Asm.Program) : Prop where
  /-- Every static variable has a cell; all of them lie below 256 if no such call is written. -/
  staticCell : ∀ mentioned ∈ staticsOf items, ∃ cell, 16 ≤ cell ∧
    cell < 256 + (largeDistances items).dedup.length ∧
      (layoutOf (linkingOf program) items).staticCell mentioned.1 mentioned.2 = .ofNat cell
  /-- Different statics have different cells. -/
  staticsApart : ∀ first ∈ staticsOf items, ∀ second ∈ staticsOf items,
    (layoutOf (linkingOf program) items).staticCell first.1 first.2 =
      (layoutOf (linkingOf program) items).staticCell second.1 second.2 → first = second
  /-- Every careful run is followed, and not with ever fewer steps. -/
  follows : ∀ (machine : Machine) (count : Nat) (last : State), machine.pc = 0 →
    State.Careful (layoutOf (linkingOf program) items) items count ⟨0, machine.memory⟩ →
      State.steps? (layoutOf (linkingOf program) items) items count ⟨0, machine.memory⟩ =
          some last →
        ∃ steps final, machine.steps? program.rom steps = some final ∧
          Follows items final last ∧ count ≤ steps * (items.length + 1) + last.position
  /-- Where the stack machine has come to the end, the machine has stopped. -/
  stops : ∀ (machine : Machine) (state : State), Follows items machine state →
    state.position = items.length → machine.step? program.rom = none
  /-- Where the stack machine runs forever, so does the machine. -/
  endless : ∀ machine : Machine, machine.pc = 0 →
    (∀ count, State.Careful (layoutOf (linkingOf program) items) items count ⟨0, machine.memory⟩ ∧
      ∃ last, State.steps? (layoutOf (linkingOf program) items) items count ⟨0, machine.memory⟩ =
        some last) →
      ∀ steps, ∃ final, machine.steps? program.rom steps = some final
  /-- A call with more arguments than a load can hold never bases ARG where it should. -/
  misbases : ∀ (machine : Machine) (state next : State), Follows items machine state →
    ¬ state.Holds items →
      state.step? (layoutOf (linkingOf program) items) items = some next →
        ∃ count last, machine.steps? program.rom count = some last ∧
          last.pc = place items next.position ∧
            last.memory.register .arg ≠ next.memory.register .arg

theorem Linked.stops {items : List Item} {rom : Array Instruction} {linking : Linking}
    (linked : Linked items rom linking) {machine : Machine} {state : State}
    (follows : Follows items machine state) (ends : state.position = items.length) :
    machine.step? rom = none := by
  rw [Machine.step?, dif_neg]
  rw [follows.pc, ends, linked.size]
  exact Nat.lt_irrefl _

theorem exists_steps?_of_le {rom : Array Instruction} {machine final : Machine} {few many : Nat}
    (le : few ≤ many) (reached : machine.steps? rom many = some final) :
    ∃ middle, machine.steps? rom few = some middle := by
  obtain ⟨more, rfl⟩ := Nat.exists_eq_add_of_le le
  rw [Machine.steps?_add, Option.bind_eq_some_iff] at reached
  exact ⟨reached.choose, reached.choose_spec.1⟩

theorem position_le_of_step? {layout : Layout} {items : List Item} {state next : State}
    (moves : state.step? layout items = some next) : next.position ≤ items.length := by
  obtain ⟨item, here⟩ := State.exists_item_of_step? moves
  have inside := (List.getElem?_eq_some_iff.1 here).1
  have goes {name : String} {memory : Memory}
      (goes : State.goto? items name memory = some next) : next.position ≤ items.length := by
    obtain ⟨target, declares, rfl⟩ := Option.map_eq_some_iff.1 goes
    obtain ⟨within, -⟩ := List.findIdx?_eq_some_iff_getElem.1 declares
    exact Nat.le_of_lt within
  rw [State.step?, here] at moves
  cases item with
  | start entry => exact goes moves
  | command unit command =>
      cases command with
      | goto name => exact goes moves
      | call name arguments => exact goes moves
      | ifGoto name =>
          simp only [State.command?] at moves
          split at moves
          next =>
            cases moves
            exact inside
          next => exact goes moves
      | ret =>
          obtain ⟨target, found, rfl⟩ := Option.map_eq_some_iff.1 moves
          have within := List.mem_of_find?_eq_some found
          rw [List.mem_range] at within
          exact Nat.lt_succ_iff.1 within
      | push | pop | operate | label | function =>
          cases moves
          exact inside

theorem position_le_of_steps? {layout : Layout} {items : List Item} {count : Nat}
    {state last : State} (start : state.position ≤ items.length)
    (reached : state.steps? layout items count = some last) : last.position ≤ items.length := by
  induction count generalizing state with
  | zero =>
      cases reached
      exact start
  | succ count ih =>
      rw [State.steps?, Option.bind_eq_some_iff] at reached
      obtain ⟨next, moves, rest⟩ := reached
      exact ih (position_le_of_step? moves) rest

/-- Where calls load distances that fit, they load them as they are; others load something else. -/
theorem number_ne_of_large {items : List Item} {annotate : Bool} {program : Asm.Program}
    (linkable : Linkable items)
    (assembled : Asm.Program.assemble (itemsText annotate items) = .ok program)
    (few : program.variableNames.length ≤ 245) {arguments : UInt16}
    (large : 5 + arguments.toNat ∈ largeDistances items) :
    (linkingOf program).number (5 + arguments.toNat) ≠ 5 + arguments.toInt16 := by
  obtain ⟨position, inside, word⟩ := exists_largeCell linkable assembled large
  have beyond : 65536 ≤ 5 + arguments.toNat := by simpa using (List.mem_filter.1 large).2
  intro same
  have values := congrArg (fun word : Word => word.toUInt16.toNat) (word.symm.trans same)
  have sum : (5 + arguments.toInt16).toUInt16.toNat = (5 + arguments.toNat) % 65536 := by
    rw [Int16.toUInt16_add, UInt16.toNat_add]
    rfl
  have bound := arguments.toNat_lt
  rw [toNat_ofNat_word (Nat.lt_of_le_of_lt (show 16 + position ≤ 261 by omega) (by decide)),
    sum] at values
  omega

/--
Take accepted sources whose names are their own, in units that keep to their
lines, and assemble their text, started at an entry or not, with remarks or
without.  If the program fits the addresses and mentions no more than 240
statics, the machine does on it what the stack machine does.
-/
theorem assembled_refines {entry : Option String} {annotate : Bool}
    {sources : List (String × String)} {units : List SourceUnit} {program : Asm.Program}
    (read : readUnits sources = .ok units)
    (assembled : Asm.Program.assemble (programText annotate entry units) = .ok program)
    (keeps : ∀ source ∈ sources, KeepsLine source.1.toList)
    (names : OwnNames (programItems entry units)) (small : program.rom.size ≤ memorySize)
    (few : (staticsOf (programItems entry units)).dedup.length ≤ 240) :
    Refines (programItems entry units) program := by
  have linkable := linkable_of_readUnits read keeps names
  have linked := linked_of_assembled linkable assembled small
  have named := length_variableNames linkable assembled
  have larges := length_largeDistances (programItems entry units)
  refine ⟨?_, ?_, ?_, fun _ _ => linked.stops, ?_, ?_⟩
  · rintro ⟨unit, index⟩ mentioned
    obtain ⟨position, inside, -, word⟩ := exists_staticCell linkable assembled mentioned
    exact ⟨16 + position, by omega, by omega, word⟩
  · exact fun first mentioned second mentioned' same =>
      static_inj linkable assembled mentioned mentioned' (by omega) same
  · intro machine count last start careful reached
    have begins : Follows (programItems entry units) machine ⟨0, machine.memory⟩ :=
      ⟨start.trans (place_zero _).symm, .refl _⟩
    obtain ⟨steps, final, went, there, bound⟩ := linked.follows_steps begins careful reached
    exact ⟨steps, final, went, there, by simpa using bound⟩
  · intro machine start forever steps
    -- No more steps than there are items are idle in a row, so a run this long is enough.
    obtain ⟨careful, last, reached⟩ := forever
      (steps * ((programItems entry units).length + 1) + (programItems entry units).length)
    obtain ⟨many, final, went, -, bound⟩ :=
      linked.follows_steps ⟨start.trans (place_zero _).symm, Agrees.refl machine.memory⟩ careful
        reached
    have ends := position_le_of_steps? (Nat.zero_le _) reached
    have enough : steps * ((programItems entry units).length + 1) ≤
        many * ((programItems entry units).length + 1) := by
      rw [Nat.add_zero] at bound
      omega
    exact exists_steps?_of_le (Nat.le_of_mul_le_mul_right enough (Nat.succ_pos _)) went
  · intro machine state next follows unheld moves
    have calls : ∃ item ∈ (programItems entry units)[state.position]?,
        ∃ distance ∈ item.distance?, UInt16.size ≤ distance := by
      by_contra none
      push Not at none
      exact unheld fun item here distance calls => none item here distance calls
    obtain ⟨item, here, distance, calls, large⟩ := calls
    cases item with
    | start => cases calls
    | command unit command =>
        cases command with
        | call name arguments =>
            cases calls
            refine linked.misbases follows here (number_ne_of_large linkable assembled (by omega) ?_)
              moves
            refine List.mem_filter.2 ⟨?_, by simpa using large⟩
            exact List.mem_filterMap.2 ⟨_, List.mem_of_getElem? here, rfl⟩
        | _ => cases calls

/-- A unit that counts in a static variable forever. -/
def countingUnit : SourceUnit :=
  ⟨"M", [.label "AGAIN", .push .statics 3, .push .constant 1, .operate (.binary .add),
    .pop .statics 3, .goto "AGAIN"]⟩

def countingSource : String × String :=
  ("M", "label AGAIN\npush static 3\npush constant 1\nadd\npop static 3\ngoto AGAIN")

theorem assembled_refines_counting :
    ∃ program, Asm.Program.assemble (programText false none [countingUnit]) = .ok program ∧
      Refines (programItems none [countingUnit]) program := by
  have read : readUnits [countingSource] = .ok [countingUnit] := by decide +kernel
  have keeps : ∀ source ∈ [countingSource], KeepsLine source.1.toList := by
    intro source only
    rw [List.mem_singleton.1 only]
    exact ⟨by decide, Text.commentFree_of_notMem (by decide)⟩
  have names : OwnNames (programItems none [countingUnit]) :=
    ownNames_of_undotted (by decide) (by decide) (by decide)
  obtain ⟨program, assembled, size⟩ :=
    @exists_assembled _ false (linkable_of_readUnits read keeps names).sound 24 (by decide +kernel)
  refine ⟨program, assembled, assembled_refines read assembled keeps names ?_ (by decide)⟩
  rw [size]
  decide

end HackToolchain.Cpu
