import HackToolchain.Proofs.Codegen.Names
import HackToolchain.Proofs.Cpu.Performing
import HackToolchain.Proofs.Vm.Frames

/-!
# Courses of commands inside a call

While a call is active, the machine may perform any number of commands, calls
and returns.  As long as no command takes or stores what belongs to the frames,
every frame keeps its words, and the machine is never stuck.
-/

namespace HackToolchain.Cpu

open HackToolchain.Asm (Instruction)
open HackToolchain.Codegen
open HackToolchain.Vm

/-! ## Courses of commands -/

/-- The bases of the active calls behind an item, the innermost first. -/
def active (memory : Memory) (bases : List Nat) : Item → List Nat
  | .command _ (.call _ _) => memory.pointer .sp :: bases
  | .command _ .ret => bases.tail
  | _ => bases

/-- Commands are tame; nothing is asked of a start. -/
def TameItem (layout : Layout) (low : Nat) (bases : List Nat) (memory : Memory) : Item → Prop
  | .start _ => True
  | .command unit command => Tame layout low bases unit memory command

/--
The machine performs tame items one after another, some calls being active all
the time.
-/
inductive Course (items : List Item) (rom : Array Instruction) (layout : Layout) (low : Nat) :
    List Nat → Machine → List Nat → Machine → Prop where
  | done (bases : List Nat) (machine : Machine) :
      Course items rom layout low bases machine bases machine
  | next {bases last : List Nat} {position : Nat} {item : Item} {machine middle final : Machine}
      (here : items[position]? = some item)
      (tame : TameItem layout low bases machine.memory item)
      (performs : Performs items rom position machine middle)
      (alive : active machine.memory bases item ≠ [])
      (rest : Course items rom layout low (active machine.memory bases item) middle last final) :
      Course items rom layout low bases machine last final

/-! ## The start is not come back to -/

/-- A place behind the start, if there is one. -/
def Beyond (items : List Item) (place : Nat) : Prop :=
  ∀ entry, items[0]? = some (.start entry) → 0 < place

theorem beyond_place {items : List Item} {position : Nat} (later : 0 < position) :
    Beyond items (place items position) := by
  intro entry starts
  have first := place_succ starts
  have most := place_mono items (show 0 + 1 ≤ position from later)
  have size : itemSize (.start entry) ≠ 0 := by
    intro zero
    cases zero
  omega

theorem beyond_declaration {items : List Item} {name : String} {target : Nat}
    (declares : declaration? items name = some target) : Beyond items (place items target) := by
  cases target with
  | zero =>
      intro entry starts
      obtain ⟨inside, same, -⟩ := List.findIdx?_eq_some_iff_getElem.1 declares
      rw [List.getElem?_eq_getElem inside, Option.some.injEq] at starts
      rw [starts] at same
      cases same
  | succ target => exact beyond_place (Nat.succ_pos target)

/-! ## One item -/

/-- Programs that declare every name they aim at and start nowhere but at their first item. -/
structure Closed (items : List Item) : Prop where
  declared : ∀ item ∈ items, ∀ name ∈ item.target?, name ∈ givenNames items
  single : ∀ position name, items[position]? = some (.start name) → position = 0

theorem closed_programItems {entry : Option String} {units : List SourceUnit}
    (declared : ∀ item ∈ programItems entry units, ∀ name ∈ item.target?,
      name ∈ givenNames (programItems entry units)) : Closed (programItems entry units) := by
  refine ⟨declared, fun position name here => ?_⟩
  have commands : Item.start name ∉
      units.flatMap fun unit => unit.commands.map (Item.command unit.name) := by
    intro member
    obtain ⟨unit, -, mapped⟩ := List.mem_flatMap.1 member
    obtain ⟨command, -, same⟩ := List.mem_map.1 mapped
    cases same
  cases entry with
  | none => exact absurd (List.mem_of_getElem? here) commands
  | some entry =>
      cases position with
      | zero => rfl
      | succ position =>
          have later : (units.flatMap fun unit =>
              unit.commands.map (Item.command unit.name))[position]? = some (.start name) := here
          exact absurd (List.mem_of_getElem? later) commands

theorem exists_declaration {items : List Item} {name : String} (given : name ∈ givenNames items) :
    ∃ target, declaration? items name = some target := by
  obtain ⟨item, member, declares⟩ := List.mem_filterMap.1 given
  cases found : declaration? items name with
  | some target => exact ⟨target, rfl⟩
  | none =>
      have none := List.findIdx?_eq_none_iff.1 found item member
      simp [declares] at none

/-- A command other than a return always takes a step, and not to the start. -/
theorem exists_command? {layout : Layout} {items : List Item} {unit : String} {position : Nat}
    {memory : Memory} {command : Command} (here : items[position]? = some (.command unit command))
    (closed : Closed items) (returns : command ≠ .ret) :
    ∃ state, State.command? layout items unit ⟨position, memory⟩ command = some state ∧
      Beyond items (place items state.position) := by
  have member := List.mem_of_getElem? here
  have goes {name : String} (aims : (Item.command unit command).target? = some name)
      (memory : Memory) : ∃ state, State.goto? items name memory = some state ∧
        Beyond items (place items state.position) := by
    obtain ⟨target, declares⟩ := exists_declaration (closed.declared _ member name aims)
    exact ⟨⟨target, memory⟩, by rw [State.goto?, declares]; rfl, beyond_declaration declares⟩
  have follows : Beyond items (place items (position + 1)) := beyond_place (Nat.succ_pos position)
  cases command with
  | goto name => exact goes rfl memory
  | call name arguments => exact goes rfl _
  | ifGoto name =>
      simp only [State.command?]
      split
      next => exact ⟨_, rfl, follows⟩
      next => exact goes rfl _
  | push | pop | operate | label | function => exact ⟨_, rfl, follows⟩
  | ret => exact absurd rfl returns

section linked

variable {items : List Item} {rom : Array Instruction} {linking : Linking} {low : Nat}
  {original : Memory} {inner : Frame} {outer : List Frame}

/-- In a frame every tame command fits its block. -/
theorem fits_of_framed {memory : Memory} {item : Item}
    (framed : Framed (layoutOf linking items) items low original inner outer memory)
    (tame : TameItem (layoutOf linking items) low ((inner :: outer).map Frame.base) memory item) :
    Fits item memory := by
  have inside := framed.inside
  cases item with
  | start entry => trivial
  | command unit command =>
      cases command with
      | call name arguments =>
          have taken : memory.pointer .lcl + arguments.toNat ≤ memory.pointer .sp := tame.taken
          have frame := framed.pointer_lcl
          change 5 + arguments.toNat < 65536
          rw [memorySize] at inside
          omega
      | ret =>
          have least := framed.least
          have above := framed.above
          obtain ⟨lowest, -⟩ := framed.chained.bounds
          have base : (cellOf (memory.register .arg)).val = inner.base - inner.arguments := by
            rw [framed.arg, cellOf_ofNat (by omega)]
          refine ⟨fun same => ?_, fun same => ?_⟩
          · have number : inner.base - inner.arguments = 14 := base ▸ congrArg Fin.val same
            omega
          · have number : inner.base - inner.arguments = 15 := base ▸ congrArg Fin.val same
            omega
      | _ => trivial

/-- A return in a frame finds a position with the place that the call saved. -/
theorem exists_return (linked : Linked items rom linking) {memory : Memory}
    (framed : Framed (layoutOf linking items) items low original inner outer memory) :
    ∃ position, position? (layoutOf linking items) items (backWord memory) = some position ∧
      place items position = place items inner.back := by
  obtain ⟨-, inside⟩ := framed.backs inner List.mem_cons_self
  have back := framed.backWord
  cases found : position? (layoutOf linking items) items (backWord memory) with
  | none =>
      have absent := List.find?_eq_none.1 found inner.back
        (List.mem_range.2 (Nat.lt_succ_of_le inside))
      simp [back] at absent
  | some position =>
      refine ⟨position, rfl, ?_⟩
      have words := Linked.word_position found
      rw [back] at words
      exact ofNat_word_inj (linked.place_lt _) (linked.place_lt _) words.symm

/-- In a frame a return takes the machine to where the innermost call returns to. -/
theorem exists_performs_return (linked : Linked items rom linking) {machine : Machine}
    (framed : Framed (layoutOf linking items) items low original inner outer machine.memory)
    {position : Nat} {unit : String} (here : items[position]? = some (.command unit .ret))
    (starts : machine.pc = place items position)
    (tame : Tame (layoutOf linking items) low ((inner :: outer).map Frame.base) unit
      machine.memory .ret) :
    ∃ next, Performs items rom position machine next ∧
      next.memory = leave (leaving machine.memory) ∧ next.pc = place items inner.back := by
  obtain ⟨target, found, same⟩ :=
    exists_return linked (framed.of_agrees (agrees_leaving machine.memory))
  have moves : State.step? (layoutOf linking items) items
      ⟨position, stash (.command unit .ret) machine.memory⟩ =
        some ⟨target, leave (leaving machine.memory)⟩ := by
    rw [State.step?, here]
    exact Option.map_eq_some_iff.2 ⟨target, found, rfl⟩
  have filled : itemSize (.command unit .ret) ≠ 0 := by
    intro zero
    cases zero
  obtain ⟨next, performs, memory, pc⟩ := linked.exists_performs here
    ((itemSize_ne_zero here).1 filled) starts (fits_of_framed framed tame) moves
  exact ⟨next, performs, memory, pc.trans same⟩

/-- In a frame every other command takes the machine to where the stack machine goes. -/
theorem exists_performs_command (linked : Linked items rom linking)
    (closed : Closed items)
    {machine : Machine}
    (framed : Framed (layoutOf linking items) items low original inner outer machine.memory)
    {position : Nat} {unit : String} {command : Command}
    (here : items[position]? = some (.command unit command)) (returns : command ≠ .ret)
    (filled : place items position < place items (position + 1))
    (starts : machine.pc = place items position)
    (tame : Tame (layoutOf linking items) low ((inner :: outer).map Frame.base) unit
      machine.memory command) :
    ∃ state next, Performs items rom position machine next ∧ next.memory = state.memory ∧
      next.pc = place items state.position ∧ Beyond items next.pc ∧
      State.command? (layoutOf linking items) items unit
        ⟨position, stash (.command unit command) machine.memory⟩ command = some state := by
  obtain ⟨state, moves, beyond⟩ := exists_command? here closed returns
  have steps : State.step? (layoutOf linking items) items
      ⟨position, stash (.command unit command) machine.memory⟩ = some state := by
    rw [State.step?, here]
    exact moves
  obtain ⟨next, performs, memory, pc⟩ :=
    linked.exists_performs here filled starts (fits_of_framed framed tame) steps
  exact ⟨state, next, performs, memory, pc, pc ▸ beyond, moves⟩

/-! ## Whole courses -/

/-- The machine runs inside a call: its memory has frames, of which the outermost is a given one. -/
def Serves (layout : Layout) (items : List Item) (low : Nat) (original : Memory) (first : Frame)
    (bases : List Nat) (machine : Machine) : Prop :=
  ∃ inner outer, bases = (inner :: outer).map Frame.base ∧
    (inner :: outer).getLast? = some first ∧
    Framed layout items low original inner outer machine.memory ∧ Beyond items machine.pc

/-- A machine inside a call performs the tame item it is at and is still inside the call. -/
theorem Linked.serves_step (linked : Linked items rom linking)
    (closed : Closed items)
    {first : Frame} {bases : List Nat} {machine : Machine}
    (serves : Serves (layoutOf linking items) items low original first bases machine)
    {position : Nat} {item : Item} (here : items[position]? = some item)
    (filled : place items position < place items (position + 1))
    (starts : machine.pc = place items position)
    (tame : TameItem (layoutOf linking items) low bases machine.memory item)
    (alive : active machine.memory bases item ≠ []) :
    ∃ next, Performs items rom position machine next ∧
      Serves (layoutOf linking items) items low original first
        (active machine.memory bases item) next := by
  obtain ⟨inner, outer, rfl, outermost, framed, beyond⟩ := serves
  cases item with
  | start name =>
      -- The only start is at the first place, and inside a call the machine is beyond it.
      cases closed.single position name here
      have later := beyond name here
      rw [starts, place_zero] at later
      exact absurd later (Nat.lt_irrefl 0)
  | command unit command =>
      by_cases returns : command = .ret
      · subst returns
        obtain ⟨next, performs, memory, pc⟩ :=
          exists_performs_return linked framed here starts tame
        cases outer with
        | nil => exact absurd rfl alive
        | cons caller rest =>
            have agrees := agrees_leaving machine.memory
            have taken := (tame.of_agrees agrees).taken
            obtain ⟨later, -⟩ := framed.backs inner List.mem_cons_self
            refine ⟨next, performs, caller, rest, rfl, outermost, ?_, ?_⟩
            · rw [memory]
              exact (framed.of_agrees agrees).leave_next taken
            · rw [pc]
              exact beyond_place later
      · obtain ⟨state, next, performs, memory, -, beyond', moves⟩ :=
          exists_performs_command linked closed framed here returns filled starts tame
        have agrees := agrees_stash (.command unit command) machine.memory
        have stashed := framed.of_agrees agrees
        have tame' := tame.of_agrees agrees
        by_cases calls : ∃ name arguments, command = .call name arguments
        · obtain ⟨name, arguments, rfl⟩ := calls
          obtain ⟨target, -, rfl⟩ := Option.map_eq_some_iff.1 moves
          have inside := (List.getElem?_eq_some_iff.1 here).1
          refine ⟨next, performs, Framed.frameOf machine.memory arguments (position + 1),
            inner :: outer, rfl, outermost, ?_, beyond'⟩
          rw [memory]
          exact framed.enter_next tame.taken tame.added ⟨Nat.succ_pos position, inside⟩
        · have same : active machine.memory ((inner :: outer).map Frame.base)
              (.command unit command) = (inner :: outer).map Frame.base := by
            cases command with
            | call name arguments => exact absurd ⟨name, arguments, rfl⟩ calls
            | ret => exact absurd rfl returns
            | _ => rfl
          have positive := stashed.pointer_lcl
          refine ⟨next, performs, inner, outer, same, outermost, ?_, beyond'⟩
          rw [memory]
          exact stashed.command tame' (tame'.confined (by omega)
            (fun name arguments is => calls ⟨name, arguments, is⟩) returns moves)

/-- A machine inside a call is still inside it after any course. -/
theorem Linked.serves_course (linked : Linked items rom linking)
    (closed : Closed items)
    {first : Frame} {bases last : List Nat} {machine final : Machine}
    (serves : Serves (layoutOf linking items) items low original first bases machine)
    (course : Course items rom (layoutOf linking items) low bases machine last final) :
    Serves (layoutOf linking items) items low original first last final := by
  induction course with
  | done => exact serves
  | next here tame performs alive rest ih =>
      obtain ⟨next, performs', serves'⟩ := linked.serves_step closed serves here
        performs.filled performs.starts tame alive
      -- A block is left at one place only, so the course goes on where the step led.
      rw [performs'.unique performs] at serves'
      exact ih serves'

/-- A machine inside a call performs the tame item it is at, also if that ends the call. -/
theorem Linked.exists_performs_of_serves (linked : Linked items rom linking)
    (closed : Closed items)
    {first : Frame} {bases : List Nat} {machine : Machine}
    (serves : Serves (layoutOf linking items) items low original first bases machine)
    {position : Nat} {item : Item} (here : items[position]? = some item)
    (filled : place items position < place items (position + 1))
    (starts : machine.pc = place items position)
    (tame : TameItem (layoutOf linking items) low bases machine.memory item) :
    ∃ next, Performs items rom position machine next := by
  by_cases alive : active machine.memory bases item = []
  · obtain ⟨inner, outer, rfl, -, framed, -⟩ := serves
    cases item with
    | start name => cases alive
    | command unit command =>
        cases command with
        | ret =>
            obtain ⟨next, performs, -⟩ := exists_performs_return linked framed here starts tame
            exact ⟨next, performs⟩
        | _ => cases alive
  · obtain ⟨next, performs, -⟩ :=
      linked.serves_step closed serves here filled starts tame alive
    exact ⟨next, performs⟩

end linked

end HackToolchain.Cpu
