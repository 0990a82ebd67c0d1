import HackToolchain.Proofs.Cpu.Courses
import HackToolchain.Proofs.Cpu.Loading

/-!
# Calls and returns

A called function starts above a frame of five saved words, and when it returns
the machine is behind the call with the caller's bases and the answer in place
of the arguments.  Between the two there may be any course of tame commands.
The frame and the locals must fit memory: behind the last cell comes SP.
-/

namespace HackToolchain.Cpu

open HackToolchain.Asm (Instruction KeepsLine Register)
open HackToolchain.Codegen
open HackToolchain.Vm

section linked

variable {items : List Item} {rom : Array Instruction} {linking : Linking} {low : Nat}
  {original : Memory}

/-- What memory holds after the return from the only active call. -/
theorem restored_of_framed {layout : Layout} {memory : Memory} {arguments : UInt16} {back : Nat}
    (framed : Framed layout items low original (Framed.frameOf original arguments back) [] memory)
    (taken : memory.pointer .lcl + 1 ≤ memory.pointer .sp) :
    let base := original.pointer .sp - arguments.toNat
    (∀ register, register ≠ .sp →
        (leave (leaving memory)).register register = original.register register) ∧
      (leave (leaving memory)).pointer .sp = base + 1 ∧
      (leave (leaving memory)).read (.ofNat base) = memory.read memory.top ∧
      ∀ cell, 256 ≤ cell → cell < low →
        (leave (leaving memory)).read (.ofNat cell) = original.read (.ofNat cell) := by
  have agrees := agrees_leaving memory
  have stashed := framed.of_agrees agrees
  have taken' : (leaving memory).pointer .lcl + 1 ≤ (leaving memory).pointer .sp := by
    rw [Memory.pointer, Memory.pointer, ← agrees.register, ← agrees.register]
    exact taken
  obtain ⟨sp, lcl, arg, this, that, answer, cells⟩ := stashed.leave taken'
  have least := framed.least
  have only : original.pointer .sp = low + arguments.toNat := framed.chained
  have above : original.pointer .sp + 5 ≤ memory.pointer .sp := framed.above
  have inside := framed.inside
  have plain : ¬ IsScratch memory.top := by
    rw [Memory.top_eq (memory.register_eq_ofNat .sp) (by omega), IsScratch,
      cellOf_ofNat (by omega)]
    omega
  intro base
  refine ⟨fun register other => ?_, Memory.pointer_eq sp ?_, ?_, fun cell high below => ?_⟩
  · cases register with
    | sp => exact absurd rfl other
    | lcl => exact lcl
    | arg => exact arg
    | this => exact this
    | that => exact that
  · change original.pointer .sp - arguments.toNat + 1 ≤ memorySize
    omega
  · rw [← agrees.top] at answer
    exact answer.trans (agrees _ plain).symm
  · have apart : cell ≠ original.pointer .sp - arguments.toNat := by omega
    exact (cells cell (by omega) (by omega) apart).trans (stashed.kept cell high below)

/-! ## Prologues -/

/-- A performed call is at every declaration of its function, with its frame in memory. -/
theorem Linked.performs_call (linked : Linked items rom linking)
    (closed : Closed items)
    {machine : Machine} {position : Nat} {unit name : String} {arguments : UInt16}
    (here : items[position]? = some (.command unit (.call name arguments)))
    (starts : machine.pc = place items position)
    (few : 5 + arguments.toNat < UInt16.size) :
    ∃ entered, Performs items rom position machine entered ∧
      entered.memory =
        enter machine.memory ((layoutOf linking items).placeWord (position + 1)) arguments ∧
      Beyond items entered.pc ∧
      ∀ target item, items[target]? = some item → item.declared? = some name →
        entered.pc = place items target := by
  obtain ⟨target, declares⟩ := exists_declaration
    (closed.declared _ (List.mem_of_getElem? here) name rfl)
  have moves : State.step? (layoutOf linking items) items
      ⟨position, stash (.command unit (.call name arguments)) machine.memory⟩ = some ⟨target,
        enter machine.memory ((layoutOf linking items).placeWord (position + 1)) arguments⟩ := by
    rw [State.step?, here]
    exact Option.map_eq_some_iff.2 ⟨target, declares, rfl⟩
  have filled : itemSize (.command unit (.call name arguments)) ≠ 0 := by
    intro zero
    cases zero
  obtain ⟨entered, performs, memory, pc⟩ := linked.exists_performs here
    ((itemSize_ne_zero here).1 filled) starts few moves
  refine ⟨entered, performs, memory, pc ▸ beyond_declaration declares, ?_⟩
  intro other item there names
  have words := (linked.word_given declares).symm.trans (linked.word_declared there names)
  exact pc.trans (ofNat_word_inj (linked.place_lt _) (linked.place_lt _) words)

/-- A function's prologue clears its locals and goes on behind it; without locals it is empty. -/
theorem Linked.exists_cleared (linked : Linked items rom linking) {machine : Machine}
    {position : Nat} {unit name : String} {locals : UInt16}
    (here : items[position]? = some (.command unit (.function name locals)))
    (starts : machine.pc = place items position) :
    ∃ ready, (locals = 0 ∧ ready = machine ∨ Performs items rom position machine ready) ∧
      ready.pc = place items (position + 1) ∧
      ready.memory = clearLocals machine.memory locals.toNat := by
  by_cases none : locals = 0
  · subst none
    refine ⟨machine, .inl ⟨rfl, rfl⟩, ?_, rfl⟩
    rw [place_succ here, starts]
    rfl
  · have filled := (itemSize_ne_zero here).1 (Linked.size_function_ne_zero unit name none)
    have moves : State.step? (layoutOf linking items) items ⟨position, machine.memory⟩ =
        some ⟨position + 1, clearLocals machine.memory locals.toNat⟩ := by
      rw [State.step?, here]
      rfl
    obtain ⟨ready, performs, memory, pc⟩ :=
      linked.exists_performs here filled starts trivial moves
    exact ⟨ready, .inr performs, pc, memory⟩

end linked

/-! ## Programs -/

/-- The machine is at a call whose arguments lie in the stack. -/
structure AtCall (items : List Item) (machine : Machine) (position : Nat) (name : String)
    (arguments : UInt16) : Prop where
  here : ∃ unit, items[position]? = some (.command unit (.call name arguments))
  starts : machine.pc = place items position
  passes : 256 + arguments.toNat ≤ machine.memory.pointer .sp

/--
Calls in an assembled program start their functions in frames of their own, and
the functions return to what the calls left.
-/
structure CallsReturn (items : List Item) (program : Asm.Program) : Prop where
  /-- A call whose frame and locals fit memory comes behind the prologue of its function. -/
  enters : ∀ {machine : Machine} {position target : Nat} {other name : String}
    {arguments locals : UInt16}, AtCall items machine position name arguments →
    items[target]? = some (.command other (.function name locals)) →
    machine.memory.pointer .sp + 5 + locals.toNat ≤ memorySize →
    ∃ entered ready, Performs items program.rom position machine entered ∧
      entered.pc = place items target ∧
      (locals = 0 ∧ ready = entered ∨ Performs items program.rom target entered ready) ∧
      Course items program.rom (layoutOf (linkingOf program) items)
        (machine.memory.pointer .sp - arguments.toNat) [machine.memory.pointer .sp] entered
        [machine.memory.pointer .sp] ready ∧
      ready.pc = place items (target + 1) ∧
      ready.memory.pointer .lcl = machine.memory.pointer .sp + 5 ∧
      ready.memory.pointer .arg = machine.memory.pointer .sp - arguments.toNat ∧
      ready.memory.pointer .sp = machine.memory.pointer .sp + 5 + locals.toNat ∧
      ∀ index < locals.toNat, ready.memory.read (.ofNat (machine.memory.pointer .sp + 5 + index)) = 0
  /-- Inside a call the machine performs every tame item that it comes to. -/
  proceeds : ∀ {machine entered middle : Machine} {position later : Nat} {name : String}
    {arguments : UInt16} {bases : List Nat} {item : Item},
    AtCall items machine position name arguments → machine.memory.pointer .sp + 5 ≤ memorySize →
    Performs items program.rom position machine entered →
    Course items program.rom (layoutOf (linkingOf program) items)
      (machine.memory.pointer .sp - arguments.toNat) [machine.memory.pointer .sp] entered bases
        middle →
    items[later]? = some item → place items later < place items (later + 1) →
    middle.pc = place items later →
    TameItem (layoutOf (linkingOf program) items) (machine.memory.pointer .sp - arguments.toNat) bases
      middle.memory item →
    ∃ next, Performs items program.rom later middle next
  /-- The return that matches a call restores what the call left, and answers. -/
  returns : ∀ {machine entered before last : Machine} {position later : Nat} {name unit : String}
    {arguments : UInt16}, AtCall items machine position name arguments →
    machine.memory.pointer .sp + 5 ≤ memorySize →
    Performs items program.rom position machine entered →
    Course items program.rom (layoutOf (linkingOf program) items)
      (machine.memory.pointer .sp - arguments.toNat) [machine.memory.pointer .sp] entered
      [machine.memory.pointer .sp] before →
    items[later]? = some (.command unit .ret) →
    Tame (layoutOf (linkingOf program) items) (machine.memory.pointer .sp - arguments.toNat)
      [machine.memory.pointer .sp] unit before.memory .ret →
    Performs items program.rom later before last →
    last.pc = place items (position + 1) ∧
      (∀ register, register ≠ .sp →
        last.memory.register register = machine.memory.register register) ∧
      last.memory.pointer .sp = machine.memory.pointer .sp - arguments.toNat + 1 ∧
      last.memory.read (.ofNat (machine.memory.pointer .sp - arguments.toNat)) =
        before.memory.read before.memory.top ∧
      ∀ cell, 256 ≤ cell → cell < machine.memory.pointer .sp - arguments.toNat →
        last.memory.read (.ofNat cell) = machine.memory.read (.ofNat cell)

section calls

variable {items : List Item} {program : Asm.Program}

/-- A call that has been performed is served in one frame. -/
theorem serves_of_atCall (linked : Linked items program.rom (linkingOf program))
    (closed : Closed items)
    {machine entered : Machine} {position : Nat} {name : String} {arguments : UInt16}
    (calls : AtCall items machine position name arguments)
    (room : machine.memory.pointer .sp + 5 ≤ memorySize)
    (performs : Performs items program.rom position machine entered) :
    Serves (layoutOf (linkingOf program) items) items (machine.memory.pointer .sp - arguments.toNat)
      machine.memory (Framed.frameOf machine.memory arguments (position + 1))
      [machine.memory.pointer .sp] entered := by
  obtain ⟨⟨unit, here⟩, starts, passes⟩ := calls
  have few : 5 + arguments.toNat < 65536 := by
    rw [memorySize] at room
    omega
  obtain ⟨reached, performs', memory, beyond, -⟩ := linked.performs_call closed here starts few
  cases performs.unique performs'
  have inside := (List.getElem?_eq_some_iff.1 here).1
  refine ⟨_, [], rfl, rfl, ?_, beyond⟩
  rw [memory]
  exact Framed.enter_first passes room ⟨Nat.succ_pos position, inside⟩

/--
Take accepted sources whose names are their own, in units that keep to their
lines, and assemble their text.  If the program fits the addresses, its calls
return at every depth.
-/
theorem assembled_calls_return {entry : Option String} {annotate : Bool}
    {sources : List (String × String)} {units : List SourceUnit} {program : Asm.Program}
    (read : readUnits sources = .ok units)
    (assembled : Asm.Program.assemble (programText annotate entry units) = .ok program)
    (keeps : ∀ source ∈ sources, KeepsLine source.1.toList)
    (names : OwnNames (programItems entry units)) (small : program.rom.size ≤ memorySize) :
    CallsReturn (programItems entry units) program := by
  have linked := linked_of_assembled (linkable_of_readUnits read keeps names) assembled small
  have closed := closed_programItems names.declared
  refine ⟨?_, ?_, ?_⟩
  · intro machine position target other name arguments locals calls there room
    obtain ⟨⟨unit, here⟩, starts, passes⟩ := calls
    have few : 5 + arguments.toNat < 65536 := by
      rw [memorySize] at room
      omega
    obtain ⟨entered, performs, memory, -, declares⟩ :=
      linked.performs_call closed here starts few
    have reached := declares target _ there rfl
    obtain ⟨ready, prologue, pc, cleared⟩ := linked.exists_cleared there reached
    have points := machine.memory.register_eq_ofNat .sp
    obtain ⟨sp, lcl, -, -, -⟩ := enter_spec
      ((layoutOf (linkingOf program) (programItems entry units)).placeWord (position + 1))
      arguments points (by omega) (by omega) (by omega)
    have height := Memory.pointer_eq (memory ▸ sp) (by omega)
    have frame := Memory.pointer_eq (memory ▸ lcl) (by omega)
    have tame : Tame (layoutOf (linkingOf program) (programItems entry units))
        (machine.memory.pointer .sp - arguments.toNat) [machine.memory.pointer .sp] other
        entered.memory (.function name locals) := by
      refine ⟨Nat.le_of_eq (frame.trans height.symm), ?_, ?_⟩
      · rw [height]
        exact room
      · intro address stores
        cases stores
    refine ⟨entered, ready, performs, reached, prologue, ?_, pc, ?_⟩
    · rcases prologue with ⟨-, rfl⟩ | performs'
      · exact .done _ _
      · exact .next there tame performs' (List.cons_ne_nil _ _) (.done _ _)
    · rw [cleared, memory]
      exact clearLocals_enter _ arguments locals points (by omega) room (by omega)
  · intro machine entered middle position later name arguments bases item calls room performs
      course here filled starts tame
    have serves := serves_of_atCall linked closed calls room performs
    exact linked.exists_performs_of_serves closed
      (linked.serves_course closed serves course) here filled starts tame
  · intro machine entered before last position later name unit arguments calls room performs
      course here tame performs'
    have serves := serves_of_atCall linked closed calls room performs
    obtain ⟨inner, outer, bases, outermost, framed, -⟩ :=
      linked.serves_course closed serves course
    -- The course has come back to the bases of the call, so no frame but its own is left.
    cases outer with
    | cons caller rest => exact absurd (congrArg List.length bases) (by simp)
    | nil =>
        have first : inner = Framed.frameOf machine.memory arguments (position + 1) :=
          Option.some.inj outermost
        obtain ⟨next, answers, memory, pc⟩ :=
          exists_performs_return linked framed here performs'.starts (bases ▸ tame)
        cases performs'.unique answers
        subst first
        rw [memory]
        exact ⟨pc, restored_of_framed framed tame.taken⟩

end calls

/-- A unit that calls a function with one local, which answers it. -/
def answeringUnit : SourceUnit :=
  ⟨"M", [.call "F" 0, .function "F" 1, .ret]⟩

def answeringSource : String × String :=
  ("M", "call F 0\nfunction F 1\nreturn")

theorem assembled_calls_return_answering :
    ∃ program, Asm.Program.assemble (programText false none [answeringUnit]) = .ok program ∧
      CallsReturn (programItems none [answeringUnit]) program ∧
      ∃ machine entered before last,
        AtCall (programItems none [answeringUnit]) machine 0 "F" 0 ∧
        Performs (programItems none [answeringUnit]) program.rom 0 machine entered ∧
        Course (programItems none [answeringUnit]) program.rom
          (layoutOf (linkingOf program) (programItems none [answeringUnit])) 256 [256] entered
          [256] before ∧
        Performs (programItems none [answeringUnit]) program.rom 2 before last ∧
        last.pc = place (programItems none [answeringUnit]) 1 ∧ last.memory.pointer .sp = 257 := by
  have read : readUnits [answeringSource] = .ok [answeringUnit] := by decide +kernel
  have keeps : ∀ source ∈ [answeringSource], KeepsLine source.1.toList := by
    intro source only
    rw [List.mem_singleton.1 only]
    exact ⟨by decide, Text.commentFree_of_notMem (by decide)⟩
  have names : OwnNames (programItems none [answeringUnit]) :=
    ownNames_of_undotted (by decide) (by decide) (by decide)
  obtain ⟨program, assembled, size⟩ :=
    @exists_assembled _ false (linkable_of_readUnits read keeps names).sound 98 (by decide +kernel)
  have calls_return := assembled_calls_return read assembled keeps names (by rw [size]; decide)
  refine ⟨program, assembled, calls_return, ?_⟩
  let machine : Machine := ⟨Memory.cleared.setRegister .sp 256, 0, 0, 0⟩
  have height : machine.memory.pointer .sp = 256 :=
    Memory.pointer_eq (Memory.register_setRegister_self _ _ _) (by decide)
  have calls : AtCall (programItems none [answeringUnit]) machine 0 "F" 0 :=
    ⟨⟨"M", rfl⟩, rfl, by rw [height]; decide⟩
  have there : (programItems none [answeringUnit])[1]? = some (.command "M" (.function "F" 1)) := rfl
  obtain ⟨entered, before, performs, -, -, course, pc, lcl, -, sp, -⟩ :=
    calls_return.enters calls there (by rw [height]; decide)
  have tame : Tame (layoutOf (linkingOf program) (programItems none [answeringUnit]))
      (machine.memory.pointer .sp - (0 : UInt16).toNat) [machine.memory.pointer .sp] "M"
      before.memory .ret := by
    refine ⟨?_, ?_, ?_⟩
    · rw [lcl, sp, height]
      decide
    · rw [sp, height]
      decide
    · intro address stores
      cases stores
  have here : (programItems none [answeringUnit])[2]? = some (.command "M" .ret) := rfl
  have room : machine.memory.pointer .sp + 5 ≤ memorySize := by
    rw [height]
    decide
  obtain ⟨last, performs'⟩ :=
    calls_return.proceeds calls room performs course here (by decide) pc tame
  obtain ⟨back, -, above, -⟩ := calls_return.returns calls room performs course here tame performs'
  rw [height] at course above
  exact ⟨machine, entered, before, last, calls, performs, course, performs', back, above⟩

/-! ## Calls at the end of memory -/

/-- A call with three cells left saves its fourth and its fifth word in SP, and LCL is based there. -/
theorem register_lcl_enter_full {memory : Memory} (points : memory.register .sp = .ofNat 32765)
    (unset : ∀ register, register ≠ .sp → memory.register register = 0) (back : Word)
    (arguments : UInt16) : (enter memory back arguments).register .lcl = 0 := by
  have one : 32765 + 1 ≤ memorySize := by decide
  have two : 32765 + 2 ≤ memorySize := by decide
  have three : 32765 + 3 ≤ memorySize := by decide
  have first : memory.push back = memory.pushAll [back] := rfl
  have pushed : ((memory.push back).pushRegister .lcl).pushRegister .arg =
      memory.pushAll [back, memory.register .lcl, memory.register .arg] := by
    rw [first, pushRegister_pushAll [back] points (by decide) one (by decide),
      pushRegister_pushAll ([back] ++ [memory.register .lcl]) points (by decide) two (by decide)]
    rfl
  obtain ⟨full, -, kept⟩ := Memory.pushAll_spec
    [back, memory.register .lcl, memory.register .arg] points (by decide) three
  have full : (memory.pushAll [back, memory.register .lcl, memory.register .arg]).register .sp =
      .ofNat 32768 := full
  rw [← pushed] at full kept
  rw [enter]
  generalize ((memory.push back).pushRegister .lcl).pushRegister .arg = saved at full kept
  have this : saved.register .this = 0 :=
    (kept 3 (by decide) (by decide)).trans (unset .this (by decide))
  have that : saved.register .that = 0 :=
    (kept 4 (by decide) (by decide)).trans (unset .that (by decide))
  -- The cell behind the last one is SP itself.
  have wraps : cellOf (.ofNat 32768) = cellOf Register.sp.cell := by decide
  have fourth : (saved.pushRegister .this).register .sp = .ofNat 0 := by
    rw [Memory.pushRegister, Memory.register_sp_push_of_sp full _ wraps, this]
    rfl
  have kept' : (saved.pushRegister .this).register .that = 0 := by
    rw [Memory.pushRegister, Memory.push_eq full, Memory.register_write _ _ (by decide),
      Memory.register_setRegister_of_ne _ _ (by decide), that]
  have fifth : ((saved.pushRegister .this).pushRegister .that).register .sp = 0 := by
    rw [Memory.pushRegister, kept']
    exact Memory.register_sp_push_of_sp fourth 0 (by decide)
  rw [Memory.register_setRegister_self, Memory.register_setRegister_of_ne _ _ (by decide), fifth]

/-- A unit that calls a function without locals. -/
def callingUnit : SourceUnit :=
  ⟨"M", [.call "F" 2, .function "F" 0]⟩

def callingSource : String × String :=
  ("M", "call F 2\nfunction F 0")

/-- A call that does not fit memory does not base LCL above its frame. -/
theorem lcl_of_call_at_end :
    ∃ program machine entered,
      readUnits [callingSource] = .ok [callingUnit] ∧
      Asm.Program.assemble (programText false none [callingUnit]) = .ok program ∧
      KeepsLine callingSource.1.toList ∧ OwnNames (programItems none [callingUnit]) ∧
      program.rom.size ≤ memorySize ∧
      AtCall (programItems none [callingUnit]) machine 0 "F" 2 ∧
      (programItems none [callingUnit])[1]? = some (.command "M" (.function "F" 0)) ∧
      Performs (programItems none [callingUnit]) program.rom 0 machine entered ∧
      entered.pc = place (programItems none [callingUnit]) 2 ∧
      entered.memory.register .lcl ≠ .ofNat (machine.memory.pointer .sp + 5) := by
  have read : readUnits [callingSource] = .ok [callingUnit] := by decide +kernel
  have keeps : KeepsLine callingSource.1.toList :=
    ⟨by decide, Text.commentFree_of_notMem (by decide)⟩
  have names : OwnNames (programItems none [callingUnit]) :=
    ownNames_of_undotted (by decide) (by decide) (by decide)
  have linkable := linkable_of_readUnits read
    (fun source only => List.mem_singleton.1 only ▸ keeps) names
  obtain ⟨program, assembled, size⟩ :=
    @exists_assembled _ false linkable.sound 42 (by decide +kernel)
  have small : program.rom.size ≤ memorySize := by
    rw [size]
    decide
  let machine : Machine := ⟨Memory.cleared.setRegister .sp 32765, 0, 0, 0⟩
  have points : machine.memory.register .sp = .ofNat 32765 :=
    Memory.register_setRegister_self _ _ _
  have height : machine.memory.pointer .sp = 32765 := Memory.pointer_eq points (by decide)
  have unset : ∀ register, register ≠ .sp → machine.memory.register register = 0 :=
    fun register other => (Memory.register_setRegister_of_ne _ _ other.symm).trans
      (Memory.read_cleared _)
  have calls : AtCall (programItems none [callingUnit]) machine 0 "F" 2 :=
    ⟨⟨"M", rfl⟩, rfl, by rw [height]; decide⟩
  have here : (programItems none [callingUnit])[0]? = some (.command "M" (.call "F" 2)) := rfl
  have there : (programItems none [callingUnit])[1]? = some (.command "M" (.function "F" 0)) := rfl
  obtain ⟨entered, performs, memory, -, declares⟩ :=
    (linked_of_assembled linkable assembled small).performs_call
      (closed_programItems names.declared) here calls.starts (by decide)
  have pc : entered.pc = place (programItems none [callingUnit]) 2 := declares 1 _ there rfl
  refine ⟨program, machine, entered, read, assembled, keeps, names, small, calls, there, performs,
    pc, ?_⟩
  rw [memory, register_lcl_enter_full points unset, height]
  decide

end HackToolchain.Cpu
