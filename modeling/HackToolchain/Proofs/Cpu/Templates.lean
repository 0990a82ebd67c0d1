import HackToolchain.Proofs.Cpu.Straight
import HackToolchain.Vm.Machine

/-!
# What code templates do

The effect of every stretch of generated code on memory and on the data
register, whatever memory holds: a push and a pop move the stack pointer first,
the destination of a pop is found before the stack pointer moves, and a
returning function saves its frame and its return address before it stores.
-/

namespace HackToolchain.Cpu

open HackToolchain.Asm (Instruction Line Register)
open HackToolchain.Codegen (Code Linking Symbol)
open HackToolchain.Vm (Binary Comparison Operator Unary)

/-- A linking that knows the registers, the numbered cells and the numbers of sixteen bits. -/
structure Grounded (linking : Linking) : Prop where
  register : ∀ named, linking.word (.register named) = named.cell
  cell : ∀ number < 16, linking.word (.cell number) = .ofNat number
  number : ∀ value < UInt16.size, linking.number value = .ofNat value

/-- The address where the destination of a pop or the second operand of a comparison is kept. -/
def stashCell : Word := 13

/-- The address where a returning function keeps its frame. -/
def frameCell : Word := 14

/-- The address where a returning function keeps the word it returns to. -/
def returnCell : Word := 15

namespace Grounded

variable {linking : Linking}

theorem index (grounded : Grounded linking) (index : UInt16) :
    linking.number index.toNat = index.toInt16 := by
  rw [grounded.number _ index.toNat_lt_size, ofNat_toNat_index]

/-! ## Pushing and popping -/

section stack

variable (grounded : Grounded linking) (machine : Machine)
include grounded

theorem memory_pushD :
    (afterAll linking Code.pushD machine).memory = machine.memory.push machine.d := by
  simp only [afterAll, Code.pushD, Code.reg, Code.setM, Code.setA, List.foldl_cons, List.foldl_nil,
    after, Linking.instruction?, grounded.register]
  rfl

theorem memory_popD : (afterAll linking Code.popD machine).memory = machine.memory.drop := by
  simp only [afterAll, Code.popD, Code.reg, Code.setAM, Code.setD, List.foldl_cons, List.foldl_nil,
    after, Linking.instruction?, grounded.register]
  rfl

theorem d_popD : (afterAll linking Code.popD machine).d = machine.memory.popped := by
  simp only [afterAll, Code.popD, Code.reg, Code.setAM, Code.setD, List.foldl_cons, List.foldl_nil,
    after, Linking.instruction?, grounded.register]
  rfl

theorem a_popD : (afterAll linking Code.popD machine).a = machine.memory.top := by
  simp only [afterAll, Code.popD, Code.reg, Code.setAM, Code.setD, List.foldl_cons, List.foldl_nil,
    after, Linking.instruction?, grounded.register]
  rfl

theorem memory_pushNumber (index : UInt16) :
    (afterAll linking (Code.pushNumber index.toNat) machine).memory =
      machine.memory.push index.toInt16 := by
  rw [Code.pushNumber, afterAll_append, grounded.memory_pushD]
  simp only [afterAll, Code.setD, List.foldl_cons, List.foldl_nil, after, Linking.instruction?,
    grounded.index]
  rfl

theorem memory_pushBased (base : Register) (index : UInt16) :
    (afterAll linking (Code.pushBased base index.toNat) machine).memory =
      machine.memory.push
        (machine.memory.read (machine.memory.register base + index.toInt16)) := by
  rw [Code.pushBased, afterAll_append, grounded.memory_pushD]
  simp only [afterAll, Code.setD, Code.setA, Code.reg, List.foldl_cons, List.foldl_nil, after,
    Linking.instruction?, grounded.index, grounded.register]
  rfl

theorem memory_pushCell (symbol : Symbol) :
    (afterAll linking (Code.pushCell symbol) machine).memory =
      machine.memory.push (machine.memory.read (linking.word symbol)) := by
  rw [Code.pushCell, afterAll_append, grounded.memory_pushD]
  simp only [afterAll, Code.setD, List.foldl_cons, List.foldl_nil, after, Linking.instruction?]
  rfl

theorem memory_popCell (symbol : Symbol) :
    (afterAll linking (Code.popCell symbol) machine).memory =
      machine.memory.drop.write (linking.word symbol) machine.memory.popped := by
  rw [Code.popCell, afterAll_append, ← grounded.memory_popD machine, ← grounded.d_popD machine]
  simp only [afterAll, Code.setM, List.foldl_cons, List.foldl_nil, after, Linking.instruction?]
  rfl

/--
A popped segment cell is found before the stack pointer moves, and kept in a
scratch cell meanwhile.
-/
theorem memory_popBased (base : Register) (index : UInt16) :
    (afterAll linking (Code.popBased base index.toNat) machine).memory =
      let address := machine.memory.register base + index.toInt16
      let stashed := machine.memory.write stashCell address
      stashed.drop.write address stashed.popped := by
  have kept (memory : Memory) (address : Word) :
      (memory.write stashCell address).drop.read stashCell = address := by
    rw [Memory.drop, Memory.setRegister, Memory.read_write_of_ne _ _ (by decide),
      Memory.read_write_self]
  rw [Code.popBased, afterAll_append, afterAll_append]
  have first : (afterAll linking
      [Code.reg base, Code.setD Code.m, .number index.toNat, Code.setD (.dPlusX .address),
        Code.scratch, Code.setM .d] machine).memory =
      machine.memory.write stashCell (machine.memory.register base + index.toInt16) := by
    simp only [afterAll, Code.setD, Code.setM, Code.reg, Code.scratch, List.foldl_cons,
      List.foldl_nil, after, Linking.instruction?, grounded.index, grounded.register,
      grounded.cell 13 (by decide)]
    rfl
  have last (middle : Machine) : (afterAll linking
      [Code.scratch, Code.setA Code.m, Code.setM .d] middle).memory =
      middle.memory.write (middle.memory.read stashCell) middle.d := by
    simp only [afterAll, Code.setA, Code.setM, Code.scratch, List.foldl_cons, List.foldl_nil, after,
      Linking.instruction?, grounded.cell 13 (by decide)]
    rfl
  rw [last, grounded.memory_popD, grounded.d_popD, first, kept]

/-! ## Operators -/

theorem memory_replaceTop (operator : Unary) :
    (afterAll linking (Code.replaceTop (Code.unaryComp operator)) machine).memory =
      Operator.act machine.memory (.unary operator) := by
  cases operator <;>
  · simp only [afterAll, Code.replaceTop, Code.unaryComp, Code.setA, Code.setM, Code.reg,
      List.foldl_cons, List.foldl_nil, after, Linking.instruction?, grounded.register]
    rfl

theorem memory_combineTop (operator : Binary) :
    (afterAll linking (Code.combineTop (Code.binaryComp operator)) machine).memory =
      Operator.act machine.memory (.binary operator) := by
  have below : machine.memory.drop.top = machine.memory.top - 1 := by
    rw [Memory.top, Memory.drop, Memory.register_setRegister_self]
  have last (middle : Machine) (comp : Asm.Comp) : (afterAll linking
      [Code.setA (.xMinusOne .address), Code.setM comp] middle).memory =
      middle.memory.write (middle.a - 1)
        (evaluate comp (middle.a - 1) middle.d (middle.memory.read (middle.a - 1))) := by
    simp only [afterAll, Code.setA, Code.setM, List.foldl_cons, List.foldl_nil, after,
      Linking.instruction?]
    rfl
  rw [Code.combineTop, afterAll_append, last, grounded.memory_popD, grounded.d_popD,
    grounded.a_popD, ← below, Operator.act, Memory.replaceTop]
  cases operator with
  | add => exact congrArg _ (Int16.add_comm _ _)
  | sub => rfl
  | and => exact congrArg _ (Int16.and_comm _ _)
  | or => exact congrArg _ (Int16.or_comm _ _)

/-! ## Functions -/

theorem memory_zeros (count : Nat) (machine : Machine) :
    (afterAll linking (List.replicate count (Code.pushNumber 0)).flatten machine).memory =
      Vm.clearLocals machine.memory count := by
  induction count generalizing machine with
  | zero => rfl
  | succ count ih =>
      rw [List.replicate_succ, List.flatten_cons, afterAll_append, ih, Vm.clearLocals]
      exact congrArg (Vm.clearLocals · count) (grounded.memory_pushNumber machine 0)

theorem memory_pushRegister (register : Register) :
    (afterAll linking (Code.pushRegister register) machine).memory =
      machine.memory.pushRegister register := by
  rw [Code.pushRegister, afterAll_append, grounded.memory_pushD]
  simp only [afterAll, Code.setD, Code.reg, List.foldl_cons, List.foldl_nil, after,
    Linking.instruction?, grounded.register]
  rfl

end stack

end Grounded

/-! ## Calls and returns -/

/-- Memory after a return address and the four bases are pushed. -/
def savedFrame (memory : Memory) (back : Word) : Memory :=
  ((((memory.push back).pushRegister .lcl).pushRegister .arg).pushRegister .this).pushRegister .that

/-- Memory after a call that points ARG some distance below the new top. -/
def enterAt (memory : Memory) (back distance : Word) : Memory :=
  let saved := savedFrame memory back
  let based := saved.setRegister .arg (saved.register .sp - distance)
  based.setRegister .lcl (based.register .sp)

theorem register_arg_enterAt (memory : Memory) (back distance : Word) :
    (enterAt memory back distance).register .arg =
      (savedFrame memory back).register .sp - distance := by
  rw [enterAt, Memory.register_setRegister_of_ne _ _ (by decide),
    Memory.register_setRegister_self]

/-- The code of a call before its jump. -/
def callSetup (number : Nat) (callee : String) (arguments : UInt16) : Code :=
  [.load (.returnPoint callee number), Code.setD (.x .address)] ++ Code.pushD ++
    Code.pushRegister .lcl ++ Code.pushRegister .arg ++ Code.pushRegister .this ++
    Code.pushRegister .that ++
    [Code.reg .sp, Code.setD Code.m, .number (5 + arguments.toNat), Code.setD (.dMinusX .address),
     Code.reg .arg, Code.setM .d, Code.reg .sp, Code.setD Code.m, Code.reg .lcl, Code.setM .d,
     .load (.given callee)]

/-- Memory while a function returns: its frame and its return address are put aside. -/
def leaving (memory : Memory) : Memory :=
  let framed := memory.write frameCell (memory.register .lcl)
  framed.write returnCell (Vm.backWord framed)

/-- The code of a return before its jump. -/
def returnSetup : Code :=
  [Code.reg .lcl, Code.setD Code.m, Code.frame, Code.setM .d, .number 5,
   Code.setA (.dMinusX .address), Code.setD Code.m, Code.returnAddress, Code.setM .d] ++
    (Code.popD ++
      ([Code.reg .arg, Code.setA Code.m, Code.setM .d, Code.reg .arg,
        Code.setD (.xPlusOne .memory), Code.reg .sp, Code.setM .d] ++
        (Code.restore 1 .that ++ (Code.restore 2 .this ++ (Code.restore 3 .arg ++
          (Code.restore 4 .lcl ++ [Code.returnAddress, Code.setA Code.m]))))))

namespace Grounded

variable {linking : Linking} (grounded : Grounded linking) (machine : Machine)
include grounded

theorem memory_callSetup (number : Nat) (callee : String) (arguments : UInt16) :
    (afterAll linking (callSetup number callee arguments) machine).memory =
        enterAt machine.memory (linking.word (.returnPoint callee number))
          (linking.number (5 + arguments.toNat)) ∧
      (afterAll linking (callSetup number callee arguments) machine).a =
        linking.word (.given callee) := by
  have first : (afterAll linking [.load (.returnPoint callee number), Code.setD (.x .address)]
      machine).memory = machine.memory ∧
      (afterAll linking [.load (.returnPoint callee number), Code.setD (.x .address)] machine).d =
        linking.word (.returnPoint callee number) := ⟨rfl, rfl⟩
  have last (middle : Machine) : afterAll linking
      [Code.reg .sp, Code.setD Code.m, .number (5 + arguments.toNat),
       Code.setD (.dMinusX .address), Code.reg .arg, Code.setM .d, Code.reg .sp, Code.setD Code.m,
       Code.reg .lcl, Code.setM .d, .load (.given callee)] middle =
      let based := middle.memory.setRegister .arg
        (middle.memory.register .sp - linking.number (5 + arguments.toNat))
      ⟨based.setRegister .lcl (based.register .sp), middle.pc + 11, linking.word (.given callee),
        based.register .sp⟩ := by
    simp only [afterAll, Code.setD, Code.setM, Code.reg, List.foldl_cons, List.foldl_nil, after,
      Linking.instruction?, grounded.register]
    rfl
  simp only [callSetup, afterAll_append, last, grounded.memory_pushRegister,
    grounded.memory_pushD, first, enterAt, savedFrame, and_self]

theorem memory_restore (distance : Nat) (small : distance < UInt16.size) (register : Register) :
    (afterAll linking (Code.restore distance register) machine).memory =
      Vm.restore (machine.memory.read frameCell) (.ofNat distance) register machine.memory := by
  simp only [afterAll, Code.restore, Code.setD, Code.setM, Code.setA, Code.reg, Code.frame,
    List.foldl_cons, List.foldl_nil, after, Linking.instruction?, grounded.register,
    grounded.number distance small, grounded.cell 14 (by decide)]
  rfl

theorem memory_leaving :
    (afterAll linking
      [Code.reg .lcl, Code.setD Code.m, Code.frame, Code.setM .d, .number 5,
       Code.setA (.dMinusX .address), Code.setD Code.m, Code.returnAddress, Code.setM .d]
      machine).memory = leaving machine.memory := by
  have same := machine.memory.register_write_scratch (show IsScratch frameCell by decide)
    (machine.memory.register .lcl) .lcl
  rw [leaving, Vm.backWord, same]
  simp only [afterAll, Code.setD, Code.setM, Code.setA, Code.reg, Code.frame, Code.returnAddress,
    List.foldl_cons, List.foldl_nil, after, Linking.instruction?, grounded.register,
    grounded.number 5 (by decide), grounded.cell 14 (by decide), grounded.cell 15 (by decide)]
  rfl

theorem memory_answer :
    (afterAll linking
      [Code.reg .arg, Code.setA Code.m, Code.setM .d, Code.reg .arg,
       Code.setD (.xPlusOne .memory), Code.reg .sp, Code.setM .d] machine).memory =
      let answered := machine.memory.write (machine.memory.register .arg) machine.d
      answered.setRegister .sp (answered.register .arg + 1) := by
  simp only [afterAll, Code.setD, Code.setM, Code.setA, Code.reg, List.foldl_cons, List.foldl_nil,
    after, Linking.instruction?, grounded.register]
  rfl

end Grounded

theorem read_setRegister_scratch (memory : Memory) {scratch : Word} (own : IsScratch scratch)
    (register : Register) (value : Word) :
    (memory.setRegister register value).read scratch = memory.read scratch :=
  memory.read_write_of_ne value
    (Memory.cellOf_ne_of_isScratch own (not_isScratch_register register)).symm

theorem register_leaving (memory : Memory) (register : Register) :
    (leaving memory).register register = memory.register register := by
  rw [leaving, Memory.register_write_scratch _ (by decide),
    Memory.register_write_scratch _ (by decide)]

theorem read_leaving_frameCell (memory : Memory) :
    (leaving memory).read frameCell = memory.register .lcl := by
  rw [leaving, Memory.read_write_of_ne _ _ (by decide), Memory.read_write_self]

/-- The word put aside is the one to return to, even where it was saved in a scratch cell. -/
theorem read_leaving_returnCell (memory : Memory) :
    (leaving memory).read returnCell = Vm.backWord (leaving memory) := by
  rw [Vm.backWord, register_leaving]
  by_cases same : cellOf returnCell = cellOf (memory.register .lcl - 5)
  · exact Memory.read_congr _ same
  · rw [leaving, Memory.read_write_self, Memory.read_write_of_ne _ _ same, Vm.backWord,
      Memory.register_write_scratch _ (by decide)]

/-- Memory agrees with what it is while a function returns but for scratch cells. -/
theorem agrees_leaving (memory : Memory) : Memory.Agrees memory (leaving memory) :=
  (memory.agrees_write_scratch (by decide) _).trans (Memory.agrees_write_scratch _ (by decide) _)

namespace Grounded

variable {linking : Linking} (grounded : Grounded linking) (machine : Machine)
include grounded

/--
A return whose answer is not stored over its frame or its return address
leaves memory as returning does, and has loaded the word to return to.
-/
theorem memory_returnSetup
    (apart : cellOf (machine.memory.register .arg) ≠ cellOf frameCell)
    (apart' : cellOf (machine.memory.register .arg) ≠ cellOf returnCell) :
    (afterAll linking returnSetup machine).memory = Vm.leave (leaving machine.memory) ∧
      (afterAll linking returnSetup machine).a = Vm.backWord (leaving machine.memory) := by
  have last (middle : Machine) :
      (afterAll linking [Code.returnAddress, Code.setA Code.m] middle).memory = middle.memory ∧
      (afterAll linking [Code.returnAddress, Code.setA Code.m] middle).a =
        middle.memory.read returnCell := by
    simp only [afterAll, Code.setA, Code.returnAddress, List.foldl_cons, List.foldl_nil, after,
      Linking.instruction?, grounded.cell 15 (by decide)]
    exact ⟨rfl, rfl⟩
  -- No restored register is a scratch cell, and neither is the cell of the answer.
  have scratch {cell : Word} (own : IsScratch cell)
      (free : cellOf (machine.memory.register .arg) ≠ cellOf cell) (value : Word) :
      ((leaving machine.memory).drop.write ((leaving machine.memory).drop.register .arg)
        value).read cell = (leaving machine.memory).read cell := by
    have target : (leaving machine.memory).drop.register .arg = machine.memory.register .arg := by
      rw [Memory.drop, Memory.register_setRegister_of_ne _ _ (by decide), register_leaving]
    rw [target, Memory.read_write_of_ne _ _ free, Memory.drop, read_setRegister_scratch _ own]
  have frame := scratch (show IsScratch frameCell by decide) apart
  have back := scratch (show IsScratch returnCell by decide) apart'
  have lcl : (leaving machine.memory).read frameCell = (leaving machine.memory).register .lcl := by
    rw [read_leaving_frameCell, register_leaving]
  have one := fun middle => grounded.memory_restore middle 1 (by decide) .that
  have two := fun middle => grounded.memory_restore middle 2 (by decide) .this
  have three := fun middle => grounded.memory_restore middle 3 (by decide) .arg
  have four := fun middle => grounded.memory_restore middle 4 (by decide) .lcl
  simp only [returnSetup, afterAll_append, last, one, two, three, four, grounded.memory_answer,
    grounded.memory_popD, grounded.d_popD, grounded.memory_leaving, Vm.restore,
    read_setRegister_scratch _ (show IsScratch frameCell by decide),
    read_setRegister_scratch _ (show IsScratch returnCell by decide), frame, back, lcl,
    read_leaving_returnCell]
  exact ⟨rfl, trivial⟩

end Grounded

end HackToolchain.Cpu
