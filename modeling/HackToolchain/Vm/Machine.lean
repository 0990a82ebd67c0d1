import HackToolchain.Memory.Stack
import HackToolchain.Vm.Item

/-!
# The stack machine

What the items of a program mean, on memory alone: the stack, the segments and
the saved registers of calling functions all live in the cells of one memory.
A layout says which cell a static variable has and which word stands for a
place to return to.
-/

namespace HackToolchain.Vm

/-- Where a program keeps what its text does not say. -/
structure Layout where
  /-- The cell of a static variable of a unit. -/
  staticCell : String → UInt16 → Word
  /-- The word that stands for the place before an item, or for the end. -/
  placeWord : Nat → Word

/-- The word of a truth value: all bits or none. -/
def truth (holds : Bool) : Word :=
  if holds then -1 else 0

/-- What a unary operator computes. -/
def Unary.apply : Unary → Word → Word
  | neg, word => -word
  | not, word => ~~~word

/-- What a binary operator computes from the lower and the upper word. -/
def Binary.apply : Binary → Word → Word → Word
  | add, lower, upper => lower + upper
  | sub, lower, upper => lower - upper
  | and, lower, upper => lower &&& upper
  | or, lower, upper => lower ||| upper

/-- What a comparison says of the lower and the upper word, as signed numbers. -/
def Comparison.apply : Comparison → Word → Word → Word
  | eq, lower, upper => truth (lower == upper)
  | gt, lower, upper => truth (upper < lower)
  | lt, lower, upper => truth (lower < upper)

/-- Memory after an operator has replaced the words it works on. -/
def Operator.act (memory : Memory) : Operator → Memory
  | unary operator => memory.replaceTop (operator.apply (memory.read memory.top))
  | binary operator =>
      let lower := memory.drop.read memory.drop.top
      memory.drop.replaceTop (operator.apply lower memory.popped)
  | compare comparison =>
      let lower := memory.drop.read memory.drop.top
      memory.drop.replaceTop (comparison.apply lower memory.popped)

namespace Segment

/-- The address of a segment cell; constants have none. -/
def address? (layout : Layout) (unit : String) (memory : Memory) (index : UInt16) :
    Segment → Option Word
  | constant => none
  | locals => some (memory.register .lcl + index.toInt16)
  | arguments => some (memory.register .arg + index.toInt16)
  | this => some (memory.register .this + index.toInt16)
  | that => some (memory.register .that + index.toInt16)
  | pointer => some (3 + index.toInt16)
  | temp => some (5 + index.toInt16)
  | statics => some (layout.staticCell unit index)

/-- Memory after the word of a segment cell is pushed. -/
def push (layout : Layout) (unit : String) (memory : Memory) (index : UInt16)
    (segment : Segment) : Memory :=
  match segment.address? layout unit memory index with
  | some address => memory.push (memory.read address)
  | none => memory.push index.toInt16

/-- Memory after the top word is moved to a segment cell, whose address is found first. -/
def pop (layout : Layout) (unit : String) (memory : Memory) (index : UInt16)
    (segment : Segment) : Memory :=
  match segment.address? layout unit memory index with
  | some address => memory.drop.write address memory.popped
  | none => memory.drop

end Segment

/-- Memory after zeros are pushed for the locals of a function. -/
def clearLocals (memory : Memory) : Nat → Memory
  | 0 => memory
  | count + 1 => clearLocals (memory.push 0) count

/--
Memory after a call.  The word to return to and the four bases are saved, ARG
points to the arguments below them and LCL above them.
-/
def enter (memory : Memory) (back : Word) (arguments : UInt16) : Memory :=
  let saved :=
    ((((memory.push back).pushRegister .lcl).pushRegister .arg).pushRegister .this).pushRegister
      .that
  let based := saved.setRegister .arg (saved.register .sp - (5 + arguments.toInt16))
  based.setRegister .lcl (based.register .sp)

/-- Memory after a register is restored from its place below a frame. -/
def restore (frame distance : Word) (register : Asm.Register) (memory : Memory) : Memory :=
  memory.setRegister register (memory.read (frame - distance))

/--
Memory after a return.  The top word replaces the first argument, SP points
above it, and the bases are restored from below the frame.
-/
def leave (memory : Memory) : Memory :=
  let frame := memory.register .lcl
  let answered := memory.drop.write (memory.drop.register .arg) memory.popped
  let shortened := answered.setRegister .sp (answered.register .arg + 1)
  restore frame 4 .lcl (restore frame 3 .arg
    (restore frame 2 .this (restore frame 1 .that shortened)))

/-- The word that a function returns to, saved below its frame. -/
def backWord (memory : Memory) : Word :=
  memory.read (memory.register .lcl - 5)

/-- The position of the item that declares a name. -/
def declaration? (items : List Item) (name : String) : Option Nat :=
  items.findIdx? fun item => item.declared? == some name

/-- The first position whose place a word stands for. -/
def position? (layout : Layout) (items : List Item) (word : Word) : Option Nat :=
  (List.range (items.length + 1)).find? fun position => layout.placeWord position == word

/-- A state of the stack machine. -/
structure State where
  /-- The number of items before the next one. -/
  position : Nat
  memory : Memory

namespace State

/-- The state at the next item. -/
def next (state : State) (memory : Memory) : State :=
  ⟨state.position + 1, memory⟩

/-- The state at a declared name; none if nothing declares it. -/
def goto? (items : List Item) (name : String) (memory : Memory) : Option State :=
  (declaration? items name).map fun position => ⟨position, memory⟩

/-- The state after a command of a unit. -/
def command? (layout : Layout) (items : List Item) (unit : String) (state : State) :
    Command → Option State
  | .push segment index => some (state.next (segment.push layout unit state.memory index))
  | .pop segment index => some (state.next (segment.pop layout unit state.memory index))
  | .operate operator => some (state.next (operator.act state.memory))
  | .label _ => some (state.next state.memory)
  | .goto name => goto? items name state.memory
  | .ifGoto name =>
      if state.memory.popped = 0 then some (state.next state.memory.drop)
      else goto? items name state.memory.drop
  | .function _ locals => some (state.next (clearLocals state.memory locals.toNat))
  | .call name arguments =>
      goto? items name (enter state.memory (layout.placeWord (state.position + 1)) arguments)
  | .ret =>
      (position? layout items (backWord state.memory)).map fun position =>
        ⟨position, leave state.memory⟩

/-- The next state; none at the end of the items and where a name or a place is unknown. -/
def step? (layout : Layout) (items : List Item) (state : State) : Option State :=
  match items[state.position]? with
  | none => none
  | some (.start entry) =>
      let based := state.memory.setRegister .sp 256
      goto? items entry (enter based (layout.placeWord (state.position + 1)) 0)
  | some (.command unit command) => state.command? layout items unit command

end State

end HackToolchain.Vm
