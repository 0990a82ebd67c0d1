import HackToolchain.Asm.Line
import HackToolchain.Codegen.Symbol
import HackToolchain.Vm.Command

/-!
# Code of commands

Every command has a fixed block of assembly lines.  The stack grows upwards
and SP points above its top.  Blocks use the cells R13 to R15 for scratch: R13
holds the destination of a pop or the second operand of a comparison, R14 the
frame and R15 the return address while a function returns.
-/

namespace HackToolchain.Codegen

open HackToolchain.Vm

/-- A block of assembly lines over structured symbols. -/
abbrev Code := List (Asm.Line Symbol)

namespace Code

/-- Load the address of a register. -/
def reg (register : Asm.Register) : Asm.Line Symbol :=
  .load (.register register)

def setA (comp : Asm.Comp) : Asm.Line Symbol :=
  .compute ⟨⟨true, false, false⟩, comp, .never⟩

def setD (comp : Asm.Comp) : Asm.Line Symbol :=
  .compute ⟨⟨false, true, false⟩, comp, .never⟩

/-- Store a value in the cell pointed to. -/
def setM (comp : Asm.Comp) : Asm.Line Symbol :=
  .compute ⟨⟨false, false, true⟩, comp, .never⟩

/-- Store a value in the address register and in the cell it pointed to. -/
def setAM (comp : Asm.Comp) : Asm.Line Symbol :=
  .compute ⟨⟨true, false, true⟩, comp, .never⟩

/-- Jump to the loaded address depending on D. -/
def jumpD (jump : Asm.Jump) : Asm.Line Symbol :=
  .compute ⟨⟨false, false, false⟩, .d, jump⟩

def jump : Asm.Line Symbol :=
  .compute ⟨⟨false, false, false⟩, .zero, .always⟩

/-- The word that A points to. -/
def m : Asm.Comp := .x .memory

/-- The scratch cell for the destination of a pop. -/
def scratch : Asm.Line Symbol := .load (.cell 13)

/-- The scratch cell for the frame of a returning function. -/
def frame : Asm.Line Symbol := .load (.cell 14)

/-- The scratch cell for the return address of a returning function. -/
def returnAddress : Asm.Line Symbol := .load (.cell 15)

def pushD : Code :=
  [reg .sp, setM (.xPlusOne .memory), setA (.xMinusOne .memory), setM .d]

/-- Pop into D, with A left at the vacated cell. -/
def popD : Code :=
  [reg .sp, setAM (.xMinusOne .memory), setD m]

def pushNumber (number : Nat) : Code :=
  [.number number, setD (.x .address)] ++ pushD

/-- Push the cell at an index from the base in a register. -/
def pushBased (base : Asm.Register) (index : Nat) : Code :=
  [reg base, setD m, .number index, setA (.dPlusX .address), setD m] ++ pushD

/-- Push the cell of a symbol. -/
def pushCell (symbol : Symbol) : Code :=
  [.load symbol, setD m] ++ pushD

/--
Pop into the cell at an index from the base in a register.  The destination is
put aside before SP moves, because D alone cannot hold it and the popped word.
-/
def popBased (base : Asm.Register) (index : Nat) : Code :=
  [reg base, setD m, .number index, setD (.dPlusX .address), scratch, setM .d] ++ popD ++
    [scratch, setA m, setM .d]

/-- Pop into the cell of a symbol. -/
def popCell (symbol : Symbol) : Code :=
  popD ++ [.load symbol, setM .d]

/-- Replace the top word by a value computed from it. -/
def replaceTop (comp : Asm.Comp) : Code :=
  [reg .sp, setA (.xMinusOne .memory), setM comp]

/-- Replace the two top words by a value computed from them: D holds the upper one. -/
def combineTop (comp : Asm.Comp) : Code :=
  popD ++ [setA (.xMinusOne .address), setM comp]

/-- The cell of a pointer; the sum of sixteen bits wraps only far beyond the segment. -/
def pointerCell (index : UInt16) : Symbol :=
  if index = 0 then .register .this
  else if index = 1 then .register .that
  else .cell (3 + index).toNat

/-- The cell of a temporary word; the sum of sixteen bits wraps only far beyond the segment. -/
def tempCell (index : UInt16) : Symbol :=
  .cell (5 + index).toNat

def push (unit : String) (segment : Segment) (index : UInt16) : Code :=
  match segment with
  | .constant => pushNumber index.toNat
  | .statics => pushCell (.static unit index)
  | .temp => pushCell (tempCell index)
  | .pointer => pushCell (pointerCell index)
  | .locals => pushBased .lcl index.toNat
  | .arguments => pushBased .arg index.toNat
  | .this => pushBased .this index.toNat
  | .that => pushBased .that index.toNat

/-- The code of a pop in a source unit; a pop into a constant drops the word. -/
def pop (unit : String) (segment : Segment) (index : UInt16) : Code :=
  match segment with
  | .constant => [reg .sp, setM (.xMinusOne .memory)]
  | .statics => popCell (.static unit index)
  | .temp => popCell (tempCell index)
  | .pointer => popCell (pointerCell index)
  | .locals => popBased .lcl index.toNat
  | .arguments => popBased .arg index.toNat
  | .this => popBased .this index.toNat
  | .that => popBased .that index.toNat

/--
Pop the upper operand and leave in D a word with the sign of the difference of
the lower and the upper one.  When the operands differ in sign, the difference
may overflow and the sign of the lower one decides.
-/
def difference (place : Mark → Symbol) : Code :=
  popD ++
    [scratch, setM .d, reg .sp, setA (.xMinusOne .memory), setD m,
     .load (place .negative), jumpD .lt,
     scratch, setD m, .load (place .sameSign), jumpD .ge, setD .one, .load (place .test), jump,
     .declare (place .negative),
     scratch, setD m, .load (place .sameSign), jumpD .lt, setD .minusOne, .load (place .test), jump,
     .declare (place .sameSign),
     scratch, setD m, reg .sp, setA (.xMinusOne .memory), setD (.xMinusD .memory),
     .declare (place .test)]

/-- The jump that is taken when a comparison with zero holds. -/
def comparisonJump : Comparison → Asm.Jump
  | .eq => .eq
  | .gt => .gt
  | .lt => .lt

/--
Compare the two top words.  For equality the wrapping difference is exact: it
is zero only for equal words.
-/
def compare (unit : String) (number : Nat) (comparison : Comparison) : Code :=
  let place (mark : Mark) : Symbol := .mark unit mark number
  (match comparison with
    | .eq => popD ++ [setA (.xMinusOne .address), setD (.xMinusD .memory)]
    | .gt | .lt => difference place) ++
  [.load (place .holds), jumpD (comparisonJump comparison), setD .zero, .load (place .done), jump,
   .declare (place .holds), setD .minusOne, .declare (place .done),
   reg .sp, setA (.xMinusOne .memory), setM .d]

/-- The value that replaces the top word. -/
def unaryComp : Unary → Asm.Comp
  | .neg => .negX .memory
  | .not => .notX .memory

/-- The value that replaces the two top words. -/
def binaryComp : Binary → Asm.Comp
  | .add => .dPlusX .memory
  | .sub => .xMinusD .memory
  | .and => .dAndX .memory
  | .or => .dOrX .memory

def operate (unit : String) (number : Nat) : Operator → Code
  | .unary operator => replaceTop (unaryComp operator)
  | .binary operator => combineTop (binaryComp operator)
  | .compare comparison => compare unit number comparison

/-- Jump to a label if the popped word is not zero. -/
def ifGoto (name : String) : Code :=
  popD ++ [.load (.given name), jumpD .ne]

/-- Declare a function and push a zero for each of its locals. -/
def function (name : String) (locals : UInt16) : Code :=
  .declare (.given name) :: (List.replicate locals.toNat (pushNumber 0)).flatten

def pushRegister (register : Asm.Register) : Code :=
  [reg register, setD m] ++ pushD

/--
Call a function: push the return address and the four bases, point ARG below
the arguments and LCL at the new top, and jump.
-/
def call (number : Nat) (callee : String) (arguments : UInt16) : Code :=
  let back : Symbol := .returnPoint callee number
  [.load back, setD (.x .address)] ++ pushD ++
    pushRegister .lcl ++ pushRegister .arg ++ pushRegister .this ++ pushRegister .that ++
    [reg .sp, setD m, .number (5 + arguments.toNat), setD (.dMinusX .address), reg .arg, setM .d,
     reg .sp, setD m, reg .lcl, setM .d,
     .load (.given callee), jump, .declare back]

/-- Restore a register from its place below the frame. -/
def restore (distance : Nat) (register : Asm.Register) : Code :=
  [frame, setD m, .number distance, setA (.dMinusX .address), setD m, reg register, setM .d]

/--
Return from a function.  The return address is put aside first, because the
returned word may be stored over it.
-/
def ret : Code :=
  [reg .lcl, setD m, frame, setM .d,
   .number 5, setA (.dMinusX .address), setD m, returnAddress, setM .d] ++
    popD ++ [reg .arg, setA m, setM .d, reg .arg, setD (.xPlusOne .memory), reg .sp, setM .d] ++
    restore 1 .that ++ restore 2 .this ++ restore 3 .arg ++ restore 4 .lcl ++
    [returnAddress, setA m, jump]

/-- The first cell of the stack. -/
def stackBase : Nat := 256

/-- Set SP and call the entry function without arguments. -/
def bootstrap (number : Nat) (entry : String) : Code :=
  [.number stackBase, setD (.x .address), reg .sp, setM .d] ++ call number entry 0

/-- The code of a command in a source unit; the number is that of its own labels. -/
def ofCommand (unit : String) (number : Nat) : Command → Code
  | .push segment index => push unit segment index
  | .pop segment index => pop unit segment index
  | .operate operator => operate unit number operator
  | .label name => [.declare (.given name)]
  | .goto name => [.load (.given name), jump]
  | .ifGoto name => ifGoto name
  | .function name locals => function name locals
  | .call name arguments => call number name arguments
  | .ret => ret

/-- The lines of a block with their symbols named. -/
def named (code : Code) : List (Asm.Line String) :=
  code.map (Asm.Line.map Symbol.text)

end Code

end HackToolchain.Codegen
