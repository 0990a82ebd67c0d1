import HackToolchain.Asm.Program

/-!
# The machine

The machine has a program counter, an address register, a data register and
memory, and executes one instruction a step.  Arithmetic wraps at sixteen bits.
It stops when the program counter leaves the program.
-/

namespace HackToolchain.Cpu

open HackToolchain.Asm

/-- The state of the machine. -/
structure Machine where
  memory : Memory
  /-- The place of the next instruction. -/
  pc : Nat
  a : Word
  d : Word

/-- The value of an expression. -/
def evaluate (comp : Comp) (a d m : Word) : Word :=
  let pick (operand : Operand) : Word :=
    match operand with
    | .address => a
    | .memory => m
  match comp with
  | .zero => 0
  | .one => 1
  | .minusOne => -1
  | .d => d
  | .notD => ~~~d
  | .negD => -d
  | .dPlusOne => d + 1
  | .dMinusOne => d - 1
  | .x operand => pick operand
  | .notX operand => ~~~pick operand
  | .negX operand => -pick operand
  | .xPlusOne operand => pick operand + 1
  | .xMinusOne operand => pick operand - 1
  | .dPlusX operand => d + pick operand
  | .dMinusX operand => d - pick operand
  | .xMinusD operand => pick operand - d
  | .dAndX operand => d &&& pick operand
  | .dOrX operand => d ||| pick operand

/-- Whether a jump is taken on a value. -/
def isTaken (jump : Jump) (value : Word) : Bool :=
  match jump with
  | .never => false
  | .gt => 0 < value
  | .eq => value == 0
  | .ge => 0 ≤ value
  | .lt => value < 0
  | .ne => value != 0
  | .le => value ≤ 0
  | .always => true

namespace Machine

def initial : Machine :=
  ⟨Memory.cleared, 0, 0, 0⟩

/--
Execute an instruction.  The old address register selects both the cell that is
stored into and the place a jump goes to.
-/
def execute (instruction : Instruction) : Machine → Machine
  | ⟨memory, pc, a, d⟩ =>
      match instruction with
      | .load value => ⟨memory, pc + 1, value, d⟩
      | .compute ⟨dest, comp, jump⟩ =>
          let value := evaluate comp a d (memory.read a)
          { memory := if dest.m then memory.write a value else memory
            pc := if isTaken jump value then a.toUInt16.toNat else pc + 1
            a := if dest.a then value else a
            d := if dest.d then value else d }

/-- The next state, unless the program counter is outside the program. -/
def step? (rom : Array Instruction) (machine : Machine) : Option Machine :=
  if inside : machine.pc < rom.size then some (machine.execute rom[machine.pc]) else none

/-- The number of steps a run may not reach. -/
def stepLimit : Nat := 2000000

/-- Why a run does not come to its end. -/
inductive Stuck where
  | endless
  | unknownLabel
  /-- The program stopped before it came to a label. -/
  | ranOff (label : String)
  /-- The program did not come to a label within the steps allowed. -/
  | neverReached (label : String)
  deriving DecidableEq, Repr

def Stuck.message : Stuck → String
  | endless => "program did not halt"
  | unknownLabel => "unknown label"
  | ranOff label => "ran off the end before " ++ label
  | neverReached label => "never reached " ++ label

/-- Run until the program stops.  The state is kept when the steps are used up. -/
def runFor (rom : Array Instruction) : Nat → Machine → Except Stuck Unit × Machine
  | 0, machine => (.error .endless, machine)
  | steps + 1, machine =>
      if inside : machine.pc < rom.size then runFor rom steps (machine.execute rom[machine.pc])
      else (.ok (), machine)

/-- Run until the program counter comes to the place of a label. -/
def runToFor (rom : Array Instruction) (label : String) (place : Nat) :
    Nat → Machine → Except Stuck Unit × Machine
  | 0, machine => (.error (.neverReached label), machine)
  | steps + 1, machine =>
      if machine.pc = place then (.ok (), machine)
      else if inside : machine.pc < rom.size then
        runToFor rom label place steps (machine.execute rom[machine.pc])
      else (.error (.ranOff label), machine)

theorem runFor_succ (rom : Array Instruction) (steps : Nat) (machine : Machine) :
    runFor rom (steps + 1) machine =
      match machine.step? rom with
      | none => (.ok (), machine)
      | some next => runFor rom steps next := by
  simp only [runFor, step?]
  split <;> rfl

theorem runToFor_succ (rom : Array Instruction) (label : String) (place steps : Nat)
    (machine : Machine) :
    runToFor rom label place (steps + 1) machine =
      if machine.pc = place then (.ok (), machine)
      else
        match machine.step? rom with
        | none => (.error (.ranOff label), machine)
        | some next => runToFor rom label place steps next := by
  simp only [runToFor, step?]
  split
  · rfl
  · split <;> rfl

/-- Run a program until it stops. -/
def run (program : Program) (machine : Machine) : Except Stuck Unit × Machine :=
  machine.runFor program.rom stepLimit

/-- Run a program until it comes to a label. -/
def runTo (program : Program) (label : String) (machine : Machine) :
    Except Stuck Unit × Machine :=
  match program.label? label with
  | none => (.error .unknownLabel, machine)
  | some place => machine.runToFor program.rom label place stepLimit

def store (start : Nat) (words : List Word) (machine : Machine) : Machine :=
  { machine with memory := machine.memory.store start words }

/-- Set the stack pointer and the segment bases for code that runs without a bootstrap. -/
def setBases (machine : Machine) : Machine :=
  machine.store 0 [256, 300, 400, 3000, 3010]

def sp (machine : Machine) : Word :=
  machine.memory[Register.sp.address]

/-- The words of the stack from its base, unless SP lies below the base. -/
def stack? (machine : Machine) : Option (List Word) :=
  if machine.sp < 256 then none
  else some (machine.memory.words 256 (machine.sp.toUInt16.toNat - 256))

end Machine

end HackToolchain.Cpu
