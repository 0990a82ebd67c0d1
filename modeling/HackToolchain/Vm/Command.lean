import HackToolchain.Vm.Name
import HackToolchain.Vm.Segment

/-!
# Commands of the stack machine

The commands move words between the stack and the segments, combine the words
on top of the stack, and direct control through labels and functions.  Each
command has one canonical line of text.
-/

namespace HackToolchain.Vm

/-- Operators that replace the top word. -/
inductive Unary where
  | neg
  | not
  deriving DecidableEq, Repr

/-- Operators that replace the two top words by a word computed from them. -/
inductive Binary where
  | add
  | sub
  | and
  | or
  deriving DecidableEq, Repr

/-- Operators that replace the two top words by a truth value. -/
inductive Comparison where
  | eq
  | gt
  | lt
  deriving DecidableEq, Repr

/-- The nine operators. -/
inductive Operator where
  | unary (operator : Unary)
  | binary (operator : Binary)
  | compare (comparison : Comparison)
  deriving DecidableEq, Repr

namespace Operator

def name : Operator → String
  | binary .add => "add"
  | binary .sub => "sub"
  | unary .neg => "neg"
  | compare .eq => "eq"
  | compare .gt => "gt"
  | compare .lt => "lt"
  | binary .and => "and"
  | binary .or => "or"
  | unary .not => "not"

def all : List Operator :=
  [binary .add, binary .sub, unary .neg, compare .eq, compare .gt, compare .lt, binary .and,
   binary .or, unary .not]

end Operator

/-- One command of the stack machine. -/
inductive Command where
  /-- Put the word of a segment cell on the stack. -/
  | push (segment : Segment) (index : UInt16)
  /-- Move the top word into a segment cell. -/
  | pop (segment : Segment) (index : UInt16)
  /-- Combine the words on top of the stack. -/
  | operate (operator : Operator)
  | label (name : String)
  | goto (name : String)
  /-- Continue at a label if the popped word is not zero. -/
  | ifGoto (name : String)
  /-- Start a function that clears this many locals. -/
  | function (name : String) (locals : UInt16)
  /-- Call a function with this many words of the stack as arguments. -/
  | call (name : String) (arguments : UInt16)
  /-- Return the top word to the caller. -/
  | ret
  deriving DecidableEq, Repr

namespace Command

/-- The canonical line of a command. -/
def text : Command → String
  | push segment index => "push " ++ segment.name ++ " " ++ toString index.toNat
  | pop segment index => "pop " ++ segment.name ++ " " ++ toString index.toNat
  | operate operator => operator.name
  | label name => "label " ++ name
  | goto name => "goto " ++ name
  | ifGoto name => "if-goto " ++ name
  | function name locals => "function " ++ name ++ " " ++ toString locals.toNat
  | call name arguments => "call " ++ name ++ " " ++ toString arguments.toNat
  | ret => "return"

/--
Commands that source text can express: names are symbols, indices lie inside
their segments, and nothing is popped into a constant.
-/
def Valid : Command → Prop
  | push segment index => segment.Allows index
  | pop segment index => segment.Allows index ∧ segment ≠ .constant
  | label name | goto name | ifGoto name => isSymbol name.toList
  | function name _ | call name _ => isSymbol name.toList
  | operate _ | ret => True

instance : DecidablePred Valid := fun command => by
  cases command <;> unfold Valid <;> infer_instance

end Command

end HackToolchain.Vm
