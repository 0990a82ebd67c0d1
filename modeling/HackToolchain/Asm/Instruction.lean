/-!
# Compute instructions

A compute instruction evaluates one of 28 expressions over the registers A and
D and the memory cell M that A points to, stores the value in any of the three,
and may jump depending on the value's sign.  Every part has one written form.
-/

namespace HackToolchain.Asm

/-- The operand besides D: the address register or the cell it points to. -/
inductive Operand where
  | address
  | memory
  deriving DecidableEq, Repr

def Operand.text : Operand → String
  | address => "A"
  | memory => "M"

/-- The canonical expressions; `x` stands for the operand besides D. -/
inductive Comp where
  | zero
  | one
  | minusOne
  | d
  | notD
  | negD
  | dPlusOne
  | dMinusOne
  | x (operand : Operand)
  | notX (operand : Operand)
  | negX (operand : Operand)
  | xPlusOne (operand : Operand)
  | xMinusOne (operand : Operand)
  | dPlusX (operand : Operand)
  | dMinusX (operand : Operand)
  | xMinusD (operand : Operand)
  | dAndX (operand : Operand)
  | dOrX (operand : Operand)
  deriving DecidableEq, Repr

namespace Comp

def text : Comp → String
  | zero => "0"
  | one => "1"
  | minusOne => "-1"
  | d => "D"
  | notD => "!D"
  | negD => "-D"
  | dPlusOne => "D+1"
  | dMinusOne => "D-1"
  | x operand => operand.text
  | notX operand => "!" ++ operand.text
  | negX operand => "-" ++ operand.text
  | xPlusOne operand => operand.text ++ "+1"
  | xMinusOne operand => operand.text ++ "-1"
  | dPlusX operand => "D+" ++ operand.text
  | dMinusX operand => "D-" ++ operand.text
  | xMinusD operand => operand.text ++ "-D"
  | dAndX operand => "D&" ++ operand.text
  | dOrX operand => "D|" ++ operand.text

def all : List Comp :=
  [zero, one, minusOne, d, notD, negD, dPlusOne, dMinusOne] ++
    [Operand.address, .memory].flatMap fun operand =>
      [x operand, notX operand, negX operand, xPlusOne operand, xMinusOne operand, dPlusX operand,
       dMinusX operand, xMinusD operand, dAndX operand, dOrX operand]

def ofText? (text : List Char) : Option Comp :=
  all.find? fun comp => comp.text.toList == text

theorem ofText?_text (comp : Comp) : ofText? comp.text.toList = some comp := by
  cases comp <;> first | rfl | (rename_i operand; cases operand <;> rfl)

end Comp

/-- When a compute instruction jumps, by the sign of its value. -/
inductive Jump where
  | never
  | gt
  | eq
  | ge
  | lt
  | ne
  | le
  | always
  deriving DecidableEq, Repr

namespace Jump

/-- The written form of a jump; no jump is written as nothing. -/
def text : Jump → String
  | never => ""
  | gt => "JGT"
  | eq => "JEQ"
  | ge => "JGE"
  | lt => "JLT"
  | ne => "JNE"
  | le => "JLE"
  | always => "JMP"

def all : List Jump :=
  [never, gt, eq, ge, lt, ne, le, always]

def ofText? (text : List Char) : Option Jump :=
  all.find? fun jump => jump.text.toList == text

theorem ofText?_text (jump : Jump) : ofText? jump.text.toList = some jump := by
  cases jump <;> rfl

end Jump

/-- Where a compute instruction stores its value. -/
structure Dest where
  /-- Store it in the address register. -/
  a : Bool
  /-- Store it in the data register. -/
  d : Bool
  /-- Store it in the cell that A points to. -/
  m : Bool
  deriving DecidableEq, Repr

namespace Dest

/-- The letters of a destination, in the order A, D, M. -/
def text (dest : Dest) : String :=
  (if dest.a then "A" else "") ++ (if dest.d then "D" else "") ++ (if dest.m then "M" else "")

/-- A destination by its letters, in any order and repeated at will. -/
def ofText? (text : List Char) : Option Dest :=
  if text.all fun letter => letter == 'A' || letter == 'D' || letter == 'M' then
    some ⟨text.contains 'A', text.contains 'D', text.contains 'M'⟩
  else none

theorem ofText?_text (dest : Dest) : ofText? dest.text.toList = some dest := by
  obtain ⟨a, d, m⟩ := dest
  cases a <;> cases d <;> cases m <;> rfl

end Dest

structure Compute where
  dest : Dest
  comp : Comp
  jump : Jump
  deriving DecidableEq, Repr

def Compute.text (compute : Compute) : String :=
  (if compute.dest = ⟨false, false, false⟩ then "" else compute.dest.text ++ "=") ++
    compute.comp.text ++
      (if compute.jump = .never then "" else ";" ++ compute.jump.text)

end HackToolchain.Asm
