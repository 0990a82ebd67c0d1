import HackToolchain.Asm.Instruction

/-!
# Lines of assembly text

A line loads a number or the value of a symbol into the address register,
computes, declares a label, or remarks something to the reader.  Lines are
generic in what a symbol is, so that code can be built over structured symbols
and named later.
-/

namespace HackToolchain.Asm

/-- A line of assembly text over some kind of symbols. -/
inductive Line (Symbol : Type) where
  | number (value : Nat)
  | load (symbol : Symbol)
  | compute (compute : Compute)
  | declare (symbol : Symbol)
  | remark (text : String)
  deriving DecidableEq, Repr

namespace Line

/-- Rename the symbols of a line. -/
def map {Symbol Name : Type} (rename : Symbol → Name) : Line Symbol → Line Name
  | number value => number value
  | load symbol => load (rename symbol)
  | compute instruction => compute instruction
  | declare symbol => declare (rename symbol)
  | remark text => remark text

def text : Line String → String
  | number value => "@" ++ toString value
  | load name => "@" ++ name
  | compute instruction => instruction.text
  | declare name => "(" ++ name ++ ")"
  | remark text => "// " ++ text

/-- Lines that become instructions; the others only guide the reader and the assembler. -/
def isInstruction {Symbol : Type} : Line Symbol → Bool
  | number _ | load _ | compute _ => true
  | declare _ | remark _ => false

def declared? {Symbol : Type} : Line Symbol → Option Symbol
  | declare symbol => some symbol
  | _ => none

def loaded? {Symbol : Type} : Line Symbol → Option Symbol
  | load symbol => some symbol
  | _ => none

@[simp] theorem isInstruction_map {Symbol Name : Type} (rename : Symbol → Name)
    (line : Line Symbol) : (line.map rename).isInstruction = line.isInstruction := by
  cases line <;> rfl

end Line

/-- The text of a list of lines, each ended by a line feed. -/
def render (lines : List (Line String)) : String :=
  lines.foldl (fun text line => text ++ line.text ++ "\n") ""

@[simp] theorem render_nil : render [] = "" := rfl

theorem render_append (earlier later : List (Line String)) :
    render (earlier ++ later) = render earlier ++ render later := by
  have after (start : String) (lines : List (Line String)) :
      lines.foldl (fun text line => text ++ line.text ++ "\n") start = start ++ render lines := by
    induction lines generalizing start with
    | nil => simp
    | cons first rest ih =>
        rw [render, List.foldl_cons, List.foldl_cons, ih, ih ("" ++ first.text ++ "\n")]
        simp only [String.append_assoc, String.empty_append]
  rw [render, List.foldl_append, after]
  rfl

theorem render_cons (first : Line String) (rest : List (Line String)) :
    render (first :: rest) = first.text ++ "\n" ++ render rest := by
  have split := render_append [first] rest
  simpa [render] using split

end HackToolchain.Asm
