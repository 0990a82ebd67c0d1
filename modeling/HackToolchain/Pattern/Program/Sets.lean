import HackToolchain.Pattern.Encoding
import HackToolchain.Pattern.Program
import Std.Data.HashMap

/-!
# Programs that read one character

A program reads a character of a set byte by byte.  What several encodings have
in common is read by the same instructions, as far as those are still
remembered.
-/

namespace HackToolchain.Pattern

/--
The instructions that were added last, each with the numbers that tell what it
does.  There is a fixed number of slots for them; the digest of the numbers
says in which one an instruction is kept, until another one takes the slot.
-/
structure Recent where
  slots : Nat
  kept : Std.HashMap Nat (List Nat × Nat)

namespace Recent

def none (slots : Nat) : Recent := ⟨slots, {}⟩

/-- The digest of some numbers. -/
def digest (numbers : List Nat) : UInt64 :=
  numbers.foldl (fun digest number => (digest ^^^ UInt64.ofNat number) * 1099511628211)
    14695981039346656037

/-- The slot for some numbers. -/
def slot (recent : Recent) (numbers : List Nat) : Nat :=
  (digest numbers).toNat % recent.slots

/-- The instruction with some numbers, if it is kept. -/
def find? (recent : Recent) (numbers : List Nat) : Option Nat :=
  match recent.kept[recent.slot numbers]? with
  | some (others, instruction) => if others = numbers then some instruction else .none
  | .none => .none

def insert (recent : Recent) (numbers : List Nat) (instruction : Nat) : Recent :=
  { recent with kept := recent.kept.insert (recent.slot numbers) (numbers, instruction) }

/-- The instruction with some numbers; it is added if it is not kept. -/
def share (numbers : List Nat) (add : Assembly Nat) : StateT Recent Assembly Nat := do
  let recent ← get
  match recent.find? numbers with
  | some instruction => return instruction
  | .none => do
      let instruction ← add
      set (recent.insert numbers instruction)
      return instruction

end Recent

/--
Add what reads one of some sequences of byte intervals and goes on at a
target.  Sequences that follow one another are read together as far as they
start with the same intervals.
-/
def addSequences (target : Nat) : Nat → List (List Interval) → StateT Recent Assembly Nat
  | 0, _ => return target
  | length + 1, sequences => do
      if sequences.all List.isEmpty then return target
      else
        let groups := sequences.splitBy fun first second => first.head? == second.head?
        let branches ← groups.mapM fun group => do
          let next ← addSequences target length (group.map List.tail)
          let interval := (group.head?.bind List.head?).getD ⟨0, 0⟩
          return [interval.first, interval.last, next]
        Recent.share branches.flatten (Assembly.reading branches.length)

/-- Add what reads a sequence of byte intervals backwards and goes on at a target. -/
def addBackwards (target : Nat) : List Interval → StateT Recent Assembly Nat
  | [] => return target
  | interval :: rest => do
      let next ← Recent.share [target, interval.first, interval.last] Assembly.instruction
      addBackwards next rest

/-- The longest encoding of a character. -/
def longestEncoding : Nat := 4

/-- Add what reads a character of some intervals. -/
def addSet (direction : Direction) (intervals : List Interval) : Assembly Unit :=
  if intervals.getLast?.all fun interval => interval.last < 0x80 then do
    let _ ← Assembly.instruction
    let _ ← Assembly.reading intervals.length
  else
    let sequences := intervals.flatMap Interval.byteSequences
    match direction with
    | .forward => do
        let target ← Assembly.instruction
        let _ ← (addSequences target longestEncoding sequences).run (.none 10000)
    | .backward => do
        let _ ← Assembly.instruction
        let target ← Assembly.instruction
        let _ ← (sequences.forM fun sequence => do
          let _ ← addBackwards target sequence
          Assembly.branch 1 : StateT Recent Assembly Unit).run (.none 1000)

end HackToolchain.Pattern
