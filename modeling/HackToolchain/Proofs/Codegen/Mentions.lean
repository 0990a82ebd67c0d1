import HackToolchain.Proofs.Codegen.Labels
import HackToolchain.Proofs.Codegen.SoundItems

/-!
# What code mentions

Apart from registers and numbered cells, the code of an item mentions the name
that the item declares or aims at, its static variable, and labels of its own.
Every number in it fits sixteen bits, except perhaps the one that a call
subtracts from the stack pointer.
-/

namespace HackToolchain.Vm

namespace Item

/-- The name an item may continue at. -/
def target? : Item → Option String
  | start name | command _ (.goto name) | command _ (.ifGoto name) | command _ (.call name _) =>
      some name
  | _ => none

/-- The static variable of an item, by its unit and index. -/
def static? : Item → Option (String × UInt16)
  | command unit (.push .statics index) | command unit (.pop .statics index) => some (unit, index)
  | _ => none

/-- How far below the new top a call points ARG. -/
def distance? : Item → Option Nat
  | command _ (.call _ arguments) => some (5 + arguments.toNat)
  | _ => none

end Item

end HackToolchain.Vm

namespace HackToolchain.Codegen

open HackToolchain.Asm (Line)
open HackToolchain.Vm

/-- Symbols that stand for something of the source: a name it gives or a variable of a unit. -/
def Symbol.isSourced : Symbol → Bool
  | given _ | static _ _ => true
  | _ => false

/-- The symbols that the code of an item mentions, given its number. -/
def Mentioned (number : Nat) (item : Item) : Symbol → Prop
  | .register _ => True
  | .cell index => index < 16
  | .given name => item.declared? = some name ∨ item.target? = some name
  | .static unit index => item.static? = some (unit, index)
  | .mark unit place own => .mark unit place own ∈ itemLabels number item
  | .returnPoint callee own => .returnPoint callee own ∈ itemLabels number item

/-- The numbers that the code of an item loads. -/
def Loaded (item : Item) (value : Nat) : Prop :=
  value < UInt16.size ∨ item.distance? = some value

namespace Code

/-- Code whose symbols and numbers are as described. -/
def Mentions (symbols : Symbol → Prop) (numbers : Nat → Prop) (code : Code) : Prop :=
  ∀ line ∈ code, (∀ symbol ∈ line.declared?, symbols symbol) ∧
    (∀ symbol ∈ line.loaded?, symbols symbol) ∧ (∀ value ∈ line.number?, numbers value) ∧
      line.isRemark = false

variable {symbols : Symbol → Prop} {numbers : Nat → Prop}

@[simp] theorem mentions_nil : Mentions symbols numbers [] := by
  simp [Mentions]

@[simp] theorem mentions_append {first second : Code} :
    Mentions symbols numbers (first ++ second) ↔
      first.Mentions symbols numbers ∧ second.Mentions symbols numbers :=
  List.forall_mem_append

@[simp] theorem mentions_number {value : Nat} {rest : Code} :
    Mentions symbols numbers (.number value :: rest) ↔
      numbers value ∧ rest.Mentions symbols numbers := by
  simp [Mentions, Line.declared?, Line.loaded?, Line.number?, Line.isRemark]

@[simp] theorem mentions_load {symbol : Symbol} {rest : Code} :
    Mentions symbols numbers (.load symbol :: rest) ↔
      symbols symbol ∧ rest.Mentions symbols numbers := by
  simp [Mentions, Line.declared?, Line.loaded?, Line.number?, Line.isRemark]

@[simp] theorem mentions_compute {computation : Asm.Compute} {rest : Code} :
    Mentions symbols numbers (.compute computation :: rest) ↔ rest.Mentions symbols numbers := by
  simp [Mentions, Line.declared?, Line.loaded?, Line.number?, Line.isRemark]

@[simp] theorem mentions_declare {symbol : Symbol} {rest : Code} :
    Mentions symbols numbers (.declare symbol :: rest) ↔
      symbols symbol ∧ rest.Mentions symbols numbers := by
  simp [Mentions, Line.declared?, Line.loaded?, Line.number?, Line.isRemark]

end Code

section mentioned

variable {number : Nat} {item : Item}

@[simp] theorem mentioned_register (named : Asm.Register) :
    Mentioned number item (.register named) := trivial

@[simp] theorem mentioned_cell {index : Nat} : Mentioned number item (.cell index) ↔ index < 16 :=
  Iff.rfl

@[simp] theorem mentioned_given {name : String} : Mentioned number item (.given name) ↔
    item.declared? = some name ∨ item.target? = some name :=
  Iff.rfl

@[simp] theorem mentioned_static {unit : String} {index : UInt16} :
    Mentioned number item (.static unit index) ↔ item.static? = some (unit, index) :=
  Iff.rfl

@[simp] theorem mentioned_mark {unit : String} {place : Mark} {own : Nat} :
    Mentioned number item (.mark unit place own) ↔
      Symbol.mark unit place own ∈ itemLabels number item :=
  Iff.rfl

@[simp] theorem mentioned_returnPoint {callee : String} {own : Nat} :
    Mentioned number item (.returnPoint callee own) ↔
      Symbol.returnPoint callee own ∈ itemLabels number item :=
  Iff.rfl

/-- A sum that is within the numbered cells does not wrap. -/
theorem toNat_add_lt {base index : UInt16} (small : base.toNat + index.toNat < 16) :
    (base + index).toNat < 16 := by
  rw [UInt16.toNat_add]
  omega

theorem mentioned_pointerCell {index : UInt16} (allowed : Segment.pointer.Allows index) :
    Mentioned number item (Code.pointerCell index) := by
  have most : index.toNat ≤ 1 := UInt16.le_iff_toNat_le.1 (allowed 1 rfl)
  unfold Code.pointerCell
  split
  · trivial
  · split
    · trivial
    · exact toNat_add_lt (Nat.lt_of_le_of_lt (Nat.add_le_add_left most 3) (by decide))

theorem temp_lt {index : UInt16} (allowed : Segment.temp.Allows index) :
    (5 + index).toNat < 16 := by
  have most : index.toNat ≤ 7 := UInt16.le_iff_toNat_le.1 (allowed 7 rfl)
  exact toNat_add_lt (Nat.lt_of_le_of_lt (Nat.add_le_add_left most 5) (by decide))

theorem mentioned_tempCell {index : UInt16} (allowed : Segment.temp.Allows index) :
    Mentioned number item (Code.tempCell index) :=
  temp_lt allowed

theorem loaded_index (item : Item) (index : UInt16) : Loaded item index.toNat :=
  .inl index.toNat_lt_size

@[simp] theorem loaded_of_lt {value : Nat} (small : value < UInt16.size) : Loaded item value :=
  .inl small

end mentioned

namespace Code

variable {number : Nat}

theorem mentions_push {unit : String} {segment : Segment} {index : UInt16}
    (allowed : segment.Allows index) :
    (push unit segment index).Mentions (Mentioned number (.command unit (.push segment index)))
      (Loaded (.command unit (.push segment index))) := by
  cases segment with
  | pointer => simp [push, pushCell, pushD, setD, setM, setA, reg, mentioned_pointerCell allowed]
  | temp => simp [push, pushCell, pushD, setD, setM, setA, reg, mentioned_tempCell allowed]
  | statics => simp [push, pushCell, pushD, setD, setM, setA, reg, Item.static?]
  | constant => simp [push, pushNumber, pushD, setD, setM, setA, reg, loaded_index]
  | _ => simp [push, pushBased, pushD, setD, setM, setA, reg, loaded_index]

theorem mentions_pop {unit : String} {segment : Segment} {index : UInt16}
    (allowed : segment.Allows index) :
    (pop unit segment index).Mentions (Mentioned number (.command unit (.pop segment index)))
      (Loaded (.command unit (.pop segment index))) := by
  cases segment with
  | pointer => simp [pop, popCell, popD, setD, setM, setAM, reg, mentioned_pointerCell allowed]
  | temp => simp [pop, popCell, popD, setD, setM, setAM, reg, mentioned_tempCell allowed]
  | statics => simp [pop, popCell, popD, setD, setM, setAM, reg, Item.static?]
  | constant => simp [pop, setM, reg]
  | _ => simp [pop, popBased, popD, setD, setM, setA, setAM, reg, scratch, loaded_index]

theorem mentions_compare (unit : String) (number : Nat) (comparison : Comparison) :
    (compare unit number comparison).Mentions
      (Mentioned number (.command unit (.operate (.compare comparison))))
      (Loaded (.command unit (.operate (.compare comparison)))) := by
  cases comparison <;>
    simp [compare, difference, popD, setD, setM, setA, setAM, reg, jump, jumpD, scratch,
      itemLabels]

/-- A call mentions its callee and its return point, and loads how far down ARG is. -/
theorem mentions_call {symbols : Symbol → Prop} {numbers : Nat → Prop} {callee : String}
    {arguments : UInt16} (registers : ∀ named, symbols (.register named))
    (given : symbols (.given callee)) (back : symbols (.returnPoint callee number))
    (distance : numbers (5 + arguments.toNat)) :
    (call number callee arguments).Mentions symbols numbers := by
  simp [call, pushRegister, pushD, setD, setM, setA, reg, jump, registers, given, back, distance]

theorem mentions_function {symbols : Symbol → Prop} {numbers : Nat → Prop} {name : String}
    (given : symbols (.given name)) (stackPointer : symbols (.register .sp)) (zero : numbers 0)
    (locals : UInt16) : (function name locals).Mentions symbols numbers := by
  have zeros (count : Nat) :
      Mentions symbols numbers (List.replicate count (pushNumber 0)).flatten := by
    induction count with
    | zero => exact mentions_nil
    | succ count ih =>
        rw [List.replicate_succ, List.flatten_cons, mentions_append]
        exact ⟨by simp [pushNumber, pushD, setD, setM, setA, reg, stackPointer, zero], ih⟩
  exact mentions_declare.2 ⟨given, zeros locals.toNat⟩

/-- The code of a valid item mentions nothing else. -/
theorem mentions_ofItem {item : Item} (valid : item.Valid) (number : Nat) :
    (ofItem number item).Mentions (Mentioned number item) (Loaded item) := by
  cases item with
  | start entry =>
      refine mentions_append.2 ⟨?_, mentions_call (fun _ => trivial) (.inr rfl) ?_ ?_⟩
      · simp (disch := decide) [setD, setM, reg, stackBase]
      · simp [itemLabels]
      · exact loaded_of_lt (by decide)
  | command unit command =>
      cases command with
      | push segment index => exact mentions_push valid
      | pop segment index => exact mentions_pop valid.1
      | operate operator =>
          cases operator with
          | unary | binary =>
              simp [ofItem, ofCommand, operate, replaceTop, combineTop, popD, setD, setM, setA,
                setAM, reg]
          | compare comparison => exact mentions_compare unit number comparison
      | label name => exact mentions_declare.2 ⟨.inl rfl, mentions_nil⟩
      | goto name => exact mentions_load.2 ⟨.inr rfl, mentions_compute.2 mentions_nil⟩
      | ifGoto name =>
          simp [ofItem, ofCommand, ifGoto, popD, setD, setAM, reg, jumpD, Item.target?]
      | function name locals =>
          exact mentions_function (.inl rfl) trivial (loaded_of_lt (by decide)) locals
      | call name arguments =>
          exact mentions_call (fun _ => trivial) (.inr rfl) (by simp [itemLabels]) (.inr rfl)
      | ret =>
          simp (disch := decide) [ofItem, ofCommand, ret, restore, popD, setD, setM, setA, setAM,
            reg, jump, frame, returnAddress]

/-- What holds of the lines that load or declare mentioned symbols holds of all lines of an item. -/
theorem forall_mem_named {item : Item} (valid : item.Valid) {number : Nat}
    {property : Line String → Prop} (numbers : ∀ value, property (.number value))
    (computes : ∀ computation, property (.compute computation))
    (loads : ∀ symbol, Mentioned number item symbol → property (.load symbol.text))
    (declares : ∀ symbol, Mentioned number item symbol → property (.declare symbol.text)) :
    ∀ line ∈ (ofItem number item).named, property line := by
  intro line member
  obtain ⟨source, inside, rfl⟩ := List.mem_map.1 member
  obtain ⟨declared, loaded, -, plain⟩ := mentions_ofItem valid number source inside
  cases source with
  | number value => exact numbers value
  | compute computation => exact computes computation
  | load symbol => exact loads symbol (loaded symbol rfl)
  | declare symbol => exact declares symbol (declared symbol rfl)
  | remark => cases plain

/-! ## What code loads of the source -/

theorem not_isSourced_pointerCell (index : UInt16) : (pointerCell index).isSourced = false := by
  unfold pointerCell
  split
  · rfl
  · split <;> rfl

/-- Of the source, code loads the name its item continues at and its static variable, once each. -/
theorem sourced_ofItem (number : Nat) (item : Item) :
    (ofItem number item).loaded.filter Symbol.isSourced =
      (item.target?.map Symbol.given).toList ++
        (item.static?.map fun owned => Symbol.static owned.1 owned.2).toList := by
  cases item with
  | start entry => rfl
  | command unit command =>
      cases command with
      | push segment index =>
          cases segment with
          | pointer =>
              change [pointerCell index, Symbol.register .sp].filter Symbol.isSourced = []
              rw [List.filter_cons_of_neg (by simp [not_isSourced_pointerCell])]
              rfl
          | _ => rfl
      | pop segment index =>
          cases segment with
          | pointer =>
              change [Symbol.register .sp, pointerCell index].filter Symbol.isSourced = []
              rw [List.filter_cons_of_neg (by simp [Symbol.isSourced]),
                List.filter_cons_of_neg (by simp [not_isSourced_pointerCell])]
              rfl
          | _ => rfl
      | operate operator => rcases operator with (_ | _) | (_ | _ | _ | _) | (_ | _ | _) <;> rfl
      | function name locals =>
          refine List.filter_eq_nil_iff.2 fun symbol member => ?_
          rw [loaded_function name locals symbol member]
          simp [Symbol.isSourced]
      | label | goto | ifGoto | call | ret => rfl

theorem load_mem_of_mem_loaded {code : Code} {symbol : Symbol} (member : symbol ∈ code.loaded) :
    .load symbol ∈ code := by
  obtain ⟨line, inside, loads⟩ := List.mem_filterMap.1 member
  cases line with
  | load other =>
      cases loads
      exact inside
  | _ => cases loads

theorem declare_mem_of_mem_declared {code : Code} {symbol : Symbol}
    (member : symbol ∈ code.declared) : .declare symbol ∈ code := by
  obtain ⟨line, inside, declares⟩ := List.mem_filterMap.1 member
  cases line with
  | declare other =>
      cases declares
      exact inside
  | _ => cases declares

variable {item : Item}

theorem given_mem_loaded_iff {name : String} :
    Symbol.given name ∈ (ofItem number item).loaded ↔ item.target? = some name := by
  have sourced : Symbol.given name ∈ (ofItem number item).loaded ↔
      Symbol.given name ∈ (ofItem number item).loaded.filter Symbol.isSourced := by
    simp [Symbol.isSourced]
  rw [sourced, sourced_ofItem]
  simp

theorem static_mem_loaded_iff {unit : String} {index : UInt16} :
    Symbol.static unit index ∈ (ofItem number item).loaded ↔ item.static? = some (unit, index) := by
  have sourced : Symbol.static unit index ∈ (ofItem number item).loaded ↔
      Symbol.static unit index ∈ (ofItem number item).loaded.filter Symbol.isSourced := by
    simp [Symbol.isSourced]
  rw [sourced, sourced_ofItem]
  simp

end Code

end HackToolchain.Codegen
