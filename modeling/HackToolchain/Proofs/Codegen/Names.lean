import HackToolchain.Proofs.Codegen.Declarations
import HackToolchain.Proofs.Codegen.Placement
import HackToolchain.Proofs.Codegen.Renumbering
import Mathlib.Data.List.Dedup

/-!
# Names in an assembled program

When the names that a program declares are its own, every name in its text is
either predefined, or a label, or the name of a static variable; the numbers
that no load can hold are taken for variables too.  Statics have cells of their
own from 16 on.
-/

namespace HackToolchain.Asm

/-- A name with a character that no predefined name has is looked up in vain. -/
theorem lookup_predefinedTable {name : String} {character : Char}
    (member : character ∈ name.toList)
    (foreign : ∀ entry ∈ predefinedTable, character ∉ entry.1.toList) :
    predefinedTable.lookup name = none := by
  rw [List.lookup_eq_none_iff]
  intro entry inside
  rw [bne_iff_ne]
  intro same
  exact foreign entry inside (same ▸ member)

theorem predefined?_of_dot {name : String} (dot : '.' ∈ name.toList) : predefined? name = none := by
  rw [predefined?, lookup_predefinedTable dot (by decide)]
  dsimp only
  split
  next digits same =>
    rw [same, List.mem_cons] at dot
    have inside : '.' ∈ digits := dot.resolve_left (by decide)
    rw [readSigned16?_of_mem inside rfl (by decide)]
    rfl
  next => rfl

theorem predefined?_toString (number : Nat) : predefined? (toString number) = none := by
  have text : (toString number).toList = Text.numeral number := by
    rw [Text.toString_eq_numeral, String.toList_ofList]
  obtain ⟨first, rest, cut⟩ := List.exists_cons_of_ne_nil (Text.numeral_ne_nil number)
  have digit : first.isDigit := Line.digit_of_mem_numeral (cut ▸ List.mem_cons_self)
  have foreign : ∀ entry ∈ predefinedTable, first ∉ entry.1.toList := by
    have letters : predefinedTable.all fun entry => entry.1.toList.all (!·.isDigit) := by decide
    intro entry inside member
    have letter := List.all_eq_true.1 (List.all_eq_true.1 letters entry inside) first member
    rw [digit] at letter
    cases letter
  rw [predefined?, lookup_predefinedTable (by rw [text, cut]; exact List.mem_cons_self) foreign]
  dsimp only
  split
  next digits same =>
    rw [text, cut, List.cons.injEq] at same
    rw [same.1] at digit
    cases digit
  next => rfl

theorem predefined?_register (register : Register) :
    predefined? register.name = some (.ofNat register.address) := by
  cases register <;> rfl

theorem predefined?_cell {number : Nat} (small : number < 16) :
    predefined? ("R" ++ toString number) = some (.ofNat number) := by
  have all : ∀ number < 16, predefined? ("R" ++ toString number) = some (.ofNat number) := by
    decide
  exact all number small

end HackToolchain.Asm

namespace HackToolchain.Codegen

open HackToolchain.Asm (IsVariable KeepsLine Line)
open HackToolchain.Vm

/--
Programs whose names are their own: no declared name is predefined or looks
like a name that generated code makes, and every name aimed at is declared.
-/
structure OwnNames (items : List Item) : Prop where
  own : ∀ name ∈ givenNames items, Asm.predefined? name = none
  plain : ∀ name ∈ givenNames items, ∀ symbol : Symbol, symbol.isNumbered → symbol.text ≠ name
  declared : ∀ item ∈ items, ∀ name ∈ item.target?, name ∈ givenNames items

/-- Sound programs of own names. -/
structure Linkable (items : List Item) : Prop extends OwnNames items where
  sound : ∀ item ∈ items, item.Sound

/-- Accepted sources with own names and units that keep to their lines can be linked. -/
theorem linkable_of_readUnits {entry : Option String} {sources : List (String × String)}
    {units : List SourceUnit} (read : readUnits sources = .ok units)
    (keeps : ∀ source ∈ sources, KeepsLine source.1.toList)
    (names : OwnNames (programItems entry units)) : Linkable (programItems entry units) := by
  refine ⟨names, sound_of_mem_programItems read (fun name starts => ?_) keeps⟩
  -- The entry is declared by a command, whose name is a symbol.
  have start : Item.start name ∈ programItems entry units := by
    rw [Option.mem_def.1 starts]
    exact List.mem_cons_self
  obtain ⟨item, member, declares⟩ := List.mem_filterMap.1 (names.declared _ start name rfl)
  rcases List.mem_append.1 member with own | later
  · obtain ⟨other, -, rfl⟩ := Option.map_eq_some_iff.1 (Option.mem_toList.1 own)
    cases declares
  · obtain ⟨unit, inside, mapped⟩ := List.mem_flatMap.1 later
    obtain ⟨command, written, rfl⟩ := List.mem_map.1 mapped
    have valid := (readUnits_spec read unit inside).2 command written
    cases command with
    | label other | function other =>
        cases declares
        exact valid
    | _ => cases declares

/-- The static variables of items by unit and index, as often as they are mentioned. -/
def staticsOf (items : List Item) : List (String × UInt16) :=
  items.filterMap Item.static?

/-- The numbers that calls load and no load can hold, as often as they are mentioned. -/
def largeDistances (items : List Item) : List Nat :=
  (items.filterMap Item.distance?).filter (UInt16.size ≤ ·)

/-- Names without dots never look like generated ones. -/
theorem ownNames_of_undotted {items : List Item}
    (own : ∀ name ∈ givenNames items, Asm.predefined? name = none)
    (undotted : ∀ name ∈ givenNames items, '.' ∉ name.toList)
    (declared : ∀ item ∈ items, ∀ name ∈ item.target?, name ∈ givenNames items) :
    OwnNames items := by
  refine ⟨own, fun name member symbol numbered same => undotted name member ?_, declared⟩
  rw [← same]
  exact Symbol.dot_mem_text numbered

section lines

variable {items : List Item} {annotate : Bool}

theorem mem_declaredNames_of_mem {symbol : Symbol} {code : Code} {lines : List (Line String)}
    (member : symbol ∈ code.declared) (inside : ∀ line ∈ code.named, line ∈ lines) :
    symbol.text ∈ Asm.declaredNames lines := by
  have named : .declare symbol.text ∈ code.named :=
    List.mem_map_of_mem (Code.declare_mem_of_mem_declared member)
  exact List.mem_filterMap.2 ⟨_, inside _ named, rfl⟩

theorem mem_declaredNames_of_given {number : Nat} {name : String}
    (given : name ∈ givenNames items) :
    name ∈ Asm.declaredNames ((blocks number items).flatMap (Block.lines annotate)) :=
  mem_declaredNames_iff.2 (.inl given)

/-- Other declared names are labels of generated code. -/
theorem given_or_synthetic {number : Nat} {name : String}
    (declared : name ∈ Asm.declaredNames ((blocks number items).flatMap (Block.lines annotate))) :
    name ∈ givenNames items ∨ ∃ symbol : Symbol, symbol.isSynthetic ∧ symbol.text = name := by
  refine (mem_declaredNames_iff.1 declared).imp_right ?_
  rintro ⟨label, member, text⟩
  exact ⟨label, (number_of_mem_blockLabels member).1, text⟩

theorem predefined?_of_mem_declaredNames (own : ∀ name ∈ givenNames items,
      Asm.predefined? name = none) {number : Nat} {name : String}
    (declared : name ∈ Asm.declaredNames ((blocks number items).flatMap (Block.lines annotate))) :
    Asm.predefined? name = none := by
  rcases given_or_synthetic declared with given | ⟨symbol, synthetic, rfl⟩
  · exact own name given
  · exact Asm.predefined?_of_dot (Symbol.dot_mem_text (Symbol.isNumbered_of_isSynthetic synthetic))

/-! ## Variables -/

variable {labels : Asm.Labels}

/-- A name that is no label of the program's own and not predefined is a variable. -/
theorem isVariable_of_not_mem (collects : Asm.Collects
      ((blocks 0 items).flatMap (Block.lines annotate)) 0 [] labels) {name : String}
    (plain : Asm.predefined? name = none) (given : name ∉ givenNames items)
    (synthetic : ∀ symbol : Symbol, symbol.isSynthetic → symbol.text ≠ name) :
    IsVariable labels name := by
  refine ⟨plain, collects.lookup_eq_none_iff.2 fun declared => ?_⟩
  rcases given_or_synthetic declared with own | ⟨symbol, label, same⟩
  · exact given own
  · exact synthetic symbol label same

/-- A static that is not written like a declared name is a variable. -/
theorem isVariable_static_of_not_mem (collects : Asm.Collects
      ((blocks 0 items).flatMap (Block.lines annotate)) 0 [] labels) {unit : String}
    {index : UInt16} (given : (Symbol.static unit index).text ∉ givenNames items) :
    IsVariable labels (Symbol.static unit index).text := by
  refine isVariable_of_not_mem collects (Asm.predefined?_of_dot (Symbol.dot_mem_text rfl)) given ?_
  intro symbol synthetic same
  rw [Symbol.text_inj (Symbol.isNumbered_of_isSynthetic synthetic) rfl same] at synthetic
  cases synthetic

theorem isVariable_static (linkable : Linkable items) (collects : Asm.Collects
      ((blocks 0 items).flatMap (Block.lines annotate)) 0 [] labels) (unit : String)
    (index : UInt16) : IsVariable labels (Symbol.static unit index).text :=
  isVariable_static_of_not_mem collects fun given =>
    linkable.plain _ given (.static unit index) rfl rfl

/-- A written number is no declared name, so a number that is taken for a name is a variable. -/
theorem isVariable_toString (sound : ∀ item ∈ items, item.Sound) (collects : Asm.Collects
      ((blocks 0 items).flatMap (Block.lines annotate)) 0 [] labels) (value : Nat) :
    IsVariable labels (toString value) := by
  have text : (toString value).toList = Text.numeral value := by
    rw [Text.toString_eq_numeral, String.toList_ofList]
  refine isVariable_of_not_mem collects (Asm.predefined?_toString value) ?_ ?_
  · intro given
    obtain ⟨item, member, declares⟩ := List.mem_filterMap.1 given
    have symbol := (sound item member).isSymbol_name (Item.name?_of_declared? declares)
    obtain ⟨first, rest, cut⟩ := List.exists_cons_of_ne_nil (Text.numeral_ne_nil value)
    have digit : first.isDigit := Line.digit_of_mem_numeral (cut ▸ List.mem_cons_self)
    rw [text, cut] at symbol
    simp [isSymbol, digit] at symbol
  · intro symbol synthetic same
    have dot := Symbol.dot_mem_text (Symbol.isNumbered_of_isSynthetic synthetic)
    rw [same, text] at dot
    exact dot_notMem_numeral value dot

/--
A variable that the code of an item loads is its static or a number that no
load can hold, provided that the names aimed at are declared.
-/
theorem static_or_large_of_item (collects : Asm.Collects
      ((blocks 0 items).flatMap (Block.lines annotate)) 0 [] labels) {own : Nat} {item : Item}
    (inside : item ∈ items) (valid : item.Valid)
    (targets : ∀ name ∈ item.target?, name ∈ givenNames items)
    (all : ∀ line ∈ Code.ofItem own item, line ∈ programCode annotate 0 items) {name : String}
    (loaded : name ∈ Asm.loadedNames (Code.ofItem own item).named)
    (free : IsVariable labels name) :
    (∃ unit index, item.static? = some (unit, index) ∧ (Symbol.static unit index).text = name) ∨
      ∃ value, item.distance? = some value ∧ UInt16.size ≤ value ∧ toString value = name := by
  obtain ⟨line, member, loads⟩ := List.mem_filterMap.1 loaded
  obtain ⟨source, within, rfl⟩ := List.mem_map.1 member
  have undeclared := collects.lookup_eq_none_iff.1 free.2
  have mentions := Code.mentions_ofItem valid own source within
  cases source with
  | compute | declare | remark => cases loads
  | number value =>
      -- A number is taken for a name only where sixteen bits do not hold it.
      have large : UInt16.size ≤ value := by
        by_contra small
        simp [Line.map, Line.statement?, Nat.lt_of_not_le small] at loads
      have text : toString value = name := by
        simpa [Line.map, Line.statement?, Nat.not_lt.2 large] using loads
      rcases mentions.2.2.1 value rfl with small | distance
      · exact absurd small (Nat.not_lt.2 large)
      · exact .inr ⟨value, distance, large, text⟩
  | load symbol =>
      have text : symbol.text = name := Option.some.inj loads
      have mentioned := mentions.2.1 symbol rfl
      have label (label : symbol ∈ itemLabels own item) : False := by
        rw [← text, ← named_programCode] at undeclared
        refine undeclared (mem_declaredNames_of_mem ?_ (List.map_subset _ all))
        rw [declared_ofItem]
        exact List.mem_append_right _ label
      subst text
      cases symbol with
      | register named =>
          have known : Asm.predefined? named.name = none := free.1
          rw [Asm.predefined?_register] at known
          cases known
      | cell number =>
          have known : Asm.predefined? ("R" ++ toString number) = none := free.1
          rw [Asm.predefined?_cell mentioned] at known
          cases known
      | given name =>
          refine absurd (mem_declaredNames_of_given ?_) undeclared
          rcases mentioned with declares | aims
          · exact List.mem_filterMap.2 ⟨item, inside, declares⟩
          · exact targets name aims
      | static unit index => exact .inl ⟨unit, index, mentioned, rfl⟩
      | mark => exact (label mentioned).elim
      | returnPoint => exact (label mentioned).elim

/-- The variables of a program are its statics and the numbers that no load can hold. -/
theorem static_or_large (linkable : Linkable items) (collects : Asm.Collects
      ((blocks 0 items).flatMap (Block.lines annotate)) 0 [] labels) {name : String}
    (loaded : name ∈ Asm.loadedNames ((blocks 0 items).flatMap (Block.lines annotate)))
    (free : IsVariable labels name) :
    (∃ unit index, (unit, index) ∈ staticsOf items ∧ (Symbol.static unit index).text = name) ∨
      ∃ value ∈ largeDistances items, toString value = name := by
  obtain ⟨line, member, loads⟩ := List.mem_filterMap.1 loaded
  rw [← named_programCode] at member
  obtain ⟨source, written, rfl⟩ := List.mem_map.1 member
  rcases exists_item_of_mem_programCode written with remark | ⟨own, item, inside, within, all⟩
  · cases source with
    | remark => cases loads
    | _ => cases remark
  · have here : name ∈ Asm.loadedNames (Code.ofItem own item).named :=
      List.mem_filterMap.2 ⟨_, List.mem_map_of_mem within, loads⟩
    rcases static_or_large_of_item collects inside (linkable.sound item inside).valid
        (linkable.declared item inside) all here free with
      ⟨unit, index, static, text⟩ | ⟨value, distance, large, text⟩
    · exact .inl ⟨unit, index, List.mem_filterMap.2 ⟨item, inside, static⟩, text⟩
    · refine .inr ⟨value, List.mem_filter.2 ⟨?_, by simpa using large⟩, text⟩
      exact List.mem_filterMap.2 ⟨item, inside, distance⟩

/-- The statics of items are loaded by lines of their code. -/
theorem load_static_mem {unit : String} {index : UInt16}
    (mentioned : (unit, index) ∈ staticsOf items) :
    .load (Symbol.static unit index).text ∈ (blocks 0 items).flatMap (Block.lines annotate) := by
  obtain ⟨item, member, static⟩ := List.mem_filterMap.1 mentioned
  obtain ⟨own, all⟩ := exists_named_of_mem annotate 0 member
  have loads : Line.load (Symbol.static unit index) ∈ Code.ofItem own item :=
    Code.load_mem_of_mem_loaded (Code.static_mem_loaded_iff.2 static)
  exact all _ (List.mem_map_of_mem loads)

theorem loaded_static {unit : String} {index : UInt16}
    (mentioned : (unit, index) ∈ staticsOf items) :
    (Symbol.static unit index).text ∈
      Asm.loadedNames ((blocks 0 items).flatMap (Block.lines annotate)) :=
  List.mem_filterMap.2 ⟨_, load_static_mem mentioned, rfl⟩

/-- The numbers that no load can hold are loaded by the code of their calls. -/
theorem loaded_large {value : Nat} (large : value ∈ largeDistances items) :
    toString value ∈ Asm.loadedNames ((blocks 0 items).flatMap (Block.lines annotate)) := by
  obtain ⟨distance, beyond⟩ := List.mem_filter.1 large
  have unfit : ¬ value < UInt16.size := Nat.not_lt.2 (by simpa using beyond)
  obtain ⟨item, member, calls⟩ := List.mem_filterMap.1 distance
  obtain ⟨own, all⟩ := exists_named_of_mem annotate 0 member
  have loads : Line.number value ∈ Code.ofItem own item := by
    cases item with
    | start => cases calls
    | command unit command =>
        cases command with
        | call name arguments =>
            cases calls
            simp [Code.ofItem, Code.ofCommand, Code.call]
        | _ => cases calls
  refine List.mem_filterMap.2 ⟨_, all _ (List.mem_map_of_mem loads), ?_⟩
  simp [Line.map, Line.statement?, unfit]

end lines

end HackToolchain.Codegen
