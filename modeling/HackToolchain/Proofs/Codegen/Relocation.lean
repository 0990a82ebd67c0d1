import HackToolchain.Proofs.Asm.Relocation
import HackToolchain.Proofs.Codegen.Acceptance
import HackToolchain.Proofs.Codegen.Names

/-!
# Programs with a start

A start in front of a program only moves it.  All labels of generated code get
other numbers, but each stands for its old place behind the start, and so does
every name that is declared; static variables and the other names have their
old cells, because the start itself uses no variable.
-/

namespace HackToolchain.Codegen

open HackToolchain.Asm (IsVariable KeepsLine Line Shifted ShiftedLines instructionCount)
open HackToolchain.Vm

/-- Names that are neither predefined nor written like a static or a label of generated code. -/
structure PlainNames (items : List Item) : Prop where
  own : ∀ item ∈ items, ∀ name ∈ item.name?, Asm.predefined? name = none
  plain : ∀ item ∈ items, ∀ name ∈ item.name?,
    ∀ symbol : Symbol, symbol.isNumbered → symbol.text ≠ name

/-- The lines that start a program at an entry. -/
def startLines (annotate : Bool) (entry : String) : List (Line String) :=
  Block.lines annotate (.ofItem 0 (.start entry))

/-- How a symbol of a program without a start is called in the program with one. -/
def movedText (symbol : Symbol) : String :=
  (symbol.renumber 1).text

theorem lines_start (annotate : Bool) (entry : String) (items : List Item) :
    (blocks 0 (.start entry :: items)).flatMap (Block.lines annotate) =
      startLines annotate entry ++ (programCode annotate 0 items).map (Line.map movedText) := by
  rw [blocks, List.flatMap_cons, startLines, ← named_programCode]
  change _ ++ (programCode annotate (0 + 1) items).named = _
  rw [programCode_add, Code.named, List.map_map]
  exact congrArg (_ ++ ·) (List.map_congr_left fun line _ => Line.map_map _ _ line)

/-- A declared name is declared by the code of its item. -/
theorem declare_mem_of_given {items : List Item} {name : String} (given : name ∈ givenNames items)
    (annotate : Bool) (number : Nat) :
    .declare (.given name) ∈ programCode annotate number items := by
  obtain ⟨item, member, declares⟩ := List.mem_filterMap.1 given
  obtain ⟨own, all⟩ := exists_code_of_mem annotate number member
  have declared : Symbol.given name ∈ (Code.ofItem own item).declared := by
    rw [declared_ofItem, declares]
    exact List.mem_append_left _ List.mem_cons_self
  exact all _ (Code.declare_mem_of_mem_declared declared)

section moved

variable {items : List Item} {entry : String} {annotate : Bool} {labels moved : Asm.Labels}

theorem PlainNames.own_given (names : PlainNames items) :
    ∀ name ∈ givenNames items, Asm.predefined? name = none := by
  intro name given
  obtain ⟨item, member, declares⟩ := List.mem_filterMap.1 given
  exact names.own item member name (Item.name?_of_declared? declares)

theorem PlainNames.plain_given (names : PlainNames items) {symbol : Symbol}
    (numbered : symbol.isNumbered) : symbol.text ∉ givenNames items := by
  intro given
  obtain ⟨item, member, declares⟩ := List.mem_filterMap.1 given
  exact names.plain item member _ (Item.name?_of_declared? declares) symbol numbered rfl

/-- Names that do not end in a digit are never written like generated ones. -/
theorem plainNames_of_ending
    (own : ∀ item ∈ items, ∀ name ∈ item.name?, Asm.predefined? name = none)
    (ending : ∀ item ∈ items, ∀ name ∈ item.name?, ¬ name.toList.getLast?.any Char.isDigit) :
    PlainNames items := by
  refine ⟨own, fun item member name spelled symbol numbered same => ?_⟩
  refine ending item member name spelled ?_
  have last := List.getLast?_eq_getLast_of_ne_nil (Text.numeral_ne_nil symbol.number)
  rw [← same, Symbol.text_eq_numbered numbered, toList_numbered,
    List.getLast?_append_of_ne_nil _ (List.cons_ne_nil _ _),
    List.getLast?_cons_of_ne_nil (Text.numeral_ne_nil _), last, Option.any_some]
  exact Line.digit_of_mem_numeral (List.getLast_mem _)

/-- A declared entry is as plain as the other names. -/
theorem PlainNames.start (names : PlainNames items) (declared : entry ∈ givenNames items) :
    PlainNames (.start entry :: items) := by
  obtain ⟨item, member, declares⟩ := List.mem_filterMap.1 declared
  have named := Item.name?_of_declared? declares
  constructor
  · intro other inside name spelled
    rcases List.mem_cons.1 inside with rfl | later
    · cases spelled
      exact names.own item member entry named
    · exact names.own other later name spelled
  · intro other inside name spelled
    rcases List.mem_cons.1 inside with rfl | later
    · cases spelled
      exact names.plain item member entry named
    · exact names.plain other later name spelled

/-- A declared entry is a symbol. -/
theorem sound_start (sound : ∀ item ∈ items, item.Sound) (declared : entry ∈ givenNames items) :
    ∀ item ∈ .start entry :: items, item.Sound := by
  obtain ⟨item, member, declares⟩ := List.mem_filterMap.1 declared
  refine List.forall_mem_cons.2 ⟨?_, sound⟩
  exact (sound item member).isSymbol_name (Item.name?_of_declared? declares)

/-- A predefined name is no label. -/
theorem PlainNames.lookup_of_predefined (names : PlainNames items) (collects : Asm.Collects
      ((blocks 0 items).flatMap (Block.lines annotate)) 0 [] labels) {name : String}
    (known : (Asm.predefined? name).isSome) : labels.lookup name = none := by
  refine collects.lookup_eq_none_iff.2 fun declared => ?_
  rw [predefined?_of_mem_declaredNames names.own_given declared] at known
  cases known

/-- A name that is spelled out but not declared is a variable. -/
theorem PlainNames.isVariable_given (names : PlainNames items) (collects : Asm.Collects
      ((blocks 0 items).flatMap (Block.lines annotate)) 0 [] labels) {item : Item} {name : String}
    (member : item ∈ items) (spelled : item.name? = some name) (absent : name ∉ givenNames items) :
    IsVariable labels name :=
  isVariable_of_not_mem collects (names.own item member name spelled) absent
    fun symbol synthetic =>
      names.plain item member name spelled symbol (Symbol.isNumbered_of_isSynthetic synthetic)

variable (sound : ∀ item ∈ items, item.Sound) (names : PlainNames items)
  (declared : entry ∈ givenNames items)
  (collects : Asm.Collects ((blocks 0 items).flatMap (Block.lines annotate)) 0 [] labels)
  (collects' : Asm.Collects ((blocks 0 (.start entry :: items)).flatMap (Block.lines annotate)) 0
    [] moved)

include collects collects'

/-- Whatever is declared is moved by the instructions of the start. -/
theorem exists_place_of_declare {symbol : Symbol}
    (declares : .declare symbol ∈ programCode annotate 0 items) :
    ∃ place, labels.lookup symbol.text = some place ∧
      moved.lookup (movedText symbol) =
        some (instructionCount (startLines annotate entry) + place) := by
  rw [← named_programCode] at collects
  rw [lines_start] at collects'
  exact collects.exists_place collects' declares

theorem shifted_of_declare {symbol : Symbol}
    (declares : .declare symbol ∈ programCode annotate 0 items)
    (free : Asm.predefined? symbol.text = none)
    (free' : Asm.predefined? (movedText symbol) = none) :
    Shifted labels moved (instructionCount (startLines annotate entry)) symbol.text
      (movedText symbol) := by
  obtain ⟨place, before, after⟩ := exists_place_of_declare collects collects' declares
  exact .label place free free' before after

include names declared

/-- Names that are loaded are moved with the labels, or stay what they are. -/
theorem shifted_of_load (valid : ∀ item ∈ items, item.Valid) {symbol : Symbol}
    (loaded : .load symbol ∈ programCode annotate 0 items) :
    Shifted labels moved (instructionCount (startLines annotate entry)) symbol.text
      (movedText symbol) := by
  rcases exists_item_of_mem_programCode loaded with remark | ⟨own, item, inside, within, all⟩
  · cases remark
  have mentioned := (Code.mentions_ofItem (valid item inside) own _ within).2.1 symbol rfl
  have names' := names.start declared
  have label (numbered : symbol.isNumbered) (numbered' : (symbol.renumber 1).isNumbered)
      (listed : symbol ∈ itemLabels own item) :
      Shifted labels moved (instructionCount (startLines annotate entry)) symbol.text
        (movedText symbol) := by
    have declares : symbol ∈ (Code.ofItem own item).declared := by
      rw [declared_ofItem]
      exact List.mem_append_right _ listed
    exact shifted_of_declare collects collects' (all _ (Code.declare_mem_of_mem_declared declares))
      (Asm.predefined?_of_dot (Symbol.dot_mem_text numbered))
      (Asm.predefined?_of_dot (Symbol.dot_mem_text numbered'))
  cases symbol with
  | register named =>
      have known : (Asm.predefined? named.name).isSome := by rw [Asm.predefined?_register]; rfl
      exact .same (names.lookup_of_predefined collects known)
        (names'.lookup_of_predefined collects' known)
  | cell number =>
      have known : (Asm.predefined? ("R" ++ toString number)).isSome := by
        rw [Asm.predefined?_cell mentioned]; rfl
      exact .same (names.lookup_of_predefined collects known)
        (names'.lookup_of_predefined collects' known)
  | given name =>
      have spelled := mentioned.given
      have free := names.own item inside name spelled
      -- Declared anywhere in the program it is a label, otherwise a variable of both programs.
      by_cases given : name ∈ givenNames items
      · exact shifted_of_declare collects collects' (declare_mem_of_given given annotate 0) free free
      · exact .same (names.isVariable_given collects inside spelled given).2
          (names'.isVariable_given collects' (List.mem_cons_of_mem _ inside) spelled given).2
  | static unit index =>
      exact .same (isVariable_static_of_not_mem collects (names.plain_given rfl)).2
        (isVariable_static_of_not_mem collects' (names'.plain_given rfl)).2
  | mark unit place number => exact label rfl rfl mentioned
  | returnPoint callee number => exact label rfl rfl mentioned

include sound

/-- All lines of a program are shifted by a start. -/
theorem shiftedLines_start :
    ShiftedLines labels moved (instructionCount (startLines annotate entry)) Symbol.text movedText
      (programCode annotate 0 items) where
  load _ loaded := shifted_of_load names declared collects collects'
    (fun item member => (sound item member).valid) loaded
  number value _ := ⟨(isVariable_toString sound collects value).2,
    (isVariable_toString (sound_start sound declared) collects' value).2⟩

omit names sound collects in
/-- A start with a declared entry uses no variable. -/
theorem not_isVariable_start : ∀ name ∈ Asm.loadedNames (startLines annotate entry),
    ¬ IsVariable moved name := by
  intro name loaded free
  rw [startLines, Asm.loadedNames, filterMap_lines (fun _ => rfl)] at loaded
  have all : ∀ line ∈ Code.ofItem 0 (.start entry),
      line ∈ programCode annotate 0 (.start entry :: items) := by
    intro line member
    rw [programCode_cons]
    exact List.mem_append_left _ (List.mem_append_right _ member)
  have targets : ∀ name ∈ (Item.start entry).target?, name ∈ givenNames (.start entry :: items) := by
    rintro name ⟨⟩
    exact declared
  rcases static_or_large_of_item collects' List.mem_cons_self trivial targets all loaded free with
    ⟨_, _, static, -⟩ | ⟨_, distance, -⟩
  · cases static
  · cases distance

end moved

/-! ## Assembled programs -/

/-- The instructions of a start in a program. -/
def startInstructions (program : Asm.Program) (entry : String) : List Asm.Instruction :=
  (Code.bootstrap 0 entry).filterMap (linkingOf program).instruction?

theorem settled_start (program : Asm.Program) (annotate : Bool) (entry : String) :
    ((startLines annotate entry).filterMap fun line =>
        line.statement?.map (Asm.Statement.settle program.labels program.variableNames)) =
      startInstructions program entry := by
  rw [startLines, filterMap_lines (fun _ => rfl)]
  change (Code.bootstrap 0 entry).named.filterMap _ = _
  rw [Code.named, List.filterMap_map]
  exact List.filterMap_congr fun line _ => linkingOf_instruction? program line

theorem length_startInstructions (program : Asm.Program) (annotate : Bool) (entry : String) :
    (startInstructions program entry).length = instructionCount (startLines annotate entry) := by
  rw [← settled_start program annotate, Asm.Places.length_settled]

section assembled

variable {items : List Item} {entry : String} {annotate : Bool} {plain booted : Asm.Program}
  (sound : ∀ item ∈ items, item.Sound) (declared : entry ∈ givenNames items)
  (assembled : Asm.Program.assemble (itemsText annotate items) = .ok plain)
  (assembled' : Asm.Program.assemble (itemsText annotate (.start entry :: items)) = .ok booted)

include sound declared assembled assembled'

/-- A program with a start consists of the start and of the program without it, moved. -/
theorem follows_start (names : PlainNames items) :
    booted.Follows plain (itemsText annotate items) (startInstructions booted entry) := by
  have clean := clean_of_mem_blocks sound annotate 0
  have clean' := clean_of_mem_blocks (sound_start sound declared) annotate 0
  have collects := (Asm.Program.assemble_render clean assembled).1
  have collects' := (Asm.Program.assemble_render clean' assembled').1
  have shifted := shiftedLines_start sound names declared collects collects'
  have bound := not_isVariable_start declared collects'
  rw [itemsText, ← named_programCode] at assembled
  rw [itemsText, lines_start] at assembled'
  rw [← named_programCode] at clean
  rw [lines_start] at clean'
  rw [itemsText, ← named_programCode, ← settled_start booted annotate]
  exact Asm.Program.follows_of_shifted clean clean' assembled assembled' bound shifted

/-- Every declared name is a label behind the start, as far from it as from the first place. -/
theorem exists_place_of_given {name : String} (given : name ∈ givenNames items) :
    ∃ place, plain.label? name = some place ∧
      booted.label? name = some ((startInstructions booted entry).length + place) := by
  have clean := clean_of_mem_blocks sound annotate 0
  have clean' := clean_of_mem_blocks (sound_start sound declared) annotate 0
  have collects := (Asm.Program.assemble_render clean assembled).1
  have collects' := (Asm.Program.assemble_render clean' assembled').1
  rw [length_startInstructions booted annotate]
  exact exists_place_of_declare collects collects' (declare_mem_of_given given annotate 0)

/-- Labels are moved to places in the program with the start. -/
theorem moved_place_le {name : String} {place : Nat} (here : plain.label? name = some place) :
    (startInstructions booted entry).length + place ≤ booted.rom.size := by
  have collects := (Asm.Program.assemble_render (clean_of_mem_blocks sound annotate 0) assembled).1
  have places := (Asm.Program.assemble_render
    (clean_of_mem_blocks (sound_start sound declared) annotate 0) assembled').2
  have inside := collects.place_le here
  rw [← named_programCode, Code.named, Asm.instructionCount_map] at inside
  rw [places.size_eq, lines_start, Asm.instructionCount_append, Asm.instructionCount_map,
    ← length_startInstructions booted]
  exact Nat.add_le_add_left inside _

end assembled

/--
Take accepted sources in units that keep to their lines, with plain names, and
an entry that they declare.  If the program is assembled with a start and
without one, then the former consists of the instructions of the start and of
the latter, in which exactly the loads that name labels are increased by the
number of these instructions.  The variables are the same, every declared name
is a label that is moved as far, and no label is moved out of memory.
-/
theorem start_relocates {annotate : Bool} {entry : String} {sources : List (String × String)}
    {units : List SourceUnit} {plain booted : Asm.Program}
    (read : readUnits sources = .ok units)
    (keeps : ∀ source ∈ sources, KeepsLine source.1.toList)
    (declared : entry ∈ givenNames (programItems none units))
    (names : PlainNames (programItems none units))
    (assembled : Asm.Program.assemble (programText annotate none units) = .ok plain)
    (assembled' : Asm.Program.assemble (programText annotate (some entry) units) = .ok booted)
    (small : booted.rom.size ≤ memorySize) :
    let start := startInstructions booted entry
    booted.Follows plain (programText annotate none units) start ∧
      (∀ name ∈ givenNames (programItems none units), ∃ place,
        plain.label? name = some place ∧ booted.label? name = some (start.length + place)) ∧
      ∀ name place, plain.label? name = some place → start.length + place ≤ memorySize := by
  intro start
  have sound := @sound_of_mem_programItems none _ _ read (by simp) keeps
  refine ⟨follows_start sound declared assembled assembled' names, ?_, ?_⟩
  · exact fun name => exists_place_of_given sound declared assembled assembled'
  · intro name place here
    exact Nat.le_trans (moved_place_le sound declared assembled assembled' here) small

/-- A unit with labels of all kinds, a static, and a jump to a name that is not declared. -/
def movingUnit : SourceUnit :=
  ⟨"M", [.function "Sys.init" 0, .push .statics 0, .operate (.compare .gt), .ifGoto "Sys.init",
    .call "Sys.init" 0, .goto "elsewhere"]⟩

def movingSource : String × String :=
  ("M", "function Sys.init 0\npush static 0\ngt\nif-goto Sys.init\ncall Sys.init 0\n" ++
    "goto elsewhere")

theorem start_relocates_moving :
    readUnits [movingSource] = .ok [movingUnit] ∧
    ∃ plain booted, Asm.Program.assemble (programText false none [movingUnit]) = .ok plain ∧
      Asm.Program.assemble (programText false (some "Sys.init") [movingUnit]) = .ok booted ∧
      booted.Follows plain (programText false none [movingUnit])
        (startInstructions booted "Sys.init") ∧
      ∃ place, plain.label? "Sys.init" = some place ∧
        booted.label? "Sys.init" = some (46 + place) := by
  have read : readUnits [movingSource] = .ok [movingUnit] := by decide +kernel
  have symbols : ∀ source ∈ [movingSource], isSymbol source.1.toList := by decide
  have keeps := fun source member => keepsLine_of_isSymbol (symbols source member)
  have declared : "Sys.init" ∈ givenNames (programItems none [movingUnit]) := by decide
  have names : PlainNames (programItems none [movingUnit]) :=
    plainNames_of_ending (by decide) (by decide)
  have sound := @sound_of_mem_programItems none _ _ read (by simp) keeps
  have sound' := @sound_of_mem_programItems (some "Sys.init") _ _ read (by decide) keeps
  obtain ⟨plain, assembled⟩ := @exists_assemble_itemsText _ sound false (by decide) (by decide)
    (variablesFit_of_length (by decide))
  obtain ⟨booted, assembled'⟩ := @exists_assemble_itemsText _ sound' false (by decide) (by decide)
    (variablesFit_of_length (by decide))
  have small : booted.rom.size ≤ memorySize := by
    rw [size_of_assembled sound' assembled']
    decide
  obtain ⟨follows, moved, -⟩ := start_relocates read keeps declared names assembled assembled' small
  have length : (startInstructions booted "Sys.init").length = 46 :=
    length_startInstructions booted false "Sys.init"
  rw [length] at moved
  exact ⟨read, plain, booted, assembled, assembled', follows, moved _ declared⟩

end HackToolchain.Codegen
