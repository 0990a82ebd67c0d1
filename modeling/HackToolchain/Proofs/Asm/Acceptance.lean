import HackToolchain.Proofs.Asm.Assembly
import Mathlib.Data.List.Dedup

/-!
# Which lines are assembled

Clean lines that declare no name twice are assembled unless a number in them is
a misfit or a variable is loaded once there is no address for another cell.
The fault is that of the first line to which this happens.  Every other
instruction line is read back, so nothing else can go wrong.
-/

namespace HackToolchain.Asm

/-- The numbers that lines load, in order. -/
def loadedNumbers {Symbol : Type} (lines : List (Line Symbol)) : List Nat :=
  lines.filterMap Line.number?

/-- The first misfit of lines is the first one among the numbers they load. -/
theorem findSome?_misfit? {Symbol : Type} (lines : List (Line Symbol)) :
    lines.findSome? Line.misfit? = (loadedNumbers lines).find? (IsMisfit ·) := by
  induction lines with
  | nil => rfl
  | cons line rest ih =>
      cases line with
      | number value =>
          have numbers : loadedNumbers (.number value :: rest) = value :: loadedNumbers rest := rfl
          rw [List.findSome?_cons, Line.misfit?_number, numbers, List.find?_cons, ih]
          by_cases misfit : IsMisfit value <;> simp [misfit]
      | load | compute | declare | remark => exact ih

/-- The labels of lines are collected if no name is declared twice or was known before. -/
theorem exists_collectLabels {lines : List (Line String)} {place : Nat} {labels : Labels}
    (fresh : ∀ name ∈ declaredNames lines, labels.lookup name = none)
    (nodup : (declaredNames lines).Nodup) :
    ∃ found, collectLabels (spoken lines) place labels = .ok found := by
  induction lines generalizing place labels with
  | nil => exact ⟨labels, rfl⟩
  | cons line rest ih =>
      cases line with
      | remark remarked =>
          rw [spoken_remark rfl]
          exact ih fresh nodup
      | number | load | compute =>
          rw [spoken_cons rfl, collectLabels, Line.declared?_of_isInstruction rfl]
          exact ih fresh nodup
      | declare name =>
          have names : declaredNames (.declare name :: rest) = name :: declaredNames rest := rfl
          rw [names, List.nodup_cons] at nodup
          have unknown := fresh name (names ▸ List.mem_cons_self)
          rw [spoken_cons rfl, collectLabels, Line.declared?_text]
          simp only [unknown]
          refine ih (fun other member => ?_) nodup.2
          -- A later name is another one, so it is as unknown as before.
          have apart : other ≠ name := fun same => nodup.1 (same ▸ member)
          rw [List.lookup_cons, beq_false_of_ne apart]
          exact fresh other (names ▸ List.mem_cons_of_mem _ member)

/-! ## Room for variables -/

/-- Every variable among names is met while there is an address for another cell. -/
def HaveRoom (labels : Labels) : List String → List String → Prop
  | _, [] => True
  | known, name :: rest =>
      (IsVariable labels name → known.length < variableLimit) ∧
        HaveRoom labels (meet labels known name) rest

section room

variable {labels : Labels} {known names : List String}

theorem haveRoom_loadedNames_cons {line : Line String} {statement : Statement}
    (becomes : line.statement? = some statement) (rest : List (Line String)) :
    HaveRoom labels known (loadedNames (line :: rest)) ↔
      statement.HasRoom labels known ∧
        HaveRoom labels (statement.meet labels known) (loadedNames rest) := by
  cases statement with
  | number | compute =>
      rw [loadedNames, List.filterMap_cons_none (by rw [becomes])]
      exact (iff_of_eq (true_and _)).symm
  | load name =>
      rw [loadedNames, List.filterMap_cons_some (by rw [becomes])]
      rfl

/-- As the known variables only become more, it is the last load of one that needs room. -/
theorem haveRoom_iff :
    HaveRoom labels known names ↔ names.filter (IsVariable labels ·) = [] ∨
      ((names.filter (IsVariable labels ·)).dropLast.foldl (meet labels) known).length <
        variableLimit := by
  induction names generalizing known with
  | nil => simp [HaveRoom]
  | cons name rest ih =>
      rw [HaveRoom, ih]
      by_cases free : IsVariable labels name
      · rw [List.filter_cons_of_pos (by simp [free])]
        rcases rest.filter (IsVariable labels ·) with _ | ⟨next, others⟩
        · simp [free]
        · have less := (prefix_meet labels known name).trans
            (prefix_foldl_meet labels (next :: others).dropLast _)
          rw [List.dropLast_cons_cons, List.foldl_cons]
          simp only [free, forall_const, reduceCtorEq, false_or]
          exact and_iff_right_of_imp (Nat.lt_of_le_of_lt less.length_le)
      · rw [List.filter_cons_of_neg (by simp [free]), meet_of_not_isVariable free]
        exact and_iff_right fun unknown => absurd unknown free

/-- Variables are known once each after they were met. -/
theorem length_foldl_meet (free : ∀ name ∈ names, IsVariable labels name) :
    (names.foldl (meet labels) []).length = names.dedup.length := by
  refine List.Perm.length_eq ((List.perm_ext_iff_of_nodup ?_ names.nodup_dedup).2 fun name => ?_)
  · exact nodup_foldl_meet List.nodup_nil
  · rw [mem_foldl_meet, List.mem_dedup, or_iff_right List.not_mem_nil]
    exact and_iff_left_of_imp (free name)

end room

/-- The variables that lines load, in the order of the lines. -/
def variableLoads (lines : List (Line String)) : List String :=
  (loadedNames lines).filter fun name => predefined? name = none ∧ name ∉ declaredNames lines

/-- Before the last load of a variable there is an address for another cell. -/
def VariablesFit (lines : List (Line String)) : Prop :=
  (variableLoads lines).dropLast.dedup.length < variableLimit

instance : DecidablePred VariablesFit := fun lines =>
  inferInstanceAs (Decidable ((variableLoads lines).dropLast.dedup.length < variableLimit))

theorem haveRoom_iff_variablesFit {lines : List (Line String)} {found : Labels}
    (collects : Collects lines 0 [] found) :
    HaveRoom found [] (loadedNames lines) ↔ VariablesFit lines := by
  have same : (loadedNames lines).filter (IsVariable found ·) = variableLoads lines :=
    List.filter_congr fun name _ =>
      decide_eq_decide.2 (and_congr_right fun _ => collects.lookup_eq_none_iff)
  have free : ∀ name ∈ (variableLoads lines).dropLast, IsVariable found name := by
    intro name member
    rw [← same] at member
    exact of_decide_eq_true (List.mem_filter.1 (List.dropLast_subset _ member)).2
  rw [haveRoom_iff, same, length_foldl_meet free, VariablesFit]
  refine or_iff_right_of_imp fun none => ?_
  rw [none]
  decide

/-! ## Placing -/

/--
How assembling lines ends.  Either all numbers fit and there is room for the
variables, or the first misfit or a variable without room is the fault.
-/
inductive Ends {Result : Type} (room : Prop) (lines : List (Line String)) :
    Except Fault Result → Prop
  | placed (result : Result) (fits : lines.findSome? Line.misfit? = none) (has : room) :
      Ends room lines (.ok result)
  | misfit (value : Nat) (first : lines.findSome? Line.misfit? = some value) :
      Ends room lines (.error (.numberOutOfRange ("@" ++ toString value)))
  | full (lacks : ¬ room) : Ends room lines (.error .variableOverflow)

namespace Ends

variable {Result : Type} {room : Prop} {lines : List (Line String)} {answer : Except Fault Result}

/-- What is no misfit and asks for no more room does not change how the lines behind it end. -/
theorem cons {whole : Prop} {line : Line String} (ends : Ends room lines answer)
    (fits : line.misfit? = none) (same : whole ↔ room) : Ends whole (line :: lines) answer := by
  have skip : (line :: lines).findSome? Line.misfit? = lines.findSome? Line.misfit? := by
    rw [List.findSome?_cons, fits]
  cases ends with
  | placed result fits has => exact .placed result (skip.trans fits) (same.2 has)
  | misfit value first => exact .misfit value (skip.trans first)
  | full lacks => exact .full fun has => lacks (same.1 has)

theorem exists_ok_iff (ends : Ends room lines answer) :
    (∃ result, answer = .ok result) ↔ lines.findSome? Line.misfit? = none ∧ room := by
  cases ends with
  | placed result fits has => exact iff_of_true ⟨result, rfl⟩ ⟨fits, has⟩
  | misfit value first => simp [first]
  | full lacks => simp [lacks]

theorem of_misfit (ends : Ends room lines answer) (has : room) {value : Nat}
    (first : lines.findSome? Line.misfit? = some value) :
    answer = .error (.numberOutOfRange ("@" ++ toString value)) := by
  cases ends with
  | placed result fits => cases fits.symm.trans first
  | misfit other before =>
      cases before.symm.trans first
      rfl
  | full lacks => exact absurd has lacks

theorem of_full (ends : Ends room lines answer) (lacks : ¬ room)
    (fits : lines.findSome? Line.misfit? = none) : answer = .error .variableOverflow := by
  cases ends with
  | placed result _ has => exact absurd has lacks
  | misfit value first => cases fits.symm.trans first
  | full => rfl

end Ends

theorem misfit?_of_not_isInstruction {Symbol : Type} {line : Line Symbol}
    (silent : line.isInstruction = false) : line.misfit? = none := by
  cases line with
  | number | load | compute => cases silent
  | declare | remark => rfl

theorem ends_placeInstructions {labels : Labels} {lines : List (Line String)}
    {known : List String} {placed : Array Instruction} (loads : ∀ line ∈ lines, line.LoadsName) :
    Ends (HaveRoom labels known (loadedNames lines)) lines
      (placeInstructions labels ((spoken lines).filter fun line => !isAside line) known
        placed) := by
  rw [spoken_filter]
  induction lines generalizing known placed with
  | nil => exact .placed _ rfl trivial
  | cons line rest ih =>
      have later := fun other member => loads other (List.mem_cons_of_mem _ member)
      cases instruction : line.isInstruction with
      | false =>
          have silent : line.statement? = none := by
            cases line <;> first | rfl | cases instruction
          rw [List.filter_cons_of_neg (by simp [instruction])]
          refine (ih later).cons (misfit?_of_not_isInstruction instruction) ?_
          rw [loadedNames_of_silent silent]
      | true =>
          obtain ⟨statement, becomes⟩ := Line.exists_statement?_of_isInstruction instruction
          have read := Line.read_text_eq (loads line List.mem_cons_self) becomes
          have needs := @haveRoom_loadedNames_cons labels known line statement becomes rest
          rw [List.filter_cons_of_pos instruction, List.map_cons]
          cases own : line.misfit? with
          | some value =>
              rw [own] at read
              rw [placeInstructions, read]
              exact .misfit value (by rw [List.findSome?_cons, own])
          | none =>
              rw [own] at read
              rw [placeInstructions_of_read read]
              by_cases room : statement.HasRoom labels known
              · rw [if_pos room]
                exact (ih later).cons own (needs.trans (and_iff_right room))
              · rw [if_neg room]
                exact .full fun whole => room (needs.1 whole).1

/-- How assembling clean lines ends that declare no name twice. -/
theorem Program.ends_assemble_render {lines : List (Line String)}
    (clean : ∀ line ∈ lines, line.Clean) (nodup : (declaredNames lines).Nodup) :
    Ends (VariablesFit lines) lines (assemble (render lines)) := by
  obtain ⟨found, collected⟩ := @exists_collectLabels lines 0 [] (fun _ _ => rfl) nodup
  have ends := @ends_placeInstructions found lines [] #[]
    fun line member => (clean line member).loadsName
  rw [haveRoom_iff_variablesFit (collectLabels_spoken collected)] at ends
  rw [assemble, contents_render clean]
  simp only [collected]
  cases done : placeInstructions found ((spoken lines).filter fun line => !isAside line) [] #[] with
  | ok result =>
      obtain ⟨fits, room⟩ := ends.exists_ok_iff.1 ⟨result, done⟩
      exact .placed _ fits room
  | error fault =>
      rw [done] at ends
      cases ends with
      | misfit value first => exact .misfit value first
      | full lacks => exact .full lacks

end HackToolchain.Asm
