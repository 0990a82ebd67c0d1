import HackToolchain.Files.Listing
import HackToolchain.Files.FilePath
import Mathlib.Data.List.Basic

/-!
# The order of paths

Paths are compared component by component, each by its bytes.  This is not the
order of their texts: `lib/Math.vm` stands before `lib.vm`, whose first
component is the longer one.  Bytes compare like characters, because the
encoding of a greater character is greater at the first byte that differs.
-/

namespace HackToolchain.Files

/-! ## Names and their bytes -/

/-- The bytes of a name in UTF-8. -/
def nameBytes (name : String) : List UInt8 :=
  name.toList.flatMap String.utf8EncodeChar

/-- The greater of two numbers is greater at the first digit that differs. -/
theorem digits_lt_of_lt {low high : Nat} (less : low < high) :
    low / 262144 < high / 262144 ∨ low / 262144 = high / 262144 ∧
      (low / 4096 % 64 < high / 4096 % 64 ∨ low / 4096 % 64 = high / 4096 % 64 ∧
        (low / 64 % 64 < high / 64 % 64 ∨ low / 64 % 64 = high / 64 % 64 ∧
          low % 64 < high % 64)) := by
  have upper : low / 4096 < high / 4096 ∨ low / 4096 = high / 4096 ∧
      (low / 64 % 64 < high / 64 % 64 ∨ low / 64 % 64 = high / 64 % 64 ∧
        low % 64 < high % 64) := by
    omega
  omega

/-- Encodings of two characters differ in the order of the characters, whatever follows them. -/
theorem utf8EncodeChar_append_lt {low high : Char} (less : low < high) (xs ys : List UInt8) :
    String.utf8EncodeChar low ++ xs < String.utf8EncodeChar high ++ ys := by
  have less : low.val.toNat < high.val.toNat := less
  have small : high.val.toNat < 0x110000 := by
    rcases high.valid with below | ⟨-, below⟩
    · exact Nat.lt_trans below (by decide)
    · exact below
  have smaller := Nat.lt_trans less small
  have digits := digits_lt_of_lt less
  unfold String.utf8EncodeChar
  generalize low.val.toNat = m at *
  generalize high.val.toNat = n at *
  dsimp only
  -- The leads of encodings of different lengths are apart; those of one length have the digits.
  split_ifs <;>
    simp (disch := omega) only [List.cons_append, List.nil_append, List.cons_lt_cons_iff,
      UInt8.lt_iff_toNat_lt, UInt8.toNat_ofNat', ← UInt8.toNat_inj, Nat.mod_eq_of_lt]
  all_goals omega

theorem nameBytes_lt_of_lt {first second : String} (less : first < second) :
    nameBytes first < nameBytes second := by
  have less : first.toList < second.toList := less
  unfold nameBytes
  generalize first.toList = low at *
  generalize second.toList = high at *
  induction less with
  | @nil character rest =>
      rw [List.flatMap_cons]
      obtain ⟨byte, bytes, encoded⟩ :=
        List.exists_cons_of_ne_nil (String.utf8EncodeChar_ne_nil (c := character))
      rw [encoded]
      exact List.nil_lt_cons _ _
  | rel less =>
      rw [List.flatMap_cons, List.flatMap_cons]
      exact utf8EncodeChar_append_lt less _ _
  | cons _ ih =>
      rw [List.flatMap_cons, List.flatMap_cons]
      exact List.append_left_lt ih

namespace FilePath

/-! ## Components -/

/-- A part of a path that leads somewhere. -/
def counts (segment : String) : Bool :=
  segment ≠ "" ∧ segment ≠ "."

/-- The parts of a path that count: a root or a dot at the start, and then what leads somewhere. -/
def components (path : FilePath) : List String :=
  (if path.isAbsolute then ["/"] else (path.segments.take 1).filter (· ≠ "")) ++
    (path.segments.drop 1).filter counts

/-- One path before another, component by component, each by its bytes. -/
def Before (first second : FilePath) : Prop :=
  first.components.map nameBytes < second.components.map nameBytes

instance (first second : FilePath) : Decidable (Before first second) :=
  inferInstanceAs (Decidable (first.components.map nameBytes < second.components.map nameBytes))

theorem exists_segments_eq_cons (path : FilePath) :
    ∃ first rest, path.segments = first :: rest :=
  List.exists_cons_of_ne_nil fun none =>
    List.splitOn_ne_nil '/' path.text.toList (List.map_eq_nil_iff.1 none)

section joining

variable {before name : String}

theorem segments_append_slash (plain : '/' ∉ name.toList) :
    segments ⟨before ++ "/" ++ name⟩ = segments ⟨before⟩ ++ [name] := by
  have spelled : (before ++ "/" ++ name).toList = before.toList ++ '/' :: name.toList := by
    simp
  rw [segments, segments, spelled, List.splitOn_append_cons_self, List.splitOn_eq_singleton plain,
    List.map_append, List.map_singleton, String.ofList_toList]

/-- What stands behind a slash is one more component, or does not count. -/
theorem components_append_slash (plain : '/' ∉ name.toList) :
    components ⟨before ++ "/" ++ name⟩ =
      components ⟨before ++ "/" ++ ""⟩ ++ [name].filter counts := by
  have start : isAbsolute ⟨before ++ "/" ++ name⟩ = isAbsolute ⟨before ++ "/" ++ ""⟩ := by
    unfold isAbsolute
    cases spelled : before.toList <;> simp [spelled]
  obtain ⟨first, rest, parts⟩ := exists_segments_eq_cons ⟨before⟩
  unfold components
  rw [start, segments_append_slash plain, segments_append_slash List.not_mem_nil, parts,
    List.append_assoc]
  simp [List.filter_append, counts]

theorem components_slash (nonempty : before ≠ "") :
    components ⟨before ++ "/" ++ ""⟩ = components ⟨before⟩ := by
  have start : isAbsolute ⟨before ++ "/" ++ ""⟩ = isAbsolute ⟨before⟩ := by
    unfold isAbsolute
    cases spelled : before.toList with
    | nil => exact absurd (String.toList_eq_nil_iff.1 spelled) nonempty
    | cons first rest => simp [spelled]
  obtain ⟨first, rest, parts⟩ := exists_segments_eq_cons ⟨before⟩
  unfold components
  rw [start, segments_append_slash List.not_mem_nil, parts]
  simp [List.filter_append, counts]

end joining

/-- A name that is one component of every path that it is joined to. -/
structure IsComponent (name : String) : Prop where
  plain : '/' ∉ name.toList
  counts : counts name = true

theorem IsComponent.components_eq {name : String} (component : IsComponent name) :
    components ⟨name⟩ = [name] := by
  have parts : segments ⟨name⟩ = [name] := by
    rw [segments, List.splitOn_eq_singleton component.plain, List.map_singleton,
      String.ofList_toList]
  have relative : isAbsolute ⟨name⟩ = false := by
    rw [isAbsolute, beq_eq_false_iff_ne]
    exact fun slash => component.plain (List.mem_of_head? slash)
  have counts := component.counts
  rw [FilePath.counts, decide_eq_true_iff] at counts
  simp [components, parts, relative, counts.1]

theorem components_join (path : FilePath) {name : String} (component : IsComponent name) :
    (path.join name).components = path.components ++ [name] := by
  have behind (before : String) :
      components ⟨before ++ "/" ++ name⟩ = components ⟨before ++ "/" ++ ""⟩ ++ [name] := by
    rw [components_append_slash component.plain, List.filter_cons_of_pos component.counts,
      List.filter_nil]
  obtain ⟨text⟩ := path
  unfold join
  split
  next closed =>
    rcases (Bool.or_eq_true _ _).mp closed with empty | slash
    · obtain rfl : text = "" := by simpa using empty
      rw [String.empty_append, component.components_eq]
      rfl
    · obtain ⟨before, spelled⟩ := List.getLast?_eq_some_iff.1 (eq_of_beq slash)
      obtain rfl : text = String.ofList before ++ "/" := by
        rw [← String.toList_inj, spelled, String.toList_append, String.toList_ofList]
        rfl
      rw [behind, String.append_empty]
  next opened =>
    rw [Bool.or_eq_true, not_or] at opened
    rw [behind, components_slash fun empty => opened.1 (by rw [empty]; rfl)]

/-- The names of a route are the last components of its path. -/
theorem components_joinAll (path : FilePath) {route : List String}
    (names : ∀ name ∈ route, IsComponent name) :
    (path.joinAll route).components = path.components ++ route := by
  unfold joinAll
  induction route generalizing path with
  | nil => exact (List.append_nil _).symm
  | cons name rest ih =>
      rw [List.forall_mem_cons] at names
      rw [List.foldl_cons, ih _ names.2, components_join path names.1, List.append_assoc,
        List.singleton_append]

/-- Paths below a directory are in the order of their routes. -/
theorem before_joinAll (path : FilePath) {first second : List String}
    (names : ∀ name ∈ first, IsComponent name) (names' : ∀ name ∈ second, IsComponent name)
    (less : first < second) : Before (path.joinAll first) (path.joinAll second) := by
  rw [Before, components_joinAll path names, components_joinAll path names', List.map_append,
    List.map_append]
  exact List.append_left_lt (List.map_lt (fun _ _ => nameBytes_lt_of_lt) less)

example : Before ⟨"lib/Math.vm"⟩ ⟨"lib.vm"⟩ := by decide

end FilePath

end HackToolchain.Files
