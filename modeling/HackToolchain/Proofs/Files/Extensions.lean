import HackToolchain.Proofs.Files.Writing
import Mathlib.Data.List.TakeWhile
import Mathlib.Data.List.TakeDrop

/-!
# Paths and the extensions they end in

A path that ends in a dot and an extension, with nothing behind them, leads to a
name that ends in them.  So paths with different extensions never lead to the
same place, however they are written.
-/

namespace HackToolchain.Files

/-- A name has an extension if it stands behind the last dot, with something before that dot. -/
theorem FileName.extension?_ofName_eq_some_iff {name extension : List Char} :
    (FileName.ofName name).extension? = some extension ↔
      '.' ∉ extension ∧ ∃ stem, stem ≠ [] ∧ name = stem ++ '.' :: extension := by
  unfold ofName
  rw [List.span_eq_takeWhile_dropWhile]
  constructor
  · intro has
    split at has
    next => cases has
    next => cases has
    next after dot before several cut =>
      cases has
      obtain ⟨rfl, later⟩ := Prod.mk.inj cut
      have isDot : dot = '.' := by
        have stopped := List.head?_dropWhile_not (· != '.') name.reverse
        rw [later] at stopped
        simpa using stopped
      subst isDot
      refine ⟨?_, before.reverse, ?_, ?_⟩
      · intro member
        have kept := List.mem_takeWhile_imp (List.mem_reverse.1 member)
        exact absurd rfl (bne_iff_ne.1 kept)
      · intro none
        exact several (List.reverse_eq_nil_iff.1 none)
      · apply List.reverse_inj.1
        rw [List.reverse_append, List.reverse_cons, List.reverse_reverse, List.reverse_reverse,
          List.append_assoc, List.singleton_append, ← later, List.takeWhile_append_dropWhile]
  · rintro ⟨dotless, stem, nonempty, rfl⟩
    have keeps : ∀ character ∈ extension.reverse, (character != '.') = true := by
      intro character member
      rw [bne_iff_ne]
      rintro rfl
      exact dotless (List.mem_reverse.1 member)
    have stops : ¬('.' != '.') = true := by decide
    obtain ⟨last, others, backwards⟩ :=
      List.exists_cons_of_ne_nil fun none => nonempty (List.reverse_eq_nil_iff.1 none)
    rw [List.reverse_append, List.reverse_cons, List.append_assoc, List.singleton_append,
      List.takeWhile_append_of_pos keeps, List.dropWhile_append_of_pos keeps,
      @List.takeWhile_cons_of_neg _ (· != '.') _ _ stops,
      @List.dropWhile_cons_of_neg _ (· != '.') _ _ stops, List.append_nil, backwards]
    exact congrArg some (List.reverse_reverse extension)

namespace FilePath

/-- A path whose text ends in a dot and an extension. -/
def EndsIn (extension : String) (path : FilePath) : Prop :=
  '.' :: extension.toList <:+ path.text.toList

/-- A text cut behind its last slash. -/
structure LastPart (text folder last : List Char) : Prop where
  whole : text = folder ++ last
  plain : '/' ∉ last
  closed : folder = [] ∨ ∃ above, folder = above ++ ['/']

theorem exists_lastPart (text : List Char) : ∃ folder last, LastPart text folder last := by
  induction text with
  | nil => exact ⟨[], [], rfl, List.not_mem_nil, .inl rfl⟩
  | cons first rest ih =>
      obtain ⟨folder, last, rfl, plain, rfl | ⟨above, rfl⟩⟩ := ih
      · by_cases slash : first = '/'
        · exact ⟨['/'], last, by rw [slash]; rfl, plain, .inr ⟨[], rfl⟩⟩
        · refine ⟨[], first :: last, rfl, ?_, .inl rfl⟩
          rw [List.mem_cons, not_or]
          exact ⟨Ne.symm slash, plain⟩
      · exact ⟨first :: (above ++ ['/']), last, rfl, plain, .inr ⟨first :: above, rfl⟩⟩

namespace LastPart

variable {text folder last : List Char}

/-- The last part of a text is the last of the parts between its slashes. -/
theorem exists_splitOn (part : LastPart text folder last) :
    ∃ before, text.splitOn '/' = before ++ [last] := by
  obtain ⟨rfl, plain, rfl | ⟨above, rfl⟩⟩ := part
  · exact ⟨[], List.splitOn_eq_singleton plain⟩
  · refine ⟨above.splitOn '/', ?_⟩
    rw [List.append_assoc, List.singleton_append, List.splitOn_append_cons_self,
      List.splitOn_eq_singleton plain]

/-- A last part that is more than a single dot is not dropped from the end of a path. -/
theorem dropTrailing_eq (part : LastPart text folder last) (nonempty : last ≠ [])
    (notHere : last ≠ ['.']) : dropTrailing text.reverse = last.reverse ++ folder.reverse := by
  rw [part.whole, List.reverse_append]
  have plain : '/' ∉ last.reverse := fun member => part.plain (List.mem_reverse.1 member)
  have nonempty' : last.reverse ≠ [] := fun none => nonempty (List.reverse_eq_nil_iff.1 none)
  have notHere' : last.reverse ≠ ['.'] := fun dot => notHere (List.reverse_eq_iff.1 dot)
  generalize last.reverse = backwards at *
  unfold dropTrailing
  split
  next rest start =>
    obtain ⟨first, others, rfl⟩ := List.exists_cons_of_ne_nil nonempty'
    obtain ⟨rfl, -⟩ := List.cons.inj start
    exact absurd List.mem_cons_self plain
  next rest start =>
    rcases backwards with _ | ⟨first, _ | ⟨second, others⟩⟩
    · exact absurd rfl nonempty'
    · obtain ⟨rfl, -⟩ := List.cons.inj start
      exact absurd rfl notHere'
    · obtain ⟨-, later⟩ := List.cons.inj start
      obtain ⟨rfl, -⟩ := List.cons.inj later
      exact absurd (List.mem_cons_of_mem _ List.mem_cons_self) plain
  next => rfl

theorem cutLast_eq (part : LastPart text folder last) (nonempty : last ≠ [])
    (notHere : last ≠ ['.']) : cutLast text = (folder, last) := by
  have ends : (last.reverse ++ folder.reverse).takeWhile (· != '/') = last.reverse := by
    rw [List.takeWhile_append_of_pos fun character member => ?_]
    · rcases part.closed with rfl | ⟨above, rfl⟩
      · exact List.append_nil _
      · rw [List.reverse_append, List.reverse_singleton, List.singleton_append,
          List.takeWhile_cons_of_neg (by simp), List.append_nil]
    · rw [bne_iff_ne]
      rintro rfl
      exact part.plain (List.mem_reverse.1 member)
  unfold cutLast
  simp only [part.dropTrailing_eq nonempty notHere, ends, List.drop_left, List.reverse_reverse]

theorem lastName?_eq (part : LastPart text folder last) (nonempty : last ≠ [])
    (notHere : last ≠ ['.']) (notUp : last ≠ ['.', '.']) : lastName? text = some last := by
  unfold lastName?
  rw [part.cutLast_eq nonempty notHere]
  simp [nonempty, notHere, notUp]

theorem lastName?_eq_of_isName {name : String} (part : LastPart text folder name.toList)
    (isName : IsName name) : lastName? text = some name.toList := by
  refine part.lastName?_eq ?_ ?_ ?_
  · exact fun same => isName.nonempty (String.toList_inj.1 same)
  · exact fun same => isName.notHere (String.toList_inj.1 same)
  · exact fun same => isName.notUp (String.toList_inj.1 same)

end LastPart

section ending

variable {path : FilePath} {extension other : String}

theorem exists_segments {folder last : List Char} (part : LastPart path.text.toList folder last) :
    ∃ before, path.segments = before ++ [String.ofList last] := by
  obtain ⟨before, split⟩ := part.exists_splitOn
  refine ⟨before.map String.ofList, ?_⟩
  rw [segments, split, List.map_append, List.map_singleton]

theorem exists_folder {before : List String} {last : String}
    (split : path.segments = before ++ [last]) :
    ∃ folder, LastPart path.text.toList folder last.toList := by
  obtain ⟨folder, name, part⟩ := exists_lastPart path.text.toList
  obtain ⟨others, same⟩ := exists_segments part
  obtain ⟨-, equal⟩ := List.append_inj' (split.symm.trans same) rfl
  cases equal
  exact ⟨folder, String.toList_ofList ▸ part⟩

/-- An extension that files have: it is not empty, and neither slashes nor dots are in it. -/
structure IsExtension (extension : String) : Prop where
  nonempty : extension.toList ≠ []
  plain : '/' ∉ extension.toList
  dotless : '.' ∉ extension.toList

theorem EndsIn.unique (ends : path.EndsIn extension) (ends' : path.EndsIn other)
    (isExtension : IsExtension extension) (isExtension' : IsExtension other) :
    extension = other := by
  -- The dot of the shorter ending cannot stand inside the longer one.
  have inside {first second : String} (isExtension : IsExtension second)
      (suffix : '.' :: first.toList <:+ '.' :: second.toList) : first = second := by
    rcases List.suffix_cons_iff.1 suffix with same | within
    · exact String.toList_inj.1 (List.cons.inj same).2
    · exact absurd (within.subset List.mem_cons_self) isExtension.dotless
  rcases Nat.le_total ('.' :: extension.toList).length ('.' :: other.toList).length with
    shorter | shorter
  · exact inside isExtension' (List.suffix_of_suffix_length_le ends ends' shorter)
  · exact (inside isExtension (List.suffix_of_suffix_length_le ends' ends shorter)).symm

/-- The ending of a path is that of its last part. -/
theorem EndsIn.suffix_last {folder last : List Char} (ends : path.EndsIn extension)
    (isExtension : IsExtension extension) (part : LastPart path.text.toList folder last) :
    '.' :: extension.toList <:+ last := by
  obtain ⟨whole, -, rfl | ⟨above, rfl⟩⟩ := part
  · rw [List.nil_append] at whole
    exact whole ▸ ends
  · rw [List.append_assoc, List.singleton_append] at whole
    have closed : '/' :: last <:+ path.text.toList := whole ▸ List.suffix_append above _
    rcases Nat.le_total ('.' :: extension.toList).length ('/' :: last).length with shorter | longer
    · rcases List.suffix_cons_iff.1 (List.suffix_of_suffix_length_le ends closed shorter) with
        same | within
      · exact absurd (List.cons.inj same).1 (by decide)
      · exact within
    · rcases List.mem_cons.1 ((List.suffix_of_suffix_length_le closed ends longer).subset
        List.mem_cons_self) with same | member
      · exact absurd same (by decide)
      · exact absurd member isExtension.plain

/-- A last part with an extension is the name of an entry. -/
theorem IsExtension.isName_of_suffix (isExtension : IsExtension extension) {last : List Char}
    (suffix : '.' :: extension.toList <:+ last) : last ≠ [] ∧ last ≠ ['.'] ∧ last ≠ ['.', '.'] := by
  obtain ⟨character, others, start⟩ := List.exists_cons_of_ne_nil isExtension.nonempty
  have member : character ∈ extension.toList := start ▸ List.mem_cons_self
  have within : character ∈ last := suffix.subset (List.mem_cons_of_mem _ member)
  have apart : character ≠ '.' := by
    rintro rfl
    exact isExtension.dotless member
  refine ⟨?_, ?_, ?_⟩
  · rintro rfl
    cases within
  · rintro rfl
    exact apart (List.mem_singleton.1 within)
  · rintro rfl
    rcases List.mem_cons.1 within with same | within
    · exact apart same
    · exact apart (List.mem_singleton.1 within)

theorem EndsIn.lastName?_ne_none (ends : path.EndsIn extension)
    (isExtension : IsExtension extension) : lastName? path.text.toList ≠ none := by
  obtain ⟨folder, last, part⟩ := exists_lastPart path.text.toList
  obtain ⟨nonempty, notHere, notUp⟩ :=
    isExtension.isName_of_suffix (ends.suffix_last isExtension part)
  rw [part.lastName?_eq nonempty notHere notUp]
  exact nofun

/-- A path whose extension is changed ends in the new one, or has no name. -/
theorem endsIn_withExtension (path : FilePath) (extension : String) :
    (path.withExtension extension).EndsIn extension ∨
      lastName? (path.withExtension extension).text.toList = none := by
  unfold withExtension
  dsimp only
  split
  next unnamed =>
    rw [String.toList_ofList]
    exact .inr unnamed
  next name named =>
    refine .inl ?_
    rw [EndsIn, String.toList_append, String.toList_append, List.append_assoc]
    exact List.suffix_append _ _

theorem endsIn_join (path : FilePath) {name : String}
    (suffix : '.' :: extension.toList <:+ name.toList) : (path.join name).EndsIn extension := by
  have behind (before : String) : '.' :: extension.toList <:+ (before ++ name).toList := by
    rw [String.toList_append]
    exact suffix.trans (List.suffix_append _ _)
  unfold join
  split
  next => exact behind _
  next => exact behind _

end ending

end FilePath

namespace FileSystem

open FilePath (EndsIn IsExtension LastPart)

variable {files : FileSystem} {path : FilePath} {route : Route} {extension : String}

/-- A path that leads to a file ends in the name of that file. -/
theorem exists_lastPart_of_file {content : ByteArray} (resolved : files.resolve path = .ok route)
    (found : files.root.kind? route = some (.file content)) :
    ∃ parent name folder, route = parent ++ [name] ∧ LastPart path.text.toList folder name.toList ∧
      FilePath.lastName? path.text.toList = some name.toList := by
  obtain ⟨before, last, split⟩ : ∃ before last, path.segments = before ++ [last] := by
    obtain ⟨_, _, part⟩ := FilePath.exists_lastPart path.text.toList
    obtain ⟨before, split⟩ := FilePath.exists_segments part
    exact ⟨before, _, split⟩
  obtain ⟨folder, part⟩ := FilePath.exists_folder split
  obtain ⟨parent, -, followed⟩ := (walk_eq_ok_iff split).1 (resolve_eq_ok_iff.1 resolved).2
  obtain ⟨directory, leads⟩ := follow_eq_ok_iff.1 followed
  cases leads with
  | stay => cases directory.symm.trans found
  | up => cases (Listing.kind?_dropLast directory).symm.trans found
  | down isName =>
      exact ⟨parent, last, folder, rfl, part, part.lastName?_eq_of_isName isName⟩

/-- A file can be read under a path with an extension only if its path ends in it. -/
theorem endsIn_of_file {content : ByteArray} (resolved : files.resolve path = .ok route)
    (found : files.root.kind? route = some (.file content))
    (extended : path.extension? = some extension) : path.EndsIn extension := by
  obtain ⟨parent, name, folder, -, part, last⟩ := exists_lastPart_of_file resolved found
  unfold FilePath.extension? FilePath.fileName? at extended
  rw [last] at extended
  obtain ⟨characters, named, rfl⟩ := Option.map_eq_some_iff.1 extended
  obtain ⟨-, stem, -, split⟩ := FileName.extension?_ofName_eq_some_iff.1 named
  rw [EndsIn, String.toList_ofList, part.whole, split, ← List.append_assoc]
  exact List.suffix_append _ _

/-- What a path with an extension leads to has a name with that extension. -/
theorem exists_concat_of_resolve (ends : path.EndsIn extension)
    (isExtension : IsExtension extension) (resolved : files.resolve path = .ok route) :
    ∃ parent last, route = parent ++ [last] ∧ '.' :: extension.toList <:+ last.toList := by
  obtain ⟨folder, last, part⟩ := FilePath.exists_lastPart path.text.toList
  obtain ⟨before, split⟩ := FilePath.exists_segments part
  obtain ⟨parent, -, followed⟩ := (walk_eq_ok_iff split).1 (resolve_eq_ok_iff.1 resolved).2
  obtain ⟨-, leads⟩ := follow_eq_ok_iff.1 followed
  have suffix := ends.suffix_last isExtension part
  obtain ⟨nonempty, notHere, notUp⟩ := isExtension.isName_of_suffix suffix
  refine ⟨parent, String.ofList last, leads.eq_concat ?_ ?_ ?_, ?_⟩
  · exact fun same => nonempty (String.ofList_injective same)
  · exact fun same => notHere (String.ofList_injective same)
  · exact fun same => notUp (String.ofList_injective same)
  · rw [String.toList_ofList]
    exact suffix

theorem Writable.suffix_last {parent : Route} {last : String}
    (writable : Writable files path parent last) (ends : path.EndsIn extension)
    (isExtension : IsExtension extension) : '.' :: extension.toList <:+ last.toList := by
  obtain ⟨before, split, -⟩ := writable.walked
  obtain ⟨folder, part⟩ := FilePath.exists_folder split
  exact ends.suffix_last isExtension part

theorem Writable.lastName?_eq {parent : Route} {last : String}
    (writable : Writable files path parent last) :
    FilePath.lastName? path.text.toList = some last.toList := by
  obtain ⟨before, split, -⟩ := writable.walked
  obtain ⟨folder, part⟩ := FilePath.exists_folder split
  exact part.lastName?_eq_of_isName writable.name

end FileSystem

end HackToolchain.Files
