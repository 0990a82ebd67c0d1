import HackToolchain.Proofs.Files.Enumeration
import HackToolchain.Proofs.Project.Discovery
import Mathlib.Data.List.Nodup

/-!
# All sources below a path

Below a directory every file with the name of a source is found once, and in the
order of paths, however the directories enumerate their entries.  A directory is
searched and not listed, whatever its name is, unless its path is too long to be
followed: then its name is looked at as if it were a file, and what is below it
is not found.
-/

namespace HackToolchain.Project

open HackToolchain.Files
open HackToolchain.Files.FilePath (Before before_joinAll)
open HackToolchain.Files.FileSystem (SameTree)

/-! ## What is listed -/

/-- A route to the name of a source, which has a stem before its extension. -/
def NamesSource (route : Route) : Prop :=
  ∃ parent stem, stem ≠ "" ∧ route = parent ++ [stem ++ "." ++ sourceExtension]

theorem namesSource_concat_iff {parent : Route} {name : String} :
    NamesSource (parent ++ [name]) ↔ isSourceName name = true := by
  rw [isSourceName, beq_iff_eq, FileName.extension?_ofName_eq_some_iff]
  constructor
  · rintro ⟨above, stem, nonempty, whole⟩
    obtain ⟨-, same⟩ := List.append_inj' whole rfl
    obtain rfl := List.singleton_inj.1 same
    refine ⟨isExtension_source.dotless, stem.toList, ?_, ?_⟩
    · exact fun none => nonempty (String.toList_eq_nil_iff.1 none)
    · simp [sourceExtension]
  · rintro ⟨-, stem, nonempty, split⟩
    have whole : String.ofList stem ++ "." ++ sourceExtension = name := by
      rw [← String.toList_inj, split]
      simp [sourceExtension]
    exact ⟨parent, String.ofList stem, fun empty => nonempty (String.ofList_injective empty),
      by rw [whole]⟩

theorem not_namesSource_nil : ¬NamesSource [] :=
  fun ⟨_, _, _, whole⟩ => List.append_ne_nil_of_right_ne_nil _ (List.cons_ne_nil _ _) whole.symm

/-- A place below a directory where the search ends: a file, or a directory it cannot follow. -/
def IsEnd (path : FilePath) (listing : Listing) (below : Route) : Prop :=
  (∃ content, listing.kind? below = some (.file content)) ∨
    listing.kind? below = some .directory ∧ (path.joinAll below).fits = false

/-- What is listed as a source below a directory: every directory on the way can be followed. -/
structure Listed (path : FilePath) (listing : Listing) (below : Route) : Prop where
  named : NamesSource below
  followed : ∀ {parent rest}, below = parent ++ rest → parent ≠ [] → rest ≠ [] →
    (path.joinAll parent).fits = true
  ends : IsEnd path listing below

section listed

variable {path : FilePath} {listing inner beside : Listing} {name : String} {rest below : Route}

theorem namesSource_cons_iff (further : rest ≠ []) :
    NamesSource (name :: rest) ↔ NamesSource rest := by
  obtain ⟨parent, last, rfl⟩ := (List.eq_nil_or_concat rest).resolve_left further
  rw [List.concat_eq_append, ← List.cons_append, namesSource_concat_iff, namesSource_concat_iff]

theorem isEnd_congr {folder : FilePath} {deeper : Route}
    (kinds : listing.kind? below = inner.kind? deeper)
    (joined : path.joinAll below = folder.joinAll deeper) :
    IsEnd path listing below ↔ IsEnd folder inner deeper := by
  rw [IsEnd, IsEnd, kinds, joined]

theorem IsEnd.kind?_ne_none (ends : IsEnd path listing below) : listing.kind? below ≠ none := by
  rcases ends with ⟨_, found⟩ | ⟨found, -⟩
  · exact found ▸ nofun
  · exact found ▸ nofun

theorem Listed.exists_cons (listed : Listed path listing below) :
    ∃ name rest, below = name :: rest :=
  List.exists_cons_of_ne_nil fun none => not_namesSource_nil (none ▸ listed.named)

theorem listed_congr (same : beside.kind? below = listing.kind? below)
    (listed : Listed path listing below) : Listed path beside below :=
  ⟨listed.named, listed.followed, (isEnd_congr same rfl).2 listed.ends⟩

theorem not_listed_of_none (nothing : listing.get? name = none) :
    ¬Listed path listing (name :: rest) := by
  intro listed
  have found := listed.ends.kind?_ne_none
  rw [Listing.kind?_cons, nothing] at found
  exact found rfl

/-- A name in the directory itself is listed if it is that of a source. -/
theorem listed_singleton_iff (ends : IsEnd path listing [name]) :
    Listed path listing [name] ↔ isSourceName name = true := by
  constructor
  · exact fun listed => (@namesSource_concat_iff [] name).1 listed.named
  · intro named
    refine ⟨(@namesSource_concat_iff [] name).2 named, fun whole above further => ?_, ends⟩
    rcases List.append_eq_singleton_iff.1 whole.symm with ⟨none, -⟩ | ⟨-, none⟩
    · exact absurd none above
    · exact absurd none further

/-- Where a name leads no further, it is listed alone. -/
theorem listed_cons_of_isEnd (ends : IsEnd path listing [name])
    (closed : rest ≠ [] → ¬Listed path listing (name :: rest)) :
    Listed path listing (name :: rest) ↔ rest = [] ∧ isSourceName name = true := by
  constructor
  · intro listed
    by_cases further : rest = []
    · subst further
      exact ⟨rfl, (listed_singleton_iff ends).1 listed⟩
    · exact absurd listed (closed further)
  · rintro ⟨rfl, named⟩
    exact (listed_singleton_iff ends).2 named

theorem listed_cons_of_file {content : ByteArray}
    (here : listing.get? name = some (.file content)) :
    Listed path listing (name :: rest) ↔ rest = [] ∧ isSourceName name = true := by
  have last : listing.kind? [name] = some (.file content) := by
    rw [Listing.kind?_cons, here]
    rfl
  refine listed_cons_of_isEnd (.inl ⟨content, last⟩) fun further listed => ?_
  have found := listed.ends.kind?_ne_none
  rw [Listing.kind?_cons, here] at found
  exact found (if_neg further)

theorem listed_cons_of_long (here : listing.get? name = some (.directory inner))
    (long : (path.join name).fits = false) :
    Listed path listing (name :: rest) ↔ rest = [] ∧ isSourceName name = true := by
  have last : listing.kind? [name] = some .directory := by
    rw [Listing.kind?_cons, here]
    rfl
  refine listed_cons_of_isEnd (.inr ⟨last, long⟩) fun further listed => ?_
  have fits : (path.join name).fits = true :=
    listed.followed List.singleton_append.symm (List.cons_ne_nil _ _) further
  exact absurd (long.symm.trans fits) Bool.false_ne_true

/-- Below a directory that can be followed is listed what is listed from there. -/
theorem listed_cons_of_fits (here : listing.get? name = some (.directory inner))
    (fits : (path.join name).fits = true) :
    Listed path listing (name :: rest) ↔ Listed (path.join name) inner rest := by
  have kinds : listing.kind? (name :: rest) = inner.kind? rest := by
    rw [Listing.kind?_cons, here]
  have isEnd_iff : IsEnd path listing (name :: rest) ↔ IsEnd (path.join name) inner rest :=
    isEnd_congr kinds rfl
  constructor
  · intro listed
    have ends := isEnd_iff.1 listed.ends
    have further : rest ≠ [] := by
      rintro rfl
      rcases ends with ⟨_, found⟩ | ⟨-, long⟩
      · cases found
      · exact absurd (long.symm.trans fits) Bool.false_ne_true
    exact ⟨(namesSource_cons_iff further).1 listed.named,
      fun whole above => listed.followed (congrArg (name :: ·) whole) (List.cons_ne_nil _ _), ends⟩
  · intro listed
    have further : rest ≠ [] := fun none => not_namesSource_nil (none ▸ listed.named)
    refine ⟨(namesSource_cons_iff further).2 listed.named, ?_, isEnd_iff.2 listed.ends⟩
    intro parent tail whole above after
    obtain ⟨first, between, rfl⟩ := List.exists_cons_of_ne_nil above
    obtain ⟨rfl, deeper⟩ := List.cons.inj whole
    by_cases none : between = []
    · rw [none]
      exact fits
    · exact listed.followed deeper none after

end listed

/-! ## What is enumerated -/

/-- Routes that are the listed ones, each of them once. -/
structure Enumerates (path : FilePath) (listing : Listing) (routes : List Route) : Prop where
  nodup : routes.Nodup
  mem_iff : ∀ {below}, below ∈ routes ↔ Listed path listing below

section enumerating

variable {path : FilePath} {listing beside : Listing} {first : String} {rest : Route}
  {own routes : List Route}

/-- Only what the first name of a route stands for matters. -/
theorem listed_of_get? (same : beside.get? first = listing.get? first)
    (listed : Listed path listing (first :: rest)) : Listed path beside (first :: rest) := by
  refine listed_congr ?_ listed
  rw [Listing.kind?_cons, Listing.kind?_cons, same]

/-- The routes through a first entry go with those through the entries behind it. -/
theorem Enumerates.append (enumerates : Enumerates path beside routes) (nodup : own.Nodup)
    (mem_iff : ∀ {below}, below ∈ own ↔ ∃ rest, below = first :: rest ∧ Listed path listing below)
    (free : beside.get? first = none)
    (same : ∀ {name}, first ≠ name → listing.get? name = beside.get? name) :
    Enumerates path listing (own ++ routes) := by
  -- The first name of a route tells the two apart, since no entry behind the first has its name.
  refine ⟨List.nodup_append'.2 ⟨nodup, enumerates.nodup, ?_⟩, ?_⟩
  · intro below mine others
    obtain ⟨rest, rfl, -⟩ := mem_iff.1 mine
    exact not_listed_of_none free (enumerates.mem_iff.1 others)
  · intro below
    rw [List.mem_append, mem_iff, enumerates.mem_iff]
    constructor
    · rintro (⟨-, -, listed⟩ | listed)
      · exact listed
      · obtain ⟨name, rest, rfl⟩ := listed.exists_cons
        refine listed_of_get? (same ?_) listed
        rintro rfl
        exact not_listed_of_none free listed
    · intro listed
      obtain ⟨name, rest, rfl⟩ := listed.exists_cons
      by_cases equal : first = name
      · exact .inl ⟨rest, by rw [equal], listed⟩
      · exact .inr (listed_of_get? (same equal).symm listed)

/-- The same for an entry that is not followed. -/
theorem Enumerates.consName (enumerates : Enumerates path beside routes)
    (leaf : ∀ {rest}, Listed path listing (first :: rest) ↔ rest = [] ∧ isSourceName first = true)
    (free : beside.get? first = none)
    (same : ∀ {name}, first ≠ name → listing.get? name = beside.get? name) :
    Enumerates path listing (if isSourceName first then [first] :: routes else routes) := by
  have added : (if isSourceName first then [first] :: routes else routes) =
      (if isSourceName first then [[first]] else []) ++ routes := by
    split <;> rfl
  rw [added]
  refine enumerates.append ?_ ?_ free same
  · split
    next => exact List.nodup_singleton _
    next => exact List.nodup_nil
  · intro below
    constructor
    · intro member
      split at member
      next named =>
        cases List.mem_singleton.1 member
        exact ⟨[], rfl, leaf.2 ⟨rfl, named⟩⟩
      next => cases member
    · rintro ⟨rest, rfl, listed⟩
      obtain ⟨rfl, named⟩ := leaf.1 listed
      rw [if_pos named]
      exact List.mem_singleton_self _

/-- All sources below a path are enumerated, in whatever order the entries are. -/
theorem enumerates_sourceRoutes (path : FilePath) (proper : listing.Proper) :
    Enumerates path listing (sourceRoutes path listing) := by
  -- The path grows with every directory that is followed, and stays for the entries beside it.
  induction listing generalizing path with
  | empty =>
      refine ⟨List.nodup_nil, fun {below} => ⟨nofun, fun listed => ?_⟩⟩
      obtain ⟨name, rest, rfl⟩ := listed.exists_cons
      exact absurd listed (not_listed_of_none rfl)
  | file first content rest ih =>
      obtain ⟨-, free, proper⟩ := proper
      have here : (Listing.file first content rest).get? first = some (.file content) :=
        if_pos rfl
      exact (ih path proper).consName (listed_cons_of_file here) free fun other => if_neg other
  | directory first inner rest below ih =>
      obtain ⟨-, free, properBelow, proper⟩ := proper
      have here : (Listing.directory first inner rest).get? first = some (.directory inner) :=
        if_pos rfl
      rw [sourceRoutes]
      split
      next fits =>
        have enumerates := below (path.join first) properBelow
        have nodup : ((sourceRoutes (path.join first) inner).map (first :: ·)).Nodup :=
          enumerates.nodup.map fun _ _ same => (List.cons.inj same).2
        refine (ih path proper).append nodup ?_ free fun other => if_neg other
        intro route
        rw [List.mem_map]
        constructor
        · rintro ⟨deeper, member, rfl⟩
          exact ⟨deeper, rfl, (listed_cons_of_fits here fits).2 (enumerates.mem_iff.1 member)⟩
        · rintro ⟨deeper, rfl, listed⟩
          exact ⟨deeper, enumerates.mem_iff.2 ((listed_cons_of_fits here fits).1 listed), rfl⟩
      next long =>
        exact (ih path proper).consName (listed_cons_of_long here (eq_false_of_ne_true long))
          free fun other => if_neg other

end enumerating

/-! ## The order of what is found -/

theorem precedes_iff {first second : Route} :
    precedes first second = true ↔ ¬second < first := by
  induction first generalizing second with
  | nil => simp [precedes]
  | cons name rest ih =>
      cases second with
      | nil => simp [precedes]
      | cons other others =>
          rw [precedes, List.not_lt, List.cons_le_cons_iff, ← List.not_lt]
          split
          next same =>
            rw [ih, same]
            simp
          next apart => simp [apart]

theorem pairwise_sortRoutes (routes : List Route) :
    (sortRoutes routes).Pairwise fun first second => ¬second < first := by
  have transitive (first second third : Route) (less : precedes first second = true)
      (less' : precedes second third = true) : precedes first third = true := by
    rw [precedes_iff, List.not_lt] at less less' ⊢
    exact List.le_trans less less'
  have total (first second : Route) : (precedes first second || precedes second first) = true := by
    rw [Bool.or_eq_true, precedes_iff, precedes_iff, List.not_lt, List.not_lt]
    exact List.le_total first second
  exact (List.pairwise_mergeSort transitive total routes).imp precedes_iff.1

theorem sortRoutes_eq_of_perm {routes others : List Route} (perm : routes.Perm others) :
    sortRoutes routes = sortRoutes others :=
  List.Perm.eq_of_pairwise
    (fun _ _ _ _ less less' => List.le_antisymm (List.not_lt.1 less) (List.not_lt.1 less'))
    (pairwise_sortRoutes routes) (pairwise_sortRoutes others)
    ((List.mergeSort_perm _ _).trans (perm.trans (List.mergeSort_perm _ _).symm))

/-- Routes that differ are sorted without ties. -/
theorem pairwise_lt_sortRoutes {routes : List Route} (nodup : routes.Nodup) :
    (sortRoutes routes).Pairwise (· < ·) := by
  have apart : (sortRoutes routes).Pairwise (· ≠ ·) :=
    (List.mergeSort_perm routes precedes).nodup_iff.2 nodup
  exact ((pairwise_sortRoutes routes).and apart).imp fun ⟨less, differ⟩ =>
    (List.le_iff_lt_or_eq.1 (List.not_lt.1 less)).resolve_right differ

/-! ## Exactness -/

section exact

variable {files other : FileSystem} {path : FilePath} {route below : Route} {listing : Listing}

/-- A file with the name of a source. -/
def IsSourceFile (listing : Listing) (below : Route) : Prop :=
  NamesSource below ∧ ∃ content, listing.kind? below = some (.file content)

/-- Where all directories can be followed, the source files are listed and nothing else. -/
theorem listed_iff_isSourceFile
    (fits : ∀ folder, folder ≠ [] → listing.kind? folder = some .directory →
      (path.joinAll folder).fits = true) :
    Listed path listing below ↔ IsSourceFile listing below := by
  constructor
  · intro listed
    refine ⟨listed.named, listed.ends.resolve_right ?_⟩
    rintro ⟨directory, long⟩
    obtain ⟨name, rest, rfl⟩ := listed.exists_cons
    exact absurd (long.symm.trans (fits _ (List.cons_ne_nil _ _) directory)) Bool.false_ne_true
  · rintro ⟨named, content, found⟩
    refine ⟨named, ?_, .inl ⟨content, found⟩⟩
    rintro parent rest rfl above further
    exact fits parent above (Listing.kind?_eq_directory_of_append further (found ▸ nofun))

theorem extension?_eq_iff_of_file {content : ByteArray} (resolved : files.resolve path = .ok route)
    (found : files.root.kind? route = some (.file content)) :
    path.extension? = some sourceExtension ↔ NamesSource route := by
  obtain ⟨parent, name, folder, rfl, -, last⟩ :=
    FileSystem.exists_lastPart_of_file resolved found
  unfold FilePath.extension? FilePath.fileName?
  rw [last, namesSource_concat_iff, isSourceName, beq_iff_eq]
  change (FileName.ofName name.toList).extension?.map String.ofList = _ ↔ _
  rw [Option.map_eq_some_iff]
  constructor
  · rintro ⟨characters, extended, same⟩
    rw [extended, ← same, String.toList_ofList]
  · intro extended
    exact ⟨_, extended, String.ofList_toList⟩

/-- Routes below a directory that is enumerated properly are sorted by their paths. -/
theorem pairwise_before_sortRoutes (proper : listing.Proper) :
    ((sortRoutes (sourceRoutes path listing)).map path.joinAll).Pairwise Before := by
  have enumerates := enumerates_sourceRoutes path proper
  have names {below} (member : below ∈ sortRoutes (sourceRoutes path listing)) :
      ∀ name ∈ below, FilePath.IsComponent name := by
    intro name inside
    have listed := enumerates.mem_iff.1 (List.mem_mergeSort.1 member)
    exact (proper.isEntryName listed.ends.kind?_ne_none name inside).isComponent
  rw [List.pairwise_map]
  exact (pairwise_lt_sortRoutes enumerates.nodup).imp_of_mem fun member member' less =>
    before_joinAll path (names member) (names member') less

/-- Enumeration in another order changes nothing. -/
theorem discover_eq_of_sameTree (proper : files.root.Proper) (proper' : other.root.Proper)
    (same : SameTree files other) (path : FilePath) : discover other path = discover files path := by
  have kinds := same.map_kind_get? path
  unfold discover
  cases got : files.get? path with
  | none =>
      rw [got, Option.map_none, Option.map_eq_none_iff] at kinds
      rw [kinds]
  | some entry =>
      rw [got, Option.map_some] at kinds
      obtain ⟨entry', got', kinds⟩ := Option.map_eq_some_iff.1 kinds
      rw [got']
      cases entry with
      | file content =>
          cases entry' with
          | file content' => rfl
          | directory inner' => cases kinds
      | directory inner =>
          cases entry' with
          | file content' => cases kinds
          | directory inner' =>
              obtain ⟨place, resolved, found⟩ := FileSystem.get?_eq_some_iff.1 got
              obtain ⟨place', resolved', found'⟩ := FileSystem.get?_eq_some_iff.1 got'
              cases resolved.symm.trans (same.resolve_eq_ok_iff.1 resolved')
              have alike (below : Route) : inner'.kind? below = inner.kind? below := by
                rw [← Listing.kind?_append found', ← Listing.kind?_append found, same.kind?]
              have enumerates := enumerates_sourceRoutes path (proper.of_find? found)
              have enumerates' := enumerates_sourceRoutes path (proper'.of_find? found')
              have perm : (sourceRoutes path inner').Perm (sourceRoutes path inner) := by
                refine (List.perm_ext_iff_of_nodup enumerates'.nodup enumerates.nodup).2 ?_
                intro below
                rw [enumerates.mem_iff, enumerates'.mem_iff]
                exact ⟨listed_congr (alike below).symm, listed_congr (alike below)⟩
              dsimp only
              rw [sortRoutes_eq_of_perm perm]

/-- What is found below a directory, as the routes to it. -/
structure FindsBelow (path : FilePath) (inner : Listing) (found : Except Failure Input)
    (routes : List Route) : Prop where
  listed : ∀ below, below ∈ routes ↔ Listed path inner below
  /-- Where all directories can be followed, these are the source files. -/
  complete : (∀ folder, folder ≠ [] → inner.kind? folder = some .directory →
    (path.joinAll folder).fits = true) → ∀ below, below ∈ routes ↔ IsSourceFile inner below
  /-- Paths increase strictly, so that nothing is found twice. -/
  ordered : (routes.map path.joinAll).Pairwise Before
  none : routes = [] → found = .error (.noSources path)
  some : routes ≠ [] → found = .ok (.directory path (routes.map path.joinAll))

/-- What the sources of a path are. -/
structure DiscoversExactly (files : FileSystem) (path : FilePath) : Prop where
  /-- A file is its own source, if it has the name of one. -/
  file : ∀ {route content}, files.resolve path = .ok route →
    files.root.kind? route = some (.file content) →
    (NamesSource route → discover files path = .ok (.file path)) ∧
      (¬NamesSource route → discover files path = .error (.invalidInput path))
  directory : ∀ {place inner}, files.resolve path = .ok place →
    files.root.find? place = some (.directory inner) →
    ∃ routes, FindsBelow path inner (discover files path) routes
  nothing : files.get? path = none → discover files path = .error (.invalidInput path)
  /-- The order in which directories enumerate their entries does not matter. -/
  reordered : ∀ {other : FileSystem}, other.root.Proper → SameTree files other →
    discover other path = discover files path

theorem discover_exact (proper : files.root.Proper) (path : FilePath) :
    DiscoversExactly files path := by
  constructor
  case file =>
    intro route content resolved found
    have got := FileSystem.get?_eq_some_iff.2
      ⟨route, resolved, Listing.kind?_eq_file_iff.1 found⟩
    unfold discover
    rw [got, ← extension?_eq_iff_of_file resolved found]
    exact ⟨fun extended => if_pos extended, fun bare => if_neg bare⟩
  case directory =>
    intro place inner resolved found
    have enumerates := enumerates_sourceRoutes path (proper.of_find? found)
    refine ⟨sortRoutes (sourceRoutes path inner), ?_⟩
    constructor
    case listed => exact fun below => List.mem_mergeSort.trans enumerates.mem_iff
    case complete =>
      exact fun fits below =>
        (List.mem_mergeSort.trans enumerates.mem_iff).trans (listed_iff_isSourceFile fits)
    case ordered => exact pairwise_before_sortRoutes (proper.of_find? found)
    case none =>
      intro none
      unfold discover
      rw [FileSystem.get?_eq_some_iff.2 ⟨place, resolved, found⟩]
      dsimp only
      rw [none]
    case some => exact fun several => discover_eq_ok_iff.2 (.directory resolved found several)
  case nothing =>
    intro nothing
    unfold discover
    rw [nothing]
  case reordered => exact fun proper' same => discover_eq_of_sameTree proper proper' same path

/-- A directory with a hidden file, and a directory with the name of a source. -/
def gameFiles : FileSystem where
  workingDirectory := []
  root :=
    .directory "game"
      (.file "lib.vm" ⟨#[]⟩ <|
        .directory "lib" (.file "Math.vm" ⟨#[]⟩ .empty) <|
        .file ".vm" ⟨#[]⟩ <|
        .directory "X.vm" (.file "In.vm" ⟨#[]⟩ .empty) <|
        .file "notes.txt" ⟨#[]⟩ .empty)
      .empty

theorem discover_exact_game :
    gameFiles.root.Proper ∧ DiscoversExactly gameFiles ⟨"game"⟩ :=
  ⟨by decide, discover_exact (by decide) ⟨"game"⟩⟩

end exact

end HackToolchain.Project
