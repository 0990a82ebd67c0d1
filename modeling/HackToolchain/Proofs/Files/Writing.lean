import HackToolchain.Files.FileSystem
import HackToolchain.Proofs.Files.Contents

/-!
# Writing files

A write that is not refused puts the content at the end of the path and leaves
everything else as it is.  What a path led to before it still leads to, since
directories stay and nothing goes away; so the same write can be done again, and
then it changes nothing.
-/

namespace HackToolchain.Files

/-- A part of a path that is the name of an entry: it neither stays where it is nor leads up. -/
structure IsName (segment : String) : Prop where
  nonempty : segment ≠ ""
  notHere : segment ≠ "."
  notUp : segment ≠ ".."
  short : segment.utf8ByteSize ≤ nameLimit

namespace FileSystem

/-! ## Following paths -/

/-- Where a part of a path leads from a directory. -/
inductive Leads (root : Listing) (route : Route) : String → Route → Prop where
  | stay {segment : String} (idle : segment = "" ∨ segment = ".") : Leads root route segment route
  | up : Leads root route ".." route.dropLast
  | down {segment : String} (name : IsName segment)
      (found : root.kind? (route ++ [segment]) ≠ none) :
      Leads root route segment (route ++ [segment])

theorem Leads.eq_concat {root : Listing} {route next : Route} {segment : String}
    (leads : Leads root route segment next) (nonempty : segment ≠ "") (notHere : segment ≠ ".")
    (notUp : segment ≠ "..") : next = route ++ [segment] := by
  cases leads with
  | stay idle =>
      rcases idle with empty | here
      · exact absurd empty nonempty
      · exact absurd here notHere
  | up => exact absurd rfl notUp
  | down => rfl

theorem kind?_concat {root inner : Listing} {route : Route}
    (here : root.find? route = some (.directory inner)) (name : String) :
    root.kind? (route ++ [name]) = (inner.get? name).map Entry.kind := by
  rw [Listing.kind?, Listing.find?_append here, Listing.find?_singleton]

theorem follow_eq_ok_iff {root : Listing} {route next : Route} {segment : String} :
    follow root route segment = .ok next ↔
      root.kind? route = some .directory ∧ Leads root route segment next := by
  constructor
  · intro followed
    unfold follow at followed
    split at followed
    next => cases followed
    next => cases followed
    next inner here =>
      refine ⟨Listing.kind?_eq_directory_iff.2 ⟨inner, here⟩, ?_⟩
      split at followed
      next idle =>
        cases followed
        exact .stay idle
      next moves =>
        rw [not_or] at moves
        split at followed
        next up =>
          cases followed
          subst up
          exact .up
        next notUp =>
          split at followed
          next => cases followed
          next short =>
            split at followed
            next => cases followed
            next entry found =>
              cases followed
              refine .down ⟨moves.1, moves.2, notUp, Nat.not_lt.1 short⟩ ?_
              rw [kind?_concat here, found]
              exact nofun
  · rintro ⟨directory, leads⟩
    obtain ⟨inner, here⟩ := Listing.kind?_eq_directory_iff.1 directory
    unfold follow
    simp only [here]
    cases leads with
    | stay idle => exact if_pos idle
    | up => exact (if_neg (by decide)).trans (if_pos rfl)
    | down name found =>
        rw [kind?_concat here] at found
        rw [if_neg (not_or.2 ⟨name.nonempty, name.notHere⟩), if_neg name.notUp,
          if_neg (Nat.not_lt.2 name.short)]
        cases entry : inner.get? segment with
        | none => exact absurd (congrArg (Option.map Entry.kind) entry) found
        | some entry => rfl

/-- A tree that has all the directories of an earlier one, and something wherever that had. -/
structure Grows (earlier later : Listing) : Prop where
  directory : ∀ route, earlier.kind? route = some .directory → later.kind? route = some .directory
  found : ∀ route, earlier.kind? route ≠ none → later.kind? route ≠ none

section growing

variable {earlier later : Listing}

theorem follow_of_grows (grows : Grows earlier later) {route next : Route} {segment : String}
    (followed : follow earlier route segment = .ok next) :
    follow later route segment = .ok next := by
  obtain ⟨directory, leads⟩ := follow_eq_ok_iff.1 followed
  refine follow_eq_ok_iff.2 ⟨grows.directory _ directory, ?_⟩
  cases leads with
  | stay idle => exact .stay idle
  | up => exact .up
  | down name found => exact .down name (grows.found _ found)

theorem foldlM_follow_of_grows (grows : Grows earlier later) {segments : List String}
    {route last : Route} (followed : segments.foldlM (follow earlier) route = .ok last) :
    segments.foldlM (follow later) route = .ok last := by
  induction segments generalizing route with
  | nil => exact followed
  | cons segment rest ih =>
      rw [List.foldlM_cons] at followed ⊢
      cases first : follow earlier route segment with
      | error failure =>
          rw [first] at followed
          cases followed
      | ok next =>
          rw [first] at followed
          rw [follow_of_grows grows first]
          exact ih followed

variable {files changed : FileSystem} {path : FilePath} {route : Route}

theorem walk_of_grows (grows : Grows files.root changed.root)
    (same : changed.workingDirectory = files.workingDirectory) (walked : files.walk path = .ok route) :
    changed.walk path = .ok route := by
  have start : changed.start path = files.start path := by rw [start, start, same]
  rw [walk, start]
  exact foldlM_follow_of_grows grows walked

/-- A path is walked up to its last part, which is then followed. -/
theorem walk_eq_ok_iff {before : List String} {last : String}
    (split : path.segments = before ++ [last]) : files.walk path = .ok route ↔
      ∃ parent, before.foldlM (follow files.root) (files.start path) = .ok parent ∧
        follow files.root parent last = .ok route := by
  rw [walk, split, List.foldlM_append]
  cases before.foldlM (follow files.root) (files.start path) with
  | error failure =>
      constructor
      · exact nofun
      · exact fun ⟨_, walked, _⟩ => nomatch walked
  | ok parent =>
      change [last].foldlM (follow files.root) parent = .ok route ↔ _
      rw [List.foldlM_cons]
      constructor
      · intro followed
        refine ⟨parent, rfl, ?_⟩
        cases here : follow files.root parent last with
        | error failure =>
            rw [here] at followed
            cases followed
        | ok next =>
            rw [here] at followed
            cases followed
            rfl
      · rintro ⟨_, same, followed⟩
        cases same
        rw [followed]
        rfl

theorem resolve_eq_ok_iff : files.resolve path = .ok route ↔
    path.flaw? = none ∧ files.walk path = .ok route := by
  unfold resolve
  cases path.flaw? with
  | none => simp
  | some failure => simp

theorem get?_eq_some_iff {entry : Entry} : files.get? path = some entry ↔
    ∃ route, files.resolve path = .ok route ∧ files.root.find? route = some entry := by
  unfold get?
  cases files.resolve path with
  | error failure => simp
  | ok route => simp

theorem resolve_of_grows (grows : Grows files.root changed.root)
    (same : changed.workingDirectory = files.workingDirectory)
    (resolved : files.resolve path = .ok route) : changed.resolve path = .ok route := by
  obtain ⟨flawless, walked⟩ := resolve_eq_ok_iff.1 resolved
  exact resolve_eq_ok_iff.2 ⟨flawless, walk_of_grows grows same walked⟩

theorem resolvedName?_of_grows (grows : Grows files.root changed.root)
    (same : changed.workingDirectory = files.workingDirectory)
    (resolved : files.resolve path = .ok route) :
    changed.resolvedName? path = files.resolvedName? path := by
  have walked := (resolve_eq_ok_iff.1 resolved).2
  unfold resolvedName?
  rw [walked, walk_of_grows grows same walked]

end growing

theorem readText_eq_ok_iff {files : FileSystem} {path : FilePath} {text : String} :
    files.readText path = .ok text ↔ ∃ route content, files.resolve path = .ok route ∧
      files.root.kind? route = some (.file content) ∧ String.fromUTF8? content = some text := by
  constructor
  · intro read
    unfold readText at read
    split at read
    next => cases read
    next route resolved =>
      split at read
      next => cases read
      next => cases read
      next content found =>
        split at read
        next => cases read
        next valid =>
          cases read
          exact ⟨route, content, resolved, Listing.kind?_eq_file_iff.2 found, valid⟩
  · rintro ⟨route, content, resolved, found, valid⟩
    unfold readText
    simp only [resolved, Listing.kind?_eq_file_iff.1 found, valid]

/-- A file that holds the bytes of a text is read as that text. -/
theorem readText_of_resolve {files : FileSystem} {path : FilePath} {route : Route} {text : String}
    (resolved : files.resolve path = .ok route)
    (found : files.root.find? route = some (.file text.toUTF8)) : files.readText path = .ok text :=
  readText_eq_ok_iff.2
    ⟨route, _, resolved, Listing.kind?_eq_file_iff.2 found, dif_pos text.isValidUTF8⟩

/-! ## The place of a write -/

/-- A write to a path has a place: a name in a directory, which is not that of a directory there. -/
structure Writable (files : FileSystem) (path : FilePath) (parent : Route) (last : String) :
    Prop where
  flawless : path.flaw? = none
  walked : ∃ before, path.segments = before ++ [last] ∧
    before.foldlM (follow files.root) (files.start path) = .ok parent
  above : files.root.kind? parent = some .directory
  name : IsName last
  free : files.root.kind? (parent ++ [last]) ≠ some .directory

theorem destination_of_writable {files : FileSystem} {path : FilePath} {parent : Route}
    {last : String} (writable : Writable files path parent last) :
    files.destination path = .ok (parent ++ [last]) := by
  obtain ⟨flawless, ⟨before, split, walked⟩, above, name, free⟩ := writable
  obtain ⟨inner, here⟩ := Listing.kind?_eq_directory_iff.1 above
  have backwards : path.segments.reverse = last :: before.reverse := by
    rw [split, List.reverse_append, List.reverse_singleton, List.singleton_append]
  have whole : (last :: before.reverse).takeWhile (fun segment => segment.isEmpty) = [] :=
    List.takeWhile_cons_of_neg (by simpa using name.nonempty)
  rw [kind?_concat here] at free
  unfold destination
  simp only [flawless, backwards, whole, List.length_nil, List.drop_zero, List.reverse_reverse,
    walked, here, name.notHere, name.notUp, List.isEmpty_nil, Bool.not_true, Bool.false_eq_true,
    or_self, Nat.not_lt.2 name.short, if_false]
  cases found : inner.get? last with
  | none => rfl
  | some entry =>
      cases entry with
      | file content => rfl
      | directory below => exact absurd (congrArg (Option.map Entry.kind) found) free

theorem exists_writable {files : FileSystem} {path : FilePath} {route : Route}
    (placed : files.destination path = .ok route) :
    ∃ parent last, Writable files path parent last ∧ route = parent ++ [last] := by
  unfold destination at placed
  split at placed
  next => cases placed
  rename_i flawless
  dsimp only at placed
  split at placed
  next => cases placed
  rename_i last before cut
  split at placed
  next => cases placed
  rename_i parent walked
  split at placed
  next => cases placed
  next => cases placed
  rename_i inner here
  split at placed
  next => cases placed
  rename_i plain
  split at placed
  next => cases placed
  rename_i short
  simp only [not_or, Bool.not_eq_true, Bool.not_eq_false', List.isEmpty_iff] at plain
  obtain ⟨notHere, notUp, whole⟩ := plain
  rw [whole, List.length_nil, List.drop_zero] at cut
  rw [cut] at whole
  have nonempty : last ≠ "" := by
    rintro rfl
    cases whole
  have segments : path.segments = before.reverse ++ [last] := by
    rw [← List.reverse_reverse path.segments, cut, List.reverse_cons]
  have above := Listing.kind?_eq_directory_iff.2 ⟨inner, here⟩
  have name : IsName last := ⟨nonempty, notHere, notUp, Nat.not_lt.1 short⟩
  split at placed
  next => cases placed
  rename_i apart
  refine ⟨parent, last, ⟨flawless, ⟨_, segments, walked⟩, above, name, ?_⟩,
    (Except.ok.inj placed).symm⟩
  rw [kind?_concat here]
  intro directory
  obtain ⟨below, found⟩ := Listing.kind?_eq_directory_iff.1
    ((congrArg (Option.map Entry.kind) (Listing.find?_singleton last inner)).trans directory)
  exact apart below ((Listing.find?_singleton last inner).symm.trans found)

/-! ## What a write does -/

/-- The file system with a file at the end of a route. -/
def withFile (files : FileSystem) (route : Route) (content : ByteArray) : FileSystem :=
  { files with root := files.root.put content route }

section writing

variable {files changed : FileSystem} {path : FilePath} {content : ByteArray} {parent : Route}
  {last : String}

theorem Writable.admits (writable : Writable files path parent last) :
    files.root.Admits (parent ++ [last]) := by
  obtain ⟨inner, above⟩ := Listing.kind?_eq_directory_iff.1 writable.above
  exact Listing.admits_append above writable.free

theorem Writable.kind?_put (writable : Writable files path parent last) (content : ByteArray)
    (other : Route) :
    (files.withFile (parent ++ [last]) content).root.kind? other =
      if other = parent ++ [last] then some (.file content) else files.root.kind? other :=
  Listing.kind?_put writable.admits content other

theorem Writable.grows (writable : Writable files path parent last) (content : ByteArray) :
    Grows files.root (files.withFile (parent ++ [last]) content).root := by
  constructor
  · intro route directory
    rw [writable.kind?_put, if_neg, directory]
    rintro rfl
    exact writable.free directory
  · intro route found
    rw [writable.kind?_put]
    split
    next => exact nofun
    next => exact found

/-- The path of a place leads there once something is there. -/
theorem Writable.resolve (writable : Writable files path parent last)
    (found : files.root.kind? (parent ++ [last]) ≠ none) :
    files.resolve path = .ok (parent ++ [last]) := by
  obtain ⟨before, split, walked⟩ := writable.walked
  have stepped := follow_eq_ok_iff.2 ⟨writable.above, .down writable.name found⟩
  exact resolve_eq_ok_iff.2
    ⟨writable.flawless, (walk_eq_ok_iff split).2 ⟨parent, walked, stepped⟩⟩

/-- A place that was written can be written again. -/
theorem Writable.again (writable : Writable files path parent last) (content : ByteArray) :
    Writable (files.withFile (parent ++ [last]) content) path parent last := by
  obtain ⟨before, split, walked⟩ := writable.walked
  refine ⟨writable.flawless, ⟨before, split, ?_⟩, ?_, writable.name, ?_⟩
  · exact foldlM_follow_of_grows (writable.grows content) walked
  · exact (writable.grows content).directory _ writable.above
  · rw [writable.kind?_put, if_pos rfl]
    exact nofun

theorem exists_of_write (written : files.write path content = .ok changed) :
    ∃ parent last, Writable files path parent last ∧
      changed = files.withFile (parent ++ [last]) content := by
  unfold write at written
  split at written
  next => cases written
  next route placed =>
    obtain ⟨parent, last, writable, rfl⟩ := exists_writable placed
    exact ⟨parent, last, writable, (Except.ok.inj written).symm⟩

/-- A write that was done can be done again, and then changes nothing. -/
theorem write_again (written : files.write path content = .ok changed) :
    changed.write path content = .ok changed := by
  obtain ⟨parent, last, writable, rfl⟩ := exists_of_write written
  rw [write, destination_of_writable (writable.again content)]
  refine congrArg (fun root => Except.ok (FileSystem.mk root files.workingDirectory)) ?_
  apply Listing.put_eq_self
  rw [writable.kind?_put, if_pos rfl]

/-- One file system after the file of a path got a content, and nothing else changed. -/
structure Replaces (before after : FileSystem) (path : FilePath) (content : ByteArray) : Prop where
  workingDirectory : after.workingDirectory = before.workingDirectory
  /-- The path leads to the file, where no directory was; other routes lead where they led. -/
  place : ∃ route, after.resolve path = .ok route ∧ before.root.kind? route ≠ some .directory ∧
    ∀ other, after.root.kind? other =
      if other = route then some (.file content) else before.root.kind? other

theorem replaces_of_write (written : files.write path content = .ok changed) :
    Replaces files changed path content := by
  obtain ⟨parent, last, writable, rfl⟩ := exists_of_write written
  refine ⟨rfl, parent ++ [last], ?_, writable.free, writable.kind?_put content⟩
  apply (writable.again content).resolve
  rw [writable.kind?_put, if_pos rfl]
  exact nofun

end writing

end FileSystem

end HackToolchain.Files
