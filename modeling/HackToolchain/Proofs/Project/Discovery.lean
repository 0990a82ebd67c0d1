import HackToolchain.Project.Sources
import HackToolchain.Proofs.Files.Extensions

/-!
# What is found as a source

The sources of a path are that path itself or the paths of the source names
below it.  All of them end in the extension of sources.  A file whose name is
not that of a source can be written without a change to what is found.
-/

namespace HackToolchain.Project

open HackToolchain.Files
open HackToolchain.Files.FileSystem (Writable)
open HackToolchain.Files.FilePath (IsExtension)

theorem isExtension_source : IsExtension sourceExtension :=
  ⟨by decide, by decide, by decide⟩

/-- What the sources of a path are found from. -/
inductive Finds (files : FileSystem) (path : FilePath) : Input → Prop where
  | file {route : Route} {content : ByteArray} (resolved : files.resolve path = .ok route)
      (found : files.root.kind? route = some (.file content))
      (extended : path.extension? = some sourceExtension) : Finds files path (.file path)
  | directory {route : Route} {inner : Listing} (resolved : files.resolve path = .ok route)
      (found : files.root.find? route = some (.directory inner))
      (several : sortRoutes (sourceRoutes path inner) ≠ []) :
      Finds files path (.directory path ((sortRoutes (sourceRoutes path inner)).map path.joinAll))

theorem discover_eq_ok_iff {files : FileSystem} {path : FilePath} {input : Input} :
    discover files path = .ok input ↔ Finds files path input := by
  constructor
  · intro discovered
    unfold discover at discovered
    split at discovered
    next content got =>
      obtain ⟨route, resolved, found⟩ := FileSystem.get?_eq_some_iff.1 got
      split at discovered
      next extended =>
        cases discovered
        exact .file resolved (Listing.kind?_eq_file_iff.2 found) extended
      next => cases discovered
    next inner got =>
      obtain ⟨route, resolved, found⟩ := FileSystem.get?_eq_some_iff.1 got
      split at discovered
      next => cases discovered
      next several =>
        cases discovered
        exact .directory resolved found several
    next => cases discovered
  · intro finds
    unfold discover
    cases finds with
    | file resolved found extended =>
        rw [FileSystem.get?_eq_some_iff.2 ⟨_, resolved, Listing.kind?_eq_file_iff.1 found⟩]
        exact if_pos extended
    | @directory route inner resolved found several =>
        rw [FileSystem.get?_eq_some_iff.2 ⟨_, resolved, found⟩]
        dsimp only
        split
        next none => exact absurd none several
        next => rfl

/-! ## Names of sources -/

theorem suffix_of_isSourceName {name : String} (named : isSourceName name = true) :
    '.' :: sourceExtension.toList <:+ name.toList := by
  obtain ⟨-, stem, -, split⟩ := FileName.extension?_ofName_eq_some_iff.1 (beq_iff_eq.1 named)
  exact split ▸ List.suffix_append _ _

/-- A route to a source ends in the name of one. -/
theorem exists_isSourceName {path : FilePath} {listing : Listing} {route : Route}
    (member : route ∈ sourceRoutes path listing) :
    ∃ parent name, route = parent ++ [name] ∧ isSourceName name = true := by
  induction listing generalizing path route with
  | empty => cases member
  | file name content rest ih =>
      rw [sourceRoutes] at member
      split at member
      next named =>
        rcases List.mem_cons.1 member with rfl | later
        · exact ⟨[], name, rfl, named⟩
        · exact ih later
      next => exact ih member
  | directory name inner rest below later =>
      rw [sourceRoutes] at member
      split at member
      next =>
        rcases List.mem_append.1 member with inside | beside
        · obtain ⟨deeper, listed, rfl⟩ := List.mem_map.1 inside
          obtain ⟨parent, last, rfl, named⟩ := below listed
          exact ⟨name :: parent, last, rfl, named⟩
        · exact later beside
      next =>
        split at member
        next named =>
          rcases List.mem_cons.1 member with rfl | beside
          · exact ⟨[], name, rfl, named⟩
          · exact later beside
        next => exact later member

/-- Whatever is found as a source ends in the extension of sources. -/
theorem endsIn_of_finds {files : FileSystem} {path : FilePath} {input : Input}
    (finds : Finds files path input) : ∀ source ∈ input.sources, source.EndsIn sourceExtension := by
  intro source member
  cases finds with
  | file resolved found extended =>
      cases List.mem_singleton.1 member
      exact FileSystem.endsIn_of_file resolved found extended
  | directory resolved found several =>
      obtain ⟨route, listed, rfl⟩ := List.mem_map.1 member
      obtain ⟨parent, name, rfl, named⟩ := exists_isSourceName (List.mem_mergeSort.1 listed)
      rw [FilePath.joinAll, List.foldl_append]
      exact FilePath.endsIn_join _ (suffix_of_isSourceName named)

/-! ## Writing what is not a source -/

section silent

variable {path : FilePath} {listing : Listing} {content : ByteArray}

theorem sourceRoutes_putFile {name : String} (silent : isSourceName name = false) :
    sourceRoutes path (listing.putFile name content) = sourceRoutes path listing := by
  induction listing with
  | empty => simp [Listing.putFile, sourceRoutes, silent]
  | file first old rest ih =>
      unfold Listing.putFile
      split
      next same => simp [sourceRoutes, same, silent]
      next => rw [sourceRoutes, sourceRoutes, ih]
  | directory first inner rest _ ih =>
      unfold Listing.putFile
      split
      next => rfl
      next => rw [sourceRoutes, sourceRoutes, ih]

theorem sourceRoutes_updateDirectory {update : Listing → Listing}
    (same : ∀ path inner, sourceRoutes path (update inner) = sourceRoutes path inner)
    (name : String) :
    sourceRoutes path (listing.updateDirectory name update) = sourceRoutes path listing := by
  induction listing with
  | empty => rfl
  | file first old rest ih =>
      unfold Listing.updateDirectory
      split
      next => rfl
      next => rw [sourceRoutes, sourceRoutes, ih]
  | directory first inner rest _ ih =>
      unfold Listing.updateDirectory
      split
      next => rw [sourceRoutes, sourceRoutes, same]
      next => rw [sourceRoutes, sourceRoutes, ih]

theorem sourceRoutes_put {route : Route}
    (silent : ∀ name ∈ route.getLast?, isSourceName name = false) :
    sourceRoutes path (listing.put content route) = sourceRoutes path listing := by
  induction route generalizing path listing with
  | nil => rfl
  | cons name rest ih =>
      cases rest with
      | nil => exact sourceRoutes_putFile (silent name rfl)
      | cons next others => exact sourceRoutes_updateDirectory (fun _ _ => ih silent) name

/-- What is found stays the same when a file is written that is not named like a source. -/
theorem finds_of_writable {files : FileSystem} {output : FilePath} {parent : Route} {last : String}
    {input : Input} (writable : Writable files output parent last)
    (silent : isSourceName last = false) (content : ByteArray) (finds : Finds files path input) :
    Finds (files.withFile (parent ++ [last]) content) path input := by
  have grows := writable.grows content
  have stays : ∀ {route}, files.resolve path = .ok route →
      (files.withFile (parent ++ [last]) content).resolve path = .ok route :=
    FileSystem.resolve_of_grows grows rfl
  cases finds with
  | @file route old resolved found extended =>
      by_cases same : route = parent ++ [last]
      · exact .file (stays resolved) ((writable.kind?_put content route).trans (if_pos same))
          extended
      · exact .file (stays resolved)
          ((writable.kind?_put content route).trans ((if_neg same).trans found)) extended
  | @directory place inner resolved found several =>
      obtain ⟨changed, found', changes⟩ :=
        Listing.exists_find?_put writable.admits content found
      have routes : sourceRoutes path changed = sourceRoutes path inner := by
        rcases changes with rfl | ⟨rest, split, rfl⟩
        · rfl
        · apply sourceRoutes_put
          intro name member
          have ends : (place ++ rest).getLast? = some name := by
            rw [List.getLast?_append, Option.mem_def.1 member]
            rfl
          rw [← split, List.getLast?_concat] at ends
          cases ends
          exact silent
      rw [← routes] at several ⊢
      exact .directory (stays resolved) found' several

end silent

end HackToolchain.Project
