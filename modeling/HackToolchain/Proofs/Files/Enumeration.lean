import HackToolchain.Proofs.Files.Writing
import HackToolchain.Proofs.Files.PathOrder

/-!
# Trees and the order of their enumeration

A directory enumerates its entries in some order, every name once.  Apart from
that order a tree is what its routes lead to, and paths lead to the same places
in trees that differ in nothing else.
-/

namespace HackToolchain.Files

/-- A name that an entry of a directory can have. -/
structure IsEntryName (name : String) : Prop extends IsName name where
  plain : '/' ∉ name.toList

instance (name : String) : Decidable (IsEntryName name) :=
  decidable_of_iff ((name ≠ "" ∧ name ≠ "." ∧ name ≠ ".." ∧ name.utf8ByteSize ≤ nameLimit) ∧
      '/' ∉ name.toList)
    ⟨fun ⟨⟨nonempty, notHere, notUp, short⟩, plain⟩ => ⟨⟨nonempty, notHere, notUp, short⟩, plain⟩,
      fun ⟨⟨nonempty, notHere, notUp, short⟩, plain⟩ =>
        ⟨⟨nonempty, notHere, notUp, short⟩, plain⟩⟩

theorem IsEntryName.isComponent {name : String} (isEntry : IsEntryName name) :
    FilePath.IsComponent name :=
  ⟨isEntry.plain, decide_eq_true ⟨isEntry.nonempty, isEntry.notHere⟩⟩

namespace Listing

/-- A listing that has every name once, and so have all the listings in it. -/
def Proper : Listing → Prop
  | empty => True
  | file name _ rest => IsEntryName name ∧ rest.get? name = none ∧ rest.Proper
  | directory name inner rest =>
      IsEntryName name ∧ rest.get? name = none ∧ inner.Proper ∧ rest.Proper

instance decidableProper : (listing : Listing) → Decidable listing.Proper
  | empty => inferInstanceAs (Decidable True)
  | file name _ rest =>
      have := decidableProper rest
      inferInstanceAs (Decidable (IsEntryName name ∧ rest.get? name = none ∧ rest.Proper))
  | directory name inner rest =>
      have := decidableProper inner
      have := decidableProper rest
      inferInstanceAs
        (Decidable (IsEntryName name ∧ rest.get? name = none ∧ inner.Proper ∧ rest.Proper))

variable {listing inner : Listing} {name : String} {route : Route}

theorem kind?_append (found : listing.find? route = some (.directory inner)) (rest : Route) :
    listing.kind? (route ++ rest) = inner.kind? rest := by
  rw [kind?, find?_append found, kind?]

theorem Proper.of_get? (proper : listing.Proper) (found : listing.get? name ≠ none) :
    IsEntryName name ∧ ∀ inner, listing.get? name = some (.directory inner) → inner.Proper := by
  induction listing with
  | empty => exact absurd rfl found
  | file first content rest ih =>
      obtain ⟨isEntry, -, proper⟩ := proper
      rw [get?] at found ⊢
      split at found
      next same =>
        rw [if_pos same]
        refine ⟨same ▸ isEntry, fun inner equal => ?_⟩
        cases equal
      next other =>
        rw [if_neg other]
        exact ih proper found
  | directory first below rest _ ih =>
      obtain ⟨isEntry, -, properBelow, proper⟩ := proper
      rw [get?] at found ⊢
      split at found
      next same =>
        rw [if_pos same]
        refine ⟨same ▸ isEntry, fun inner equal => ?_⟩
        cases equal
        exact properBelow
      next other =>
        rw [if_neg other]
        exact ih proper found

theorem Proper.of_find? (proper : listing.Proper)
    (found : listing.find? route = some (.directory inner)) : inner.Proper := by
  induction route generalizing listing with
  | nil =>
      cases found
      exact proper
  | cons name rest ih =>
      obtain ⟨below, here, found⟩ := find?_cons_eq_directory_iff.1 found
      exact ih ((proper.of_get? (by rw [here]; exact nofun)).2 below here) found

/-- All names of a route that leads somewhere are names of entries. -/
theorem Proper.isEntryName (proper : listing.Proper) (found : listing.kind? route ≠ none) :
    ∀ name ∈ route, IsEntryName name := by
  induction route generalizing listing with
  | nil => exact fun _ member => nomatch member
  | cons name rest ih =>
      rw [kind?_cons] at found
      have here : listing.get? name ≠ none := by
        intro none
        rw [none] at found
        exact found rfl
      obtain ⟨isEntry, below⟩ := proper.of_get? here
      refine List.forall_mem_cons.2 ⟨isEntry, ?_⟩
      split at found
      next inner entry => exact ih (below inner entry) found
      next =>
        split at found
        next last => exact last ▸ fun _ member => nomatch member
        next => exact absurd rfl found
      next => exact absurd rfl found

end Listing

namespace FileSystem

/-- Two file systems that differ in the order of enumeration at most. -/
structure SameTree (files other : FileSystem) : Prop where
  workingDirectory : other.workingDirectory = files.workingDirectory
  kind? : ∀ route, other.root.kind? route = files.root.kind? route

variable {files other : FileSystem}

theorem SameTree.symm (same : SameTree files other) : SameTree other files :=
  ⟨same.workingDirectory.symm, fun route => (same.kind? route).symm⟩

theorem SameTree.grows (same : SameTree files other) : Grows files.root other.root :=
  ⟨fun route directory => (same.kind? route).trans directory,
    fun route found none => found ((same.kind? route).symm.trans none)⟩

theorem SameTree.resolve_eq_ok_iff (same : SameTree files other) {path : FilePath}
    {route : Route} : other.resolve path = .ok route ↔ files.resolve path = .ok route :=
  ⟨resolve_of_grows same.symm.grows same.symm.workingDirectory,
    resolve_of_grows same.grows same.workingDirectory⟩

/-- A path leads to the same in trees that differ in the order of enumeration. -/
theorem SameTree.map_kind_get? (same : SameTree files other) (path : FilePath) :
    (other.get? path).map Entry.kind = (files.get? path).map Entry.kind := by
  unfold get?
  cases resolved : files.resolve path with
  | ok route =>
      rw [same.resolve_eq_ok_iff.2 resolved]
      exact same.kind? route
  | error failure =>
      cases resolved' : other.resolve path with
      | ok route => cases resolved.symm.trans (same.resolve_eq_ok_iff.1 resolved')
      | error failure' => rfl

end FileSystem

end HackToolchain.Files
