import HackToolchain.Files.Listing

/-!
# What is found in a file tree

A route leads to a directory, to a file with its content, or to nothing.  Once a
file is put where a tree admits one, its route leads to it, and every other
route leads to what it led to before.
-/

namespace HackToolchain.Files

/-- What is found at the end of a route, without what a directory holds. -/
inductive Kind where
  | directory
  | file (content : ByteArray)

namespace Entry

def kind : Entry → Kind
  | file content => .file content
  | directory _ => .directory

/-- The entry whose listing is changed, if it is a directory. -/
def mapDirectory (update : Listing → Listing) : Entry → Entry
  | file content => file content
  | directory inner => directory (update inner)

end Entry

namespace Listing

def kind? (route : Route) (listing : Listing) : Option Kind :=
  (listing.find? route).map Entry.kind

/-- Routes that a file can be put at: directories lead to its place, which is none itself. -/
def Admits : Route → Listing → Prop
  | [], _ => False
  | [name], listing => ∀ inner, listing.get? name ≠ some (.directory inner)
  | name :: next :: rest, listing =>
      ∃ inner, listing.get? name = some (.directory inner) ∧ inner.Admits (next :: rest)

variable {listing inner : Listing} {name : String} {content : ByteArray} {route : Route}

theorem kind?_cons (name : String) (rest : Route) (listing : Listing) :
    listing.kind? (name :: rest) =
      match listing.get? name with
      | some (.directory inner) => inner.kind? rest
      | some (.file content) => if rest = [] then some (.file content) else none
      | none => none := by
  unfold kind?
  rw [find?]
  cases listing.get? name with
  | none => rfl
  | some entry =>
      cases entry with
      | directory inner => rfl
      | file content => cases rest <;> rfl

theorem kind?_eq_file_iff :
    listing.kind? route = some (.file content) ↔ listing.find? route = some (.file content) := by
  unfold kind?
  cases listing.find? route with
  | none => simp
  | some entry => cases entry <;> simp [Entry.kind]

theorem kind?_eq_directory_iff :
    listing.kind? route = some .directory ↔
      ∃ inner, listing.find? route = some (.directory inner) := by
  unfold kind?
  cases listing.find? route with
  | none => simp
  | some entry => cases entry <;> simp [Entry.kind]

theorem find?_singleton (name : String) (listing : Listing) :
    listing.find? [name] = listing.get? name := by
  rw [find?]
  cases listing.get? name with
  | none => rfl
  | some entry => cases entry <;> rfl

/-- A route leads to a directory through a directory at its first name. -/
theorem find?_cons_eq_directory_iff {rest : Route} :
    listing.find? (name :: rest) = some (.directory inner) ↔
      ∃ below, listing.get? name = some (.directory below) ∧
        below.find? rest = some (.directory inner) := by
  rw [find?]
  cases listing.get? name with
  | none => simp
  | some entry =>
      cases entry with
      | directory below => simp
      | file content => cases rest <;> simp

/-- A route goes on from the directory that its first names lead to. -/
theorem find?_append (found : listing.find? route = some (.directory inner)) (rest : Route) :
    listing.find? (route ++ rest) = inner.find? rest := by
  induction route generalizing listing with
  | nil =>
      cases found
      rfl
  | cons first others ih =>
      obtain ⟨below, here, found⟩ := find?_cons_eq_directory_iff.1 found
      rw [List.cons_append, find?, here]
      exact ih found

/-- Whatever a route leads to, directories are on the way. -/
theorem kind?_eq_directory_of_append {rest : Route} (further : rest ≠ [])
    (found : listing.kind? (route ++ rest) ≠ none) : listing.kind? route = some .directory := by
  induction route generalizing listing with
  | nil => rfl
  | cons name others ih =>
      rw [List.cons_append, kind?_cons] at found
      rw [kind?_cons]
      cases here : listing.get? name with
      | none => simp [here] at found
      | some entry =>
          cases entry with
          | file content => simp [here, further] at found
          | directory inner =>
              rw [here] at found
              exact ih found

theorem kind?_dropLast (directory : listing.kind? route = some .directory) :
    listing.kind? route.dropLast = some .directory := by
  rcases List.eq_nil_or_concat route with rfl | ⟨parent, name, rfl⟩
  · rfl
  · rw [List.concat_eq_append] at directory ⊢
    rw [List.dropLast_concat]
    apply kind?_eq_directory_of_append (List.cons_ne_nil name [])
    rw [directory]
    exact nofun

/-- A tree admits a file in a directory, unless its name is that of a directory there. -/
theorem admits_append {parent : Route} (above : listing.find? parent = some (.directory inner))
    (free : listing.kind? (parent ++ [name]) ≠ some .directory) :
    listing.Admits (parent ++ [name]) := by
  induction parent generalizing listing with
  | nil =>
      intro inner here
      rw [List.nil_append, kind?_cons, here] at free
      exact free rfl
  | cons first rest ih =>
      obtain ⟨below, here, above⟩ := find?_cons_eq_directory_iff.1 above
      rw [List.cons_append, kind?_cons, here] at free
      have later := ih above free
      cases rest with
      | nil => exact ⟨below, here, later⟩
      | cons second others => exact ⟨below, here, later⟩

/-! ## Putting files -/

theorem get?_updateDirectory_self (name : String) (update : Listing → Listing)
    (listing : Listing) :
    (listing.updateDirectory name update).get? name =
      (listing.get? name).map (Entry.mapDirectory update) := by
  induction listing with
  | empty => rfl
  | file first content rest ih =>
      unfold updateDirectory
      split
      next same => simp [get?, same, Entry.mapDirectory]
      next differ => simpa [get?, differ] using ih
  | directory first below rest _ ih =>
      unfold updateDirectory
      split
      next same => simp [get?, same, Entry.mapDirectory]
      next differ => simpa [get?, differ] using ih

theorem get?_updateDirectory_of_ne {other : String} (apart : other ≠ name)
    (update : Listing → Listing) (listing : Listing) :
    (listing.updateDirectory name update).get? other = listing.get? other := by
  induction listing with
  | empty => rfl
  | file first content rest ih =>
      unfold updateDirectory
      split
      next => rfl
      next => rw [get?, get?, ih]
  | directory first below rest _ ih =>
      unfold updateDirectory
      split
      next same => simp [get?, same, Ne.symm apart]
      next => rw [get?, get?, ih]

/-- The route of a file that is put leads to it, and no other route leads elsewhere. -/
theorem kind?_put (admits : listing.Admits route) (content : ByteArray) (other : Route) :
    (listing.put content route).kind? other =
      if other = route then some (.file content) else listing.kind? other := by
  induction route generalizing listing other with
  | nil => cases admits
  | cons name rest ih =>
      cases other with
      | nil => rfl
      | cons first tail =>
          cases rest with
          | nil =>
              have plain : ∀ inner, listing.get? name ≠ some (.directory inner) := admits
              rw [put, kind?_cons, kind?_cons, get?_putFile name first content listing plain]
              by_cases here : first = name
              · subst here
                by_cases last : tail = []
                · simp [last]
                · cases found : listing.get? first with
                  | none => simp [last]
                  | some entry =>
                      cases entry with
                      | directory inner => exact absurd found (plain inner)
                      | file old => simp [last]
              · simp [here]
          | cons next others =>
              obtain ⟨inner, found, below⟩ := admits
              rw [put, kind?_cons, kind?_cons]
              by_cases here : first = name
              · subst here
                rw [get?_updateDirectory_self, found]
                simpa [Entry.mapDirectory] using ih below tail
              · rw [get?_updateDirectory_of_ne here]
                simp [here]

/-- A directory stays one, and changes only by what is put below it. -/
theorem exists_find?_put {place : Route} (admits : listing.Admits route) (content : ByteArray)
    (found : listing.find? place = some (.directory inner)) :
    ∃ changed, (listing.put content route).find? place = some (.directory changed) ∧
      (changed = inner ∨ ∃ rest, route = place ++ rest ∧ changed = inner.put content rest) := by
  induction place generalizing listing route with
  | nil =>
      cases found
      exact ⟨_, rfl, .inr ⟨route, rfl, rfl⟩⟩
  | cons name tail ih =>
      obtain ⟨below, here, found⟩ := find?_cons_eq_directory_iff.1 found
      rcases route with _ | ⟨first, _ | ⟨second, others⟩⟩
      · cases admits
      · have apart : name ≠ first := by
          rintro rfl
          exact admits below here
        refine ⟨inner, find?_cons_eq_directory_iff.2 ⟨below, ?_, found⟩, .inl rfl⟩
        rw [put, get?_putFile first name content listing admits, if_neg apart, here]
      · obtain ⟨above, held, admits⟩ := admits
        by_cases same : name = first
        · subst same
          cases held.symm.trans here
          obtain ⟨changed, later, changes⟩ := ih admits found
          refine ⟨changed, find?_cons_eq_directory_iff.2 ⟨_, ?_, later⟩, changes.imp_right ?_⟩
          · rw [put, get?_updateDirectory_self, here]
            rfl
          · rintro ⟨rest, split, put⟩
            exact ⟨rest, congrArg (name :: ·) split, put⟩
        · refine ⟨inner, find?_cons_eq_directory_iff.2 ⟨below, ?_, found⟩, .inl rfl⟩
          rw [put, get?_updateDirectory_of_ne same, here]

/-! ## Putting what is there -/

theorem putFile_eq_self (found : listing.get? name = some (.file content)) :
    listing.putFile name content = listing := by
  induction listing with
  | empty => cases found
  | file first old rest ih =>
      unfold putFile
      split
      next same => simpa [get?, same] using found.symm
      next differ => rw [ih (by simpa [get?, differ] using found)]
  | directory first below rest _ ih =>
      unfold putFile
      split
      next => rfl
      next differ => rw [ih (by simpa [get?, differ] using found)]

theorem updateDirectory_eq_self {update : Listing → Listing}
    (found : listing.get? name = some (.directory inner)) (same : update inner = inner) :
    listing.updateDirectory name update = listing := by
  induction listing with
  | empty => cases found
  | file first old rest ih =>
      unfold updateDirectory
      split
      next => rfl
      next differ => rw [ih (by simpa [get?, differ] using found)]
  | directory first below rest _ ih =>
      unfold updateDirectory
      split
      next equal =>
        have this : below = inner := by simpa [get?, equal] using found
        rw [this, same]
      next differ => rw [ih (by simpa [get?, differ] using found)]

/-- To put a file with the content it has changes nothing. -/
theorem put_eq_self (found : listing.kind? route = some (.file content)) :
    listing.put content route = listing := by
  induction route generalizing listing with
  | nil => cases found
  | cons name rest ih =>
      rw [kind?_cons] at found
      cases here : listing.get? name with
      | none => simp [here] at found
      | some entry =>
          cases entry with
          | file old =>
              rw [here] at found
              cases rest with
              | nil =>
                  cases found
                  exact putFile_eq_self here
              | cons => cases found
          | directory inner =>
              rw [here] at found
              cases rest with
              | nil => cases found
              | cons next others => exact updateDirectory_eq_self here (ih found)

end Listing

end HackToolchain.Files
