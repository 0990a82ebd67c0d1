/-!
# File trees

A directory is a listing of named entries in the order in which they are
enumerated.  An entry is a file with its bytes or a directory with a listing of
its own.  A route is the list of names that leads from a directory down to an
entry.

Names are Unicode text.  There are no permissions, no links and no failures of a
device, so a directory that is found can be listed.
-/

namespace HackToolchain.Files

/-- The entries of a directory, in the order of enumeration. -/
inductive Listing where
  | empty
  | file (name : String) (content : ByteArray) (rest : Listing)
  | directory (name : String) (inner rest : Listing)

/-- What a name in a directory stands for. -/
inductive Entry where
  | file (content : ByteArray)
  | directory (inner : Listing)

/-- The names from a directory down to an entry. -/
abbrev Route := List String

namespace Listing

def get? (name : String) : Listing → Option Entry
  | empty => none
  | file other content rest => if other = name then some (.file content) else rest.get? name
  | directory other inner rest =>
      if other = name then some (.directory inner) else rest.get? name

def find? : Route → Listing → Option Entry
  | [], listing => some (.directory listing)
  | name :: rest, listing =>
      match listing.get? name with
      | some (.directory inner) => inner.find? rest
      | some (.file content) => if rest.isEmpty then some (.file content) else none
      | none => none

/-- The listing in which a name is a file with some content: replaced, or added at the end. -/
def putFile (name : String) (content : ByteArray) : Listing → Listing
  | empty => file name content empty
  | file other old rest =>
      if other = name then file name content rest else file other old (rest.putFile name content)
  | directory other inner rest =>
      if other = name then directory other inner rest
      else directory other inner (rest.putFile name content)

/-- The listing in which the directory of a name is changed. -/
def updateDirectory (name : String) (update : Listing → Listing) : Listing → Listing
  | empty => empty
  | file other content rest =>
      if other = name then file other content rest
      else file other content (rest.updateDirectory name update)
  | directory other inner rest =>
      if other = name then directory other (update inner) rest
      else directory other inner (rest.updateDirectory name update)

/-- The listing in which the end of a route is a file with some content. -/
def put (content : ByteArray) : Route → Listing → Listing
  | [], listing => listing
  | [name], listing => listing.putFile name content
  | name :: next :: rest, listing => listing.updateDirectory name (put content (next :: rest))

def addDirectory (name : String) (inner : Listing) : Listing → Listing
  | empty => directory name inner empty
  | file other content rest => file other content (addDirectory name inner rest)
  | directory other below rest => directory other below (addDirectory name inner rest)

/-- The listing in which a route of directories exists, made where it was missing. -/
def makeDirectory : Route → Listing → Listing
  | [], listing => listing
  | name :: rest, listing =>
      match listing.get? name with
      | some _ => listing.updateDirectory name (makeDirectory rest)
      | none => addDirectory name (makeDirectory rest empty) listing

/-- The files below a listing by their routes, in the order of enumeration. -/
def files : Listing → List (Route × ByteArray)
  | empty => []
  | file name content rest => ([name], content) :: rest.files
  | directory name inner rest =>
      (inner.files.map fun found => (name :: found.1, found.2)) ++ rest.files

/-- The files of the later listing that the earlier one lacks or has with other content. -/
def changes (earlier later : Listing) : List (Route × ByteArray) :=
  later.files.filter fun found =>
    match earlier.find? found.1 with
    | some (.file content) => content.data ≠ found.2.data
    | _ => true

theorem get?_putFile (name other : String) (content : ByteArray) (listing : Listing)
    (plain : ∀ inner, listing.get? name ≠ some (.directory inner)) :
    (listing.putFile name content).get? other =
      if other = name then some (.file content) else listing.get? other := by
  induction listing with
  | empty => simp only [putFile, get?, eq_comm]
  | file first old rest ih =>
      unfold putFile
      split
      next same =>
        subst same
        by_cases equal : other = first
        · simp [get?, equal]
        · simp [get?, equal, Ne.symm equal]
      next different =>
        have below : ∀ inner, rest.get? name ≠ some (.directory inner) := by
          simpa [get?, different] using plain
        by_cases equal : first = other
        · subst equal
          simp [get?, different]
        · simp [get?, equal, ih below]
  | directory first inner rest _ ih =>
      unfold putFile
      split
      next same =>
        subst same
        simp [get?] at plain
      next different =>
        have below : ∀ inner, rest.get? name ≠ some (.directory inner) := by
          simpa [get?, different] using plain
        by_cases equal : first = other
        · subst equal
          simp [get?, different]
        · simp [get?, equal, ih below]

end Listing

end HackToolchain.Files
