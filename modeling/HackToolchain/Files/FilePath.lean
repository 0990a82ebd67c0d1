/-!
# Paths

A path is text whose parts are separated by slashes.  Slashes and single dots
at the end do not count when the name of a path is looked for.  The last dot of
a name separates its stem from its extension, unless it is the first character.

Paths and names are Unicode text throughout.  Names of other bytes, which a
file system may have as well, are not modelled.
-/

namespace HackToolchain.Files

/-- A path as it is written. -/
structure FilePath where
  text : String
  deriving DecidableEq, Repr

/-- A name cut at its last dot. -/
structure FileName where
  /-- What stands before the dot. -/
  stem : List Char
  /-- What stands after the dot, if there is one that is not the first character. -/
  extension? : Option (List Char)
  deriving DecidableEq, Repr

def FileName.ofName (name : List Char) : FileName :=
  match name.reverse.span (· != '.') with
  | (_, []) => ⟨name, none⟩
  | (_, [_]) => ⟨name, none⟩
  | (after, _ :: before) => ⟨before.reverse, some after.reverse⟩

namespace FilePath

/-- The reverse of a path without the slashes and single dots it ended with. -/
def dropTrailing : List Char → List Char
  | '/' :: rest => dropTrailing rest
  | '.' :: '/' :: rest => dropTrailing rest
  | text => text

/-- A path cut before its last part, without what follows that part. -/
def cutLast (path : List Char) : List Char × List Char :=
  let significant := dropTrailing path.reverse
  let last := significant.takeWhile (· != '/')
  ((significant.drop last.length).reverse, last.reverse)

/-- The last part of a path, unless it is missing or leads up or nowhere. -/
def lastName? (path : List Char) : Option (List Char) :=
  let last := (cutLast path).2
  if last = [] ∨ last = ['.'] ∨ last = ['.', '.'] then none else some last

def name? (path : FilePath) : Option String :=
  (lastName? path.text.toList).map String.ofList

def fileName? (path : FilePath) : Option FileName :=
  (lastName? path.text.toList).map .ofName

/-- The name of a path without its extension; empty if the path has no name. -/
def stem (path : FilePath) : String :=
  ((path.fileName?.map fun name => String.ofList name.stem)).getD ""

def extension? (path : FilePath) : Option String :=
  path.fileName?.bind fun name => name.extension?.map String.ofList

/--
The path with another extension.  First as many characters as the old extension
has are cut from the end of the path.  If what is left has a name, everything
after the stem of that name is replaced; otherwise it is the answer.
-/
def withExtension (path : FilePath) (extension : String) : FilePath :=
  let text := path.text.toList
  let old := (path.fileName?.bind FileName.extension?).getD []
  let shortened := text.take (text.length - old.length)
  match lastName? shortened with
  | none => ⟨String.ofList shortened⟩
  | some name =>
      ⟨String.ofList ((cutLast shortened).1 ++ (FileName.ofName name).stem) ++ "." ++ extension⟩

/-- The path of a name in the directory of a path. -/
def join (path : FilePath) (name : String) : FilePath :=
  if path.text.isEmpty || path.text.toList.getLast? == some '/' then ⟨path.text ++ name⟩
  else ⟨path.text ++ "/" ++ name⟩

/-- The path of the end of a route in the directory of a path. -/
def joinAll (path : FilePath) (route : List String) : FilePath :=
  route.foldl join path

/-- The parts of a path between its slashes, empty ones included. -/
def segments (path : FilePath) : List String :=
  (path.text.toList.splitOn '/').map String.ofList

def isAbsolute (path : FilePath) : Bool :=
  path.text.toList.head? == some '/'

end FilePath

end HackToolchain.Files
