import HackToolchain.Files.Listing
import HackToolchain.Files.FilePath

/-!
# File systems

A file system is a tree and a working directory in it.  A path is followed part
by part: every part but the last must be a directory, `..` leads one directory
up and stays at the root, and empty parts and single dots stay where they are.
Names and whole paths have a greatest length.
-/

namespace HackToolchain.Files

/-- Why a path cannot be read or written. -/
inductive AccessFailure where
  | missing
  | isDirectory
  | notDirectory
  | notText
  /-- A name or the whole path has too many bytes. -/
  | tooLong
  /-- The path has a character that no name can have. -/
  | nullCharacter
  deriving DecidableEq, Repr

def AccessFailure.message : AccessFailure → String
  | missing => "No such file or directory (os error 2)"
  | isDirectory => "Is a directory (os error 21)"
  | notDirectory => "Not a directory (os error 20)"
  | notText => "stream did not contain valid UTF-8"
  | tooLong => "File name too long (os error 36)"
  | nullCharacter => "file name contained an unexpected NUL byte"

def nameLimit : Nat := 255

def pathLimit : Nat := 4095

/-- A path that is not too long to be followed. -/
def FilePath.fits (path : FilePath) : Bool :=
  path.text.utf8ByteSize ≤ pathLimit

/-- Why a path cannot be followed anywhere, if its text alone decides that. -/
def FilePath.flaw? (path : FilePath) : Option AccessFailure :=
  if path.text.toList.contains '\x00' then some .nullCharacter
  else if path.text.isEmpty then some .missing
  else if path.fits then none
  else some .tooLong

/-- A file tree and the working directory in it. -/
structure FileSystem where
  root : Listing
  workingDirectory : Route

namespace FileSystem

/-- Follow one part of a path from the end of a route. -/
def follow (root : Listing) (route : Route) (segment : String) : Except AccessFailure Route :=
  match root.find? route with
  | none => .error .missing
  | some (.file _) => .error .notDirectory
  | some (.directory inner) =>
      if segment = "" ∨ segment = "." then .ok route
      else if segment = ".." then .ok route.dropLast
      else if nameLimit < segment.utf8ByteSize then .error .tooLong
      else
        match inner.get? segment with
        | none => .error .missing
        | some _ => .ok (route ++ [segment])

/-- Where a path starts. -/
def start (files : FileSystem) (path : FilePath) : Route :=
  if path.isAbsolute then [] else files.workingDirectory

/-- The route that the parts of a path lead to. -/
def walk (files : FileSystem) (path : FilePath) : Except AccessFailure Route :=
  path.segments.foldlM (follow files.root) (files.start path)

/-- The route of what a path leads to. -/
def resolve (files : FileSystem) (path : FilePath) : Except AccessFailure Route :=
  match path.flaw? with
  | some failure => .error failure
  | none => files.walk path

/-- What a path leads to. -/
def get? (files : FileSystem) (path : FilePath) : Option Entry :=
  match files.resolve path with
  | .error _ => none
  | .ok route => files.root.find? route

/-- The text of the file that a path leads to. -/
def readText (files : FileSystem) (path : FilePath) : Except AccessFailure String :=
  match files.resolve path with
  | .error failure => .error failure
  | .ok route =>
      match files.root.find? route with
      | none => .error .missing
      | some (.directory _) => .error .isDirectory
      | some (.file content) =>
          match String.fromUTF8? content with
          | none => .error .notText
          | some text => .ok text

/--
The route of the file that writing to a path creates or replaces.  The part
that names the file must be the end of the path.
-/
def destination (files : FileSystem) (path : FilePath) : Except AccessFailure Route :=
  match path.flaw? with
  | some failure => .error failure
  | none =>
      let backwards := path.segments.reverse
      let trailing := backwards.takeWhile fun segment => segment.isEmpty
      match backwards.drop trailing.length with
      | [] => .error .isDirectory
      | last :: before =>
          match before.reverse.foldlM (follow files.root) (files.start path) with
          | .error failure => .error failure
          | .ok route =>
              match files.root.find? route with
              | none => .error .missing
              | some (.file _) => .error .notDirectory
              | some (.directory inner) =>
                  if last = "." ∨ last = ".." ∨ !trailing.isEmpty then .error .isDirectory
                  else if nameLimit < last.utf8ByteSize then .error .tooLong
                  else
                    match inner.get? last with
                    | some (.directory _) => .error .isDirectory
                    | _ => .ok (route ++ [last])

/-- Write bytes to the file of a path, which is created or replaced. -/
def write (files : FileSystem) (path : FilePath) (content : ByteArray) :
    Except AccessFailure FileSystem :=
  match files.destination path with
  | .error failure => .error failure
  | .ok route => .ok { files with root := files.root.put content route }

/--
The name of the directory that a path leads to; none for the root.  The path is
followed name by name, so that its own length does not matter.
-/
def resolvedName? (files : FileSystem) (path : FilePath) : Option String :=
  if path.text.isEmpty then none
  else
    match files.walk path with
    | .error _ => none
    | .ok route => route.getLast?

end FileSystem

end HackToolchain.Files
