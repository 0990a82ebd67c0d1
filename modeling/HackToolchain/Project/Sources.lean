import HackToolchain.Files.FileSystem
import HackToolchain.Project.Failure

/-!
# Sources of a program

A program is given by one source file or by a directory, which stands for all
source files at any depth below it, in the order of their routes.  A directory
whose path is too long to be followed counts as a file.
-/

namespace HackToolchain.Project

open HackToolchain.Files

def sourceExtension : String := "vm"

def outputExtension : String := "asm"

/-- What a program is made from. -/
inductive Input where
  | file (path : FilePath)
  | directory (path : FilePath) (sources : List FilePath)
  deriving DecidableEq, Repr

namespace Input

def sources : Input → List FilePath
  | file path => [path]
  | directory _ sources => sources

end Input

/-- A name of a source file: its extension is that of sources. -/
def isSourceName (name : String) : Bool :=
  (FileName.ofName name.toList).extension? == some sourceExtension.toList

/-- The routes of the source files below the listing of a path, in the order of enumeration. -/
def sourceRoutes (path : FilePath) : Listing → List Route
  | .empty => []
  | .file name _ rest =>
      if isSourceName name then [name] :: sourceRoutes path rest else sourceRoutes path rest
  | .directory name inner rest =>
      let below := path.join name
      if below.fits then
        (sourceRoutes below inner).map (name :: ·) ++ sourceRoutes path rest
      else if isSourceName name then [name] :: sourceRoutes path rest
      else sourceRoutes path rest

/-- Compare routes name by name, each by its characters; a shorter route comes first. -/
def precedes : Route → Route → Bool
  | [], _ => true
  | _ :: _, [] => false
  | first :: rest, second :: others =>
      if first = second then precedes rest others else first < second

def sortRoutes (routes : List Route) : List Route :=
  routes.mergeSort precedes

/-- Find the sources of a path. -/
def discover (files : FileSystem) (path : FilePath) : Except Failure Input :=
  match files.get? path with
  | some (.file _) =>
      if path.extension? = some sourceExtension then .ok (.file path)
      else .error (.invalidInput path)
  | some (.directory inner) =>
      match sortRoutes (sourceRoutes path inner) with
      | [] => .error (.noSources path)
      | routes => .ok (.directory path (routes.map path.joinAll))
  | none => .error (.invalidInput path)

/-- The output of a source file: beside it, under the same stem. -/
def fileOutput (path : FilePath) : FilePath :=
  path.withExtension outputExtension

/--
The output of a directory: in it, under its own name.  A path without a name is
followed to find the name of the directory.
-/
def directoryOutput (files : FileSystem) (path : FilePath) : FilePath :=
  let name := (path.name?.orElse fun _ => files.resolvedName? path).getD "out"
  path.join (name ++ "." ++ outputExtension)

/-- The output of an input when none is chosen. -/
def defaultOutput (files : FileSystem) : Input → FilePath
  | .file path => fileOutput path
  | .directory path _ => directoryOutput files path

end HackToolchain.Project
