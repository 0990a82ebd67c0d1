import HackToolchain.CommandLine.Execution

/-!
# The command

The outer layer of the command: it loads the part of the file tree that the
arguments lead to, executes the command on it, stores the files that changed,
and prints what there is to print.
-/

namespace HackToolchain

open Files

/-- Where the end of a route is on the machine. -/
def placeOf (route : Route) :=
  IO.FS.DirEntry.path ⟨"/", "/".intercalate route⟩

/-- Whether the content of a file matters: sources are read, old outputs compared. -/
def isRelevant (name : String) : Bool :=
  Project.isSourceName name || (FilePath.mk name).extension? == some Project.outputExtension

/-- Load all that is below a directory. -/
partial def loadBelow (route : Route) : IO Listing := do
  let mut listing := Listing.empty
  for found in (← (placeOf route).readDir).reverse do
    let name := found.fileName
    let place := placeOf (route ++ [name])
    if ← place.isDir then
      listing := .directory name (← loadBelow (route ++ [name])) listing
    else if isRelevant name then
      listing := .file name (← IO.FS.readBinFile place) listing
    else
      listing := .file name .empty listing
  return listing

/-- The listing whose directory at the end of a route has other entries. -/
def graft (below : Listing) : Route → Listing → Listing
  | [], _ => below
  | name :: rest, listing => listing.updateDirectory name (graft below rest)

/-- The directories and the file that a path leads through, and the route it leads to. -/
def loadAlong (start : Route) (path : FilePath) (loaded : Listing) : IO (Listing × Route) := do
  let mut route := start
  let mut listing := loaded.makeDirectory start
  for segment in path.segments do
    if segment == ".." then
      route := route.dropLast
    else if segment != "" && segment != "." then
      let next := route ++ [segment]
      if ← (placeOf next).isDir then
        listing := listing.makeDirectory next
      else if ← (placeOf next).pathExists then
        listing := (listing.makeDirectory route).put (← IO.FS.readBinFile (placeOf next)) next
      route := next
  return (listing, route)

/-- Load the tree that a configuration works on. -/
def loadTree (workingDirectory : Route) (configuration : Project.Configuration) : IO Listing := do
  let startOf (path : FilePath) : Route := if path.isAbsolute then [] else workingDirectory
  let base := Listing.empty.makeDirectory workingDirectory
  let (listing, route) ← loadAlong (startOf configuration.input) configuration.input base
  let mut tree := listing
  if ← (placeOf route).isDir then
    tree := graft (← loadBelow route) route tree
  match configuration.output with
  | none => return tree
  | some output => return (← loadAlong (startOf output) output tree).1

/-- Execute the command on the machine. -/
def executeOnMachine (arguments : List String) : IO UInt32 := do
  let environmentFilter ← IO.getEnv "RUST_LOG"
  let workingDirectory := (FilePath.mk (← IO.currentDir).toString).segments.filter (· != "")
  let tree ←
    match CommandLine.readArguments arguments with
    | .ok request => loadTree workingDirectory request.configuration
    | .error _ => pure .empty
  let execution := CommandLine.execute arguments environmentFilter ⟨tree, workingDirectory⟩
  for (route, content) in tree.changes execution.files.root do
    IO.FS.writeBinFile (placeOf route) content
  IO.print execution.output
  IO.eprint execution.errors
  return execution.code.toUInt32

end HackToolchain

def main (arguments : List String) : IO UInt32 :=
  HackToolchain.executeOnMachine arguments
