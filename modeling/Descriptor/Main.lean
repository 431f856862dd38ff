import Descriptor.Cli.Program
import Descriptor.Shell.Run

/-!
# The command line

The outer layer of the program: it takes the files that a run can need into a tree, runs the program
on it, and carries the changes back.

## Main definitions

* `main` : the entry point.
-/

namespace Descriptor.Outer

open Files (FileTree Location)

/-- The environment variables that a run looks at. -/
def variableNames : List String :=
  ["PKGMETA_CONFIG", "PKGMETA_LOG_DIR", "HOME", "PATH", "TMPDIR"]

/-- The environment of the run. -/
def environment : IO (List (String × String)) := do
  let mut found := []
  for name in variableNames do
    if let some value ← IO.getEnv name then found := found ++ [(name, value)]
  return found

/-- The tree, or the one before where a change fails. -/
def orSame (t : FileTree) (r : Except Files.Fault FileTree) : FileTree := r.toOption.getD t

/-- The tree with the directory at a path, if there is one. -/
def takeDirectory (t : FileTree) (path : String) : IO FileTree := do
  if ← ((← IO.currentDir) / path).isDir then return orSame t (t.makeDirectories path)
  else return t

/-- The tree with the file at a path, if there is one: locked if it may not be opened. -/
def takeFile (t : FileTree) (path : String) : IO FileTree := do
  let place := (← IO.currentDir) / path
  if !(← place.pathExists) || (← place.isDir) then return t
  let t := orSame t (t.makeDirectories ((Files.parentPath? path).getD "/"))
  try
    let t := orSame t (t.write path (← IO.FS.readBinFile place).toList)
    return orSame t (t.allowExecution path)
  catch _ =>
    return (t.locate path).toOption.elim t (t.put · .locked)

/-- The directories and files that a run can need. -/
def needs (args : List String) (s : Session) : List String × List String :=
  let own := (Settings.path s).toOption.toList
  let logs := (Log.directory? s).toList
  let projects := match Cli.parseArguments args with
    | .run _ (.read r) => [r.directory]
    | _ => []
  (projects ++ logs ++ [s.platform.temporary.text],
    (projects.flatMap fun d =>
      Project.DescriptorFile.all.map fun kind => Files.joinPath d kind.name) ++
    own ++ logs.map Log.fileIn ++ s.platform.searchPath.map (Files.joinPath · "uv"))

/-- Six letters or digits drawn at random. -/
def draw : IO Draw := do
  let mut drawn := []
  for _ in List.range 6 do
    let n ← IO.rand 0 (Alphanumeric.all.length - 1)
    drawn := Alphanumeric.all.getD n .zero :: drawn
  return drawn

/-- The session that a run starts in. -/
def startSession (args : List String) : IO Session := do
  let place := Files.components (← IO.currentDir).toString |>.filter (· ≠ "")
  let root := orSame .empty (FileTree.empty.makeDirectories ("/" ++ "/".intercalate place))
  let start := Session.start { root with workingDirectory := place } (← environment)
  let mut draws := []
  for _ in List.range 16 do
    draws := (← draw) :: draws
  let empty := { start with platform := { start.platform with draws := draws } }
  let (directories, files) := needs args empty
  let mut t := empty.files
  for path in directories do
    t ← takeDirectory t path
  for path in files do
    t ← takeFile t path
  return empty.withFiles t

/-- The path of a location. -/
def pathOf (l : Location) : String := "/" ++ "/".intercalate l

/-- Carries the changes of a run back: files that are new or changed, and files that are gone. -/
def carryBack (before after : FileTree) : IO Unit := do
  for (l, item) in before.entries do
    if let .file _ _ := item then
      if (after.item? l).isNone then IO.FS.removeFile (pathOf l)
  for (l, item) in after.entries do
    if let .file bytes _ := item then
      if before.item? l ≠ some item then
        IO.FS.createDirAll (pathOf l.dropLast)
        IO.FS.writeBinFile (pathOf l) ⟨bytes.toArray⟩

end Descriptor.Outer

/-- Runs the program on its arguments. -/
def main (args : List String) : IO UInt32 := do
  let s ← Descriptor.Outer.startSession args
  let (outcome, after) := (Descriptor.Cli.run (Descriptor.Shell.launch s.environment) args).run s
  Descriptor.Outer.carryBack s.files after.files
  for line in outcome.output do
    IO.println line
  for message in after.console do
    IO.eprintln message
  return UInt32.ofNat outcome.exitCode
