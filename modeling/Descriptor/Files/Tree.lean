import Descriptor.Files.Path
import Descriptor.Text.Utf8

/-!
# File trees

The files that a program can reach, as a value: what lies at each location, and the directory that
relative paths start from. The order in which entries were made is kept, and a directory lists its
entries in that order.

## Main definitions

* `Item`, `Location`, `FileTree` : what lies at a location, and all locations.
* `Fault`, `Fault.message` : why an operation on files fails.
* `FileTree.locate` : the location that a path leads to, links being followed.
* `FileTree.read`, `FileTree.readText`, `FileTree.list` : the contents of files and directories.
* `FileTree.write`, `FileTree.extend`, `FileTree.makeDirectories`, `FileTree.removeFile`,
  `FileTree.removeAll` : changes.
-/

namespace Descriptor.Files

/-- What lies at a location. -/
inductive Item where
  | file (bytes : List UInt8) (executable : Bool)
  /-- A regular file of another user, which may be neither opened nor changed nor removed. -/
  | locked
  | directory
  /-- A symbolic link, whose target need not exist. -/
  | link (target : String)
  deriving DecidableEq, Repr, Inhabited

/-- Whether an item is a regular file. -/
def Item.isRegular : Item → Bool
  | .file _ _ | .locked => true
  | .directory | .link _ => false

/-- The names that lead from the root to a place. -/
abbrev Location := List String

/-- Why an operation on files fails. -/
inductive Fault where
  | notFound
  | permissionDenied
  | notPermitted
  | alreadyExists
  | notADirectory
  | isADirectory
  | tooManyLinks
  | notExecutable
  | notText
  | embeddedNul
  /-- A fault in the words of the system. -/
  | other (text : String)
  /-- A fault with a path that its text gives too. -/
  | at (fault : Fault) (path : String)
  deriving DecidableEq, Repr

/-- The text of a fault. -/
def Fault.message : Fault → String
  | .notFound => "No such file or directory (os error 2)"
  | .permissionDenied => "Permission denied (os error 13)"
  | .notPermitted => "Operation not permitted (os error 1)"
  | .alreadyExists => "File exists (os error 17)"
  | .notADirectory => "Not a directory (os error 20)"
  | .isADirectory => "Is a directory (os error 21)"
  | .tooManyLinks => "Too many levels of symbolic links (os error 40)"
  | .notExecutable => "Exec format error (os error 8)"
  | .notText => "stream did not contain valid UTF-8"
  | .embeddedNul => "nul byte found in provided data"
  | .other text => text
  | .at fault path => fault.message ++ " at path \"" ++ path ++ "\""

/-- All locations with what lies there, and the directory that relative paths start from. Nothing is
kept for the root, which is always a directory. -/
structure FileTree where
  entries : List (Location × Item)
  workingDirectory : Location
  deriving DecidableEq, Repr, Inhabited

namespace FileTree

/-- A tree with nothing but the root. -/
def empty : FileTree := ⟨[], []⟩

/-- The path of the directory that relative paths start from. -/
def workingPath (t : FileTree) : AbsolutePath :=
  ⟨"/" ++ "/".intercalate t.workingDirectory, isAbsolute_append (by decide) _ |>.trans (by decide)⟩

/-- What lies at a location. -/
def item? (t : FileTree) (l : Location) : Option Item :=
  if l.isEmpty then some .directory else (t.entries.find? (·.1 = l)).map (·.2)

/-! ### Following paths -/

/-- Whether a path that ends in the given components names what stands before them. -/
def isEnd (rest : List String) : Bool := rest.all (·.isEmpty)

/-- The location that components lead to from a directory. At most `links` links are followed; a
link in the last place is followed only on demand. Nothing needs to lie at the last location. -/
def walk (t : FileTree) (follow : Bool) (links : Nat) (place : Location) :
    List String → Except Fault Location
  | [] => .ok place
  | name :: rest =>
    if name = "" ∨ name = "." then walk t follow links place rest
    else if name = ".." then walk t follow links place.dropLast rest
    else
      match t.item? (place ++ [name]) with
      | none => if isEnd rest then .ok (place ++ [name]) else .error .notFound
      | some .directory => walk t follow links (place ++ [name]) rest
      | some (.file _ _) | some .locked =>
        if rest.isEmpty then .ok (place ++ [name]) else .error .notADirectory
      | some (.link target) =>
        if rest.isEmpty ∧ ¬follow then .ok (place ++ [name])
        else
          match links with
          | 0 => .error .tooManyLinks
          | links + 1 =>
            walk t follow links (if isAbsolute target then [] else place)
              (components target ++ rest)
termination_by names => (links, names.length)

/-- The number of links that a path may lead through. -/
def linkLimit : Nat := 40

/-- The location that a path leads to. -/
def locateFrom (t : FileTree) (follow : Bool) (path : String) : Except Fault Location :=
  if path.isEmpty then .error .notFound
  else
    walk t follow linkLimit (if isAbsolute path then [] else t.workingDirectory) (components path)

/-- The location that a path leads to, links being followed to the end. -/
def locate (t : FileTree) (path : String) : Except Fault Location := t.locateFrom true path

/-- The location of a path with what lies there. -/
def find (t : FileTree) (path : String) : Except Fault (Location × Item) := do
  let l ← t.locate path
  match t.item? l with
  | some item => .ok (l, item)
  | none => .error .notFound

/-- What lies where a path leads, if anything does. -/
def itemAt? (t : FileTree) (path : String) : Option Item := (t.find path).toOption.map (·.2)

/-- Whether a path leads to anything. -/
def pathExists (t : FileTree) (path : String) : Bool := (t.itemAt? path).isSome

/-- Whether a path leads to a regular file. -/
def isFile (t : FileTree) (path : String) : Bool :=
  match t.itemAt? path with
  | some item => item.isRegular
  | none => false

/-- Whether a path leads to a directory. -/
def isDirectory (t : FileTree) (path : String) : Bool := t.itemAt? path = some .directory

/-- Whether a path leads to a regular file that can be executed. -/
def isExecutable (t : FileTree) (path : String) : Bool :=
  match t.itemAt? path with
  | some (.file _ executable) => executable
  | _ => false

/-! ### Reading -/

/-- The bytes of a file. -/
def read (t : FileTree) (path : String) : Except Fault (List UInt8) := do
  match ← t.find path with
  | (_, .file bytes _) => .ok bytes
  | (_, .locked) => .error .permissionDenied
  | _ => .error .isADirectory

/-- The text of a file. -/
def readText (t : FileTree) (path : String) : Except Fault String := do
  match Text.decodeUtf8? (← t.read path) with
  | some cs => .ok (String.ofList cs)
  | none => .error .notText

/-- The names of the entries of a directory. -/
def namesIn (t : FileTree) (l : Location) : List String :=
  t.entries.filterMap fun e => if e.1.dropLast = l then e.1.getLast? else none

/-- The names that a directory lists. -/
def list (t : FileTree) (path : String) : Except Fault (List String) := do
  match ← t.find path with
  | (l, .directory) => .ok (t.namesIn l)
  | _ => .error .notADirectory

/-! ### Changing -/

/-- Puts an item at a location, in place of the one that lies there. -/
def putItem (l : Location) (item : Item) : List (Location × Item) → List (Location × Item)
  | [] => [(l, item)]
  | e :: rest => if e.1 = l then (l, item) :: rest else e :: putItem l item rest

/-- The tree with an item at a location. -/
def put (t : FileTree) (l : Location) (item : Item) : FileTree :=
  { t with entries := putItem l item t.entries }

/-- The tree without a location and all that lies below it. -/
def prune (t : FileTree) (l : Location) : FileTree :=
  { t with entries := t.entries.filter fun e => !l.isPrefixOf e.1 }

/-- The location of a file that is to be written, with what it holds. A name that a separator ends
can only be that of a directory. -/
def findWritable (t : FileTree) (path : String) :
    Except Fault (Location × List UInt8 × Bool) := do
  let l ← t.locate path
  match t.item? l with
  | some (.file bytes executable) => .ok (l, bytes, executable)
  | some .locked => .error .permissionDenied
  | some _ => .error .isADirectory
  | none => if path.toList.getLast? = some '/' then .error .isADirectory else .ok (l, [], false)

/-- The tree in which a file holds the given bytes. -/
def write (t : FileTree) (path : String) (bytes : List UInt8) : Except Fault FileTree := do
  let (l, _, executable) ← t.findWritable path
  .ok (t.put l (.file bytes executable))

/-- The tree in which a file has the given bytes behind those it had. -/
def extend (t : FileTree) (path : String) (bytes : List UInt8) : Except Fault FileTree := do
  let (l, before, executable) ← t.findWritable path
  .ok (t.put l (.file (before ++ bytes) executable))

/-- The tree in which a file can be executed. -/
def allowExecution (t : FileTree) (path : String) : Except Fault FileTree := do
  match ← t.find path with
  | (l, .file bytes _) => .ok (t.put l (.file bytes true))
  | (_, .locked) => .error .notPermitted
  | _ => .ok t

/-- The tree with a link. -/
def makeLink (t : FileTree) (path target : String) : Except Fault FileTree := do
  let l ← t.locateFrom false path
  if (t.item? l).isSome then .error .alreadyExists else .ok (t.put l (.link target))

/-- The tree with a new directory. -/
def makeDirectory (t : FileTree) (path : String) : Except Fault FileTree := do
  let l ← t.locateFrom false path
  if (t.item? l).isSome then .error .alreadyExists else .ok (t.put l .directory)

/-- The tree with a directory, unless it has it already. -/
def ensureDirectory (t : FileTree) (path : String) : Except Fault FileTree :=
  match t.makeDirectory path with
  | .ok t => .ok t
  | .error fault => if t.isDirectory path then .ok t else .error fault

/-- The tree with a directory and those above it, of which at most `fuel` are made. -/
def makeDirectoriesFrom (fuel : Nat) (t : FileTree) (path : String) : Except Fault FileTree :=
  match fuel with
  | 0 => .error .notFound
  | fuel + 1 =>
    if path.isEmpty then .ok t
    else
      match t.makeDirectory path with
      | .ok t => .ok t
      | .error .notFound =>
        match parentPath? path with
        | none => .error .notFound
        | some parent => do (← makeDirectoriesFrom fuel t parent).ensureDirectory path
      | .error fault => if t.isDirectory path then .ok t else .error fault

/-- The tree with a directory and those above it. -/
def makeDirectories (t : FileTree) (path : String) : Except Fault FileTree :=
  makeDirectoriesFrom (path.length + 1) t path

/-- The tree that an attempt to make a directory and those above it leaves, also if it fails on the
way. -/
def attemptDirectoriesFrom (fuel : Nat) (t : FileTree) (path : String) : FileTree :=
  match fuel with
  | 0 => t
  | fuel + 1 =>
    if path.isEmpty then t
    else
      match t.makeDirectory path with
      | .ok t => t
      | .error .notFound =>
        match parentPath? path with
        | none => t
        | some parent =>
          match makeDirectoriesFrom fuel t parent with
          | .ok t => (t.ensureDirectory path).toOption.getD t
          | .error _ => attemptDirectoriesFrom fuel t parent
      | .error _ => t

/-- The tree that an attempt to make a directory and those above it leaves. -/
def attemptDirectories (t : FileTree) (path : String) : FileTree :=
  attemptDirectoriesFrom (path.length + 1) t path

/-- The tree without a file or link. -/
def removeFile (t : FileTree) (path : String) : Except Fault FileTree := do
  let l ← t.locateFrom false path
  match t.item? l with
  | none => .error .notFound
  | some .directory => .error .isADirectory
  | some .locked => .error .notPermitted
  | some _ => .ok (t.prune l)

/-- The tree without a directory and all that it holds, if there is one. All of it is taken to be
the program's own, so that nothing stands in the way of its removal. -/
def removeAll (t : FileTree) (path : String) : FileTree :=
  match t.locateFrom false path with
  | .ok l => if l.isEmpty then t else t.prune l
  | .error _ => t

end FileTree

end Descriptor.Files
