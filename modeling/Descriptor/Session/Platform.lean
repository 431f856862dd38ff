import Descriptor.Files.Tree

/-!
# The platform

What a run of the program is told by the system through libraries: the home directory of the user,
the directories that programs are looked for in, and where temporary directories are made. Nothing
is assumed of the answers beyond their form. How the libraries come by them is their own matter; a
session that starts without a platform of its own takes what the environment variables say.

## Main definitions

* `Alphanumeric`, `Draw` : the characters that tell temporary directories apart.
* `Platform` : the answers of the system.
* `Platform.temporaryPaths` : the paths that are tried for a temporary directory.
* `Platform.ofEnvironment` : the answers that the environment variables give.
-/

namespace Descriptor

open Files (AbsolutePath FileTree joinPath)

/-- A letter or digit. -/
abbrev Alphanumeric := { c : Char // c.isAlphanum = true }

/-- The first digit. -/
def Alphanumeric.zero : Alphanumeric := ⟨'0', by decide⟩

/-- The digits and letters. -/
def Alphanumeric.all : List Alphanumeric :=
  (List.range 128).filterMap fun n =>
    if h : (Char.ofNat n).isAlphanum = true then some ⟨Char.ofNat n, h⟩ else none

/-- Characters drawn at random. -/
abbrev Draw := List Alphanumeric

/-- The name that a draw gives behind the start of a name. -/
def Draw.name (start : String) (draw : Draw) : String := start ++ String.ofList (draw.map (·.1))

/-- What the system answers. -/
structure Platform where
  /-- The home directory of the user, if there is one. -/
  home : Option String
  /-- The directories that programs are looked for in, in order. -/
  searchPath : List String
  /-- The directory that temporary directories are made in. -/
  temporary : AbsolutePath
  /-- What is drawn for the names of a temporary directory, one attempt after the other. -/
  draws : List Draw
  deriving DecidableEq, Repr, Inhabited

namespace Platform

/-- The paths that are tried for a temporary directory, one after the other. -/
def temporaryPaths (p : Platform) (start : String) : List String :=
  p.draws.map fun draw => joinPath p.temporary.text (draw.name start)

/-! ### Environment variables -/

/-- A path in which a single tilde in the first place stands for the home directory. -/
def expandHome (home : Option String) (path : String) : String :=
  match home, Files.components path with
  | some home, "~" :: rest => (rest.filter fun name => name ≠ "" ∧ name ≠ ".").foldl joinPath home
  | _, _ => path

/-- Draws of six characters that differ in the last one. -/
def firstDraws : List Draw :=
  Alphanumeric.all.map fun c => List.replicate 5 .zero ++ [c]

/-- The answers that the environment variables give. -/
def ofEnvironment (files : FileTree) (environment : List (String × String)) : Platform :=
  let value? (name : String) := (environment.find? (·.1 = name)).map (·.2)
  let home := (value? "HOME").filter (· ≠ "")
  let paths := (value? "PATH").elim [] (Files.splitAt ':')
  { home := home
    searchPath := paths.map (expandHome home)
    temporary := files.workingPath.join ((value? "TMPDIR").getD "/tmp")
    draws := firstDraws }

end Platform

end Descriptor
