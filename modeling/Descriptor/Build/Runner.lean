import Descriptor.Build.Error
import Descriptor.CoreMetadata.Directory
import Descriptor.Project.Reading
import Descriptor.Session.Log

/-!
# Builds

A build asks the backend of a package for its metadata: a runner makes an environment with what the
backend requires and runs its hook there. All that a build leaves behind on the way lies in one
scratch directory, which is gone when the build ends.

## Main definitions

* `Runner`, `Runner.traced` : what makes environments and runs hooks.
* `makeScratch`, `withScratch` : a scratch directory, and an action that has one for itself.
* `Builder.read` : the record that a backend gives.
* `Builder.readWithFallback` : the record that the files of a project give, or else the backend.
-/

namespace Descriptor.Build

open Files (Fault FileTree joinPath)

/-- An action of a build on a session. -/
abbrev Action := ExceptT BuildError (StateM Session)

/-- What makes environments and runs hooks. -/
structure Runner where
  /-- Makes an environment at a path, with requirements installed, and gives its interpreter. -/
  provision (environment : String) (requires : List String) : Action String
  /-- Lets an interpreter run the hook of a backend, for a project, into a target directory. -/
  prepare (python backend project target : String) : Action Unit

/-- An action that puts a request on record, which no action can take off again. -/
def recordCall {α : Type} (call : Call) (action : Action α) : Action α := fun s =>
  let (outcome, after) := (action.run s : Except BuildError α × Session)
  (outcome, { after with calls := s.calls ++ [call] })

/-- The runner that puts every request on record. -/
def Runner.traced (r : Runner) : Runner where
  provision environment requires :=
    recordCall (.provision environment requires) (r.provision environment requires)
  prepare python backend project target :=
    recordCall (.prepare python backend project target) (r.prepare python backend project target)

/-- A runner with the backend and the requirements of a build. -/
structure Builder where
  runner : Runner
  backend : String
  requires : List String

/-- The builder that settings ask for. -/
def Builder.ofSettings (runner : Runner) (s : Settings) : Builder :=
  ⟨runner, s.effectiveBackend, s.effectiveRequires⟩

/-! ### Scratch directories -/

/-- The start of the names of scratch directories. -/
def scratchName : String := "pkgmeta-build-"

/-- The first of the paths that are tried at which nothing lies yet, with the files in which a
directory lies there. All of them are in the directory `place`. -/
def makeFirst (files : FileTree) (place : String) : List String → Except Fault (String × FileTree)
  | [] => .error (.at (.other "too many temporary files exist") place)
  | path :: rest =>
    match files.makeDirectory path with
    | .ok files => .ok (path, files)
    | .error .alreadyExists => makeFirst files place rest
    | .error fault => .error (.at fault path)

/-- The path of a new scratch directory, with the files in which it is there. -/
def makeScratch (s : Session) : Except Fault (String × FileTree) :=
  makeFirst s.files s.platform.temporary.text (s.platform.temporaryPaths scratchName)

/-- Runs an action with a scratch directory, which is gone afterwards in any case. -/
def withScratch {α : Type} (action : String → Action α) : Action α := fun s =>
  match makeScratch s with
  | .error fault => (.error (.io "creating the build directory" fault), s)
  | .ok (scratch, files) =>
    let (outcome, after) :=
      ((action scratch).run (s.withFiles files) : Except BuildError α × Session)
    (outcome, after.withFiles (after.files.removeAll scratch))

/-! ### Reading through a backend -/

namespace Builder

/-- The record that the hook leaves, with the environment and the metadata in given directories. -/
def build (b : Builder) (project environment target : String) : Action Record := do
  let python ← b.runner.provision environment b.requires
  Log.step ("Build environment ready: " ++ python)
  b.runner.prepare python b.backend project target
  let found ← CoreMetadata.findDirectory (← get).files target
  Log.step ("Reading " ++ found)
  (CoreMetadata.readDirectory (← get).files found : Except BuildError Record)

/-- An action whose outcome is told. -/
def report (action : Action Record) : Action Record := ExceptT.mk do
  let outcome ← action.run
  match outcome with
  | .ok record => Log.finished ("Prepared metadata for " ++ record.name.getD "<unnamed>")
  | .error _ => Log.failed "Metadata preparation failed"
  return outcome

/-- The record that the backend of a project gives. -/
def read (b : Builder) (project : String) : Action Record :=
  withScratch fun scratch => do
    let target := joinPath scratch "metadata"
    match (← get).files.makeDirectories target with
    | .error fault => throw (.io ("creating " ++ target) fault)
    | .ok files => modify (·.withFiles files)
    Log.began ("Preparing metadata for " ++ project ++ " with " ++ b.backend)
    report (b.build project (joinPath scratch "env") target)

/-- The reading of a project, with the record of the backend in place of one that says nothing about
what the package requires. -/
def readWithFallback (b : Builder) (reader : Project.ScriptReader) (project : String) :
    Action Project.Reading := do
  let reading := Project.readProjectWith reader (← get).files project
  if reading.record.lacksDependencies then
    return { reading with record := ← b.read project }
  else return reading

end Builder

end Descriptor.Build
