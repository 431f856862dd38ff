import Descriptor.Files.Tree

/-!
# Virtual environments

The interpreter of a virtual environment: one under a usual name, or else the first file listed
whose name starts like an interpreter's.

## Main definitions

* `EnvironmentError`, `EnvironmentError.message` : why there is no interpreter.
* `findInterpreter` : the interpreter of an environment.
-/

namespace Descriptor.Python

open Files (FileTree joinPath)

/-- Why an environment has no interpreter. -/
inductive EnvironmentError where
  | notFound (path : String)
  | noInterpreter (directory : String)
  deriving DecidableEq, Repr

/-- The text of an environment error. -/
def EnvironmentError.message : EnvironmentError → String
  | .notFound path => "Virtual environment not found: " ++ path
  | .noInterpreter directory => "Python executable not found in " ++ directory

/-- The usual names of an interpreter, the preferred one first. -/
def usualNames : List String := ["python3", "python"]

/-- Whether a name starts like an interpreter's. -/
def isInterpreterName (name : String) : Bool := "python".toList.isPrefixOf name.toList

/-- The interpreter in the directory of an environment's programs. -/
def interpreterIn? (files : FileTree) (directory : String) : Option String :=
  match (usualNames.map (joinPath directory)).find? files.isFile with
  | some path => some path
  | none =>
    let names := (files.list directory).toOption.getD []
    ((names.filter isInterpreterName).map (joinPath directory)).find? files.isFile

/-- The interpreter of an environment. -/
def findInterpreter (files : FileTree) (environment : String) : Except EnvironmentError String :=
  if files.isDirectory environment then
    match interpreterIn? files (joinPath environment "bin") with
    | some path => .ok path
    | none => .error (.noInterpreter (joinPath environment "bin"))
  else .error (.notFound environment)

end Descriptor.Python
