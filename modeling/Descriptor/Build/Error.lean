import Descriptor.Python.Environment
import Descriptor.Settings.File

/-!
# Build errors

Why the metadata of a package cannot be had from its build backend.

## Main definitions

* `BuildError`, `BuildError.message` : the causes and their text.
* `BuildError.fullText` : the text with those of further causes.
-/

namespace Descriptor

open Files (Fault)

/-- Why a build gives no metadata. -/
inductive BuildError where
  /-- A fault of the system in the course of what the context says. -/
  | io (context : String) (fault : Fault)
  /-- A command that ended otherwise than it should, with what it printed. -/
  | commandFailed (command : String) (code : Option Int) (stdout stderr : String)
  | toolNotFound (tool : String)
  | missingDistInfo (directory : String)
  | invalidMetadata (path message : String)
  | settings (error : SettingsError)
  | environment (error : Python.EnvironmentError)
  deriving DecidableEq, Repr

namespace BuildError

/-- How a command ended. -/
def codeText : Option Int → String
  | some code => "exit code " ++ toString code
  | none => "terminated by signal"

/-- What a command printed as its errors, on lines of its own unless it is blank. -/
def excerpt (stderr : String) : String :=
  let text := Text.trimmed stderr
  if text.isEmpty then "" else "\n" ++ text

/-- The text of a build error. -/
def message : BuildError → String
  | io context fault => "IO error while " ++ context ++ ": " ++ fault.message
  | commandFailed command code _ stderr =>
    "Command failed (" ++ codeText code ++ "): " ++ command ++ excerpt stderr
  | toolNotFound tool => "Required tool not found: " ++ tool
  | missingDistInfo directory =>
    "Build backend produced no *.dist-info directory in " ++ directory
  | invalidMetadata path message => "Invalid METADATA file " ++ path ++ ": " ++ message
  | settings error => error.message
  | environment error => error.message

/-- The texts of what caused a build error. -/
def causes : BuildError → List String
  | io _ fault => [fault.message]
  | settings error => error.causes
  | _ => []

end BuildError

end Descriptor
