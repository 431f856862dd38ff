import Descriptor.Build.Call
import Descriptor.Session.Platform

/-!
# Sessions

What a run of the program finds and changes: the files, the environment variables, what the system
answers, the logger, and what was printed for the user on the error stream.

## Main definitions

* `Logger` : what decides where a message goes.
* `Session` : all that a run finds and changes.
* `Session.valueOf?` : the environment variables.
* `Session.ownDirectory?` : the directory that the program keeps its own files in.
-/

namespace Descriptor

/-- What decides where a message goes. -/
structure Logger where
  verbosity : Nat
  quiet : Bool
  /-- The path of the log of this run, once there is one. -/
  file : Option String
  deriving DecidableEq, Repr, Inhabited

/-- The logger before it is set up. -/
def Logger.initial : Logger := ⟨0, false, none⟩

/-- All that a run finds and changes. -/
structure Session where
  files : Files.FileTree
  environment : List (String × String)
  platform : Platform
  logger : Logger
  /-- Whether printed text is styled. -/
  colored : Bool
  /-- The time, as it stands in the log. -/
  clock : String
  /-- The messages on the error stream, in order. -/
  console : List String
  /-- The requests to a traced runner, in order. -/
  calls : List Build.Call
  deriving DecidableEq, Repr, Inhabited

namespace Session

/-- A session in which nothing has happened. The system answers what the environment says. -/
def start (files : Files.FileTree) (environment : List (String × String)) : Session where
  files := files
  environment := environment
  platform := .ofEnvironment files environment
  logger := .initial
  colored := false
  clock := "1970-01-01 00:00:00"
  console := []
  calls := []

/-- The value of an environment variable. -/
def valueOf? (s : Session) (name : String) : Option String :=
  (s.environment.find? (·.1 = name)).map (·.2)

/-- The directory below the home directory in which the program keeps its own files. -/
def ownDirectory? (s : Session) : Option String :=
  s.platform.home.map fun home => Files.joinPath (Files.joinPath home ".config") "pkgmeta"

/-- The session with other files. -/
def withFiles (s : Session) (files : Files.FileTree) : Session := { s with files := files }

end Session

end Descriptor
