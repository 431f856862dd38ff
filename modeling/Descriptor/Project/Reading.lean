import Descriptor.Files.Tree
import Descriptor.Ini.SetupCfg
import Descriptor.Script.Fields
import Descriptor.Script.Grammar.Module

/-!
# Reading a project

A project directory may hold a script and a configuration document that describe its package. Both
are read, neither is run; what the document says goes before what the script says, and a file that
cannot be read takes nothing away from the other one.

## Main definitions

* `DescriptorError`, `DescriptorError.message` : why a file cannot be read.
* `Reading` : the merged record, the files found, and those that failed.
* `readProject` : the reading of a directory.
-/

namespace Descriptor.Project

open Files (FileTree Fault joinPath)

/-- Why a file that describes a package cannot be read. -/
inductive DescriptorError where
  | io (path : String) (fault : Fault)
  | script (path : String) (error : Script.SyntaxError)
  | config (path : String) (line : Nat) (message : String)
  deriving DecidableEq, Repr

namespace DescriptorError

/-- The file that cannot be read. -/
def path : DescriptorError → String
  | io path _ => path
  | script path _ => path
  | config path _ _ => path

/-- The text of a descriptor error. -/
def message : DescriptorError → String
  | io path fault => "Failed to read " ++ path ++ ": " ++ fault.message
  | script path error => "Syntax error in " ++ path ++ ": " ++ error.text
  | config path line message =>
    "Invalid config file " ++ path ++ " at line " ++ toString line ++ ": " ++ message

end DescriptorError

/-- A way to read scripts. -/
abbrev ScriptReader := String → Except Script.SyntaxError (List Script.Stmt)

/-- What was read from a directory. -/
structure Reading where
  record : Record
  /-- The files that describe the package, in the order in which they are read. -/
  found : List String
  failures : List DescriptorError
  deriving DecidableEq

namespace Reading

/-- Nothing was found. -/
def empty : Reading := ⟨.unknown, [], []⟩

/-- The merged record, or the first failure. -/
def toResult (r : Reading) : Except DescriptorError Record :=
  match r.failures with
  | e :: _ => .error e
  | [] => .ok r.record

/-- The reading with a further file. -/
def add (r : Reading) (path : String) (outcome : Except DescriptorError Record) : Reading :=
  match outcome with
  | .ok record => { r with record := r.record.merge record, found := r.found ++ [path] }
  | .error e => { r with found := r.found ++ [path], failures := r.failures ++ [e] }

end Reading

/-- The record of a script file. -/
def readScriptFile (reader : ScriptReader) (files : FileTree) (path : String) :
    Except DescriptorError Record := do
  let source ← (files.readText path).mapError (.io path)
  let statements ← (reader source).mapError (.script path)
  .ok (Script.recordOf statements)

/-- The record of a configuration document. -/
def readConfigFile (files : FileTree) (path : String) : Except DescriptorError Record := do
  let content ← (files.readText path).mapError (.io path)
  (Ini.readRecord content).mapError fun e => .config path e.line e.message

/-- The kinds of files that describe a package. -/
inductive DescriptorFile where
  | script | config
  deriving DecidableEq, Repr

namespace DescriptorFile

/-- All kinds, in the order in which they are read. -/
def all : List DescriptorFile := [script, config]

/-- The name of a file of a kind. -/
def name : DescriptorFile → String
  | script => "setup.py"
  | config => "setup.cfg"

/-- The record of a file of a kind. -/
def read (kind : DescriptorFile) (reader : ScriptReader) (files : FileTree) (path : String) :
    Except DescriptorError Record :=
  match kind with
  | script => readScriptFile reader files path
  | config => readConfigFile files path

end DescriptorFile

/-- The reading of a directory in which scripts are read in a given way. -/
def readProjectWith (reader : ScriptReader) (files : FileTree) (directory : String) : Reading :=
  DescriptorFile.all.foldl (fun r kind =>
    let path := joinPath directory kind.name
    if files.isFile path then r.add path (kind.read reader files path) else r) .empty

/-- The reading of a directory. -/
def readProject (files : FileTree) (directory : String) : Reading :=
  readProjectWith Script.readModule files directory

end Descriptor.Project
