import Descriptor.Build.Runner

/-!
# The runner that calls a tool

Environments are made and filled by a tool that is called as a child process; the hook of a backend
runs as a child process of the environment's interpreter. Every command goes to the log with what it
printed.

## Main definitions

* `Uv` : the tool, and the interpreter that it is asked for.
* `runCommand` : a command that has to succeed.
* `Uv.runner` : the runner that calls the tool.
-/

namespace Descriptor.Build

open Files (Fault)
open Child (Command Launcher Output)

/-- The tool that makes environments, and the interpreter that it is asked for. -/
structure Uv where
  program : String
  pythonVersion : Option String
  deriving DecidableEq, Repr

/-- The tool that settings ask for. -/
def Uv.ofSettings (s : Settings) (session : Session) : Except BuildError Uv := do
  let program ← (s.findUv session).mapError .settings
  .ok ⟨program, s.pythonVersion⟩

/-- What the interpreter of an environment runs: it imports the backend and calls its hook. -/
def hookScript : String :=
  "import importlib, sys\n" ++
  "module, _, attrs = sys.argv[1].partition(':')\n" ++
  "backend = importlib.import_module(module)\n" ++
  "for attr in filter(None, attrs.split('.')):\n" ++
  "    backend = getattr(backend, attr)\n" ++
  "backend.prepare_metadata_for_build_wheel(sys.argv[2])\n"

/-- The line of a command, with the script of the hook left out. -/
def commandLine (c : Command) : String :=
  " ".intercalate <|
    c.program :: c.args.map fun a => if a = hookScript then "<prepare-metadata>" else a

/-- Runs a command, which has to succeed. -/
def runCommand (launch : Launcher) (c : Command) : Action Output := do
  let line := commandLine c
  Log.debug ("Running: " ++ line)
  let s ← get
  let (started, files) := launch c s.files
  set (s.withFiles files)
  match started with
  | .error .notFound => throw (.toolNotFound c.program)
  | .error fault => throw (.io ("running " ++ line) fault)
  | .ok output =>
    Log.captured line output
    if output.status.isSuccess then return output
    else
      throw (.commandFailed line output.status.code? (Child.printedText output.stdout)
        (Child.printedText output.stderr))

namespace Uv

/-- The command that makes an environment. -/
def environmentCommand (uv : Uv) (environment : String) : Command :=
  ⟨uv.program, ["venv", environment] ++ (uv.pythonVersion.elim [] fun v => ["--python", v]), none⟩

/-- The command that installs requirements. -/
def installCommand (uv : Uv) (python : String) (requires : List String) : Command :=
  ⟨uv.program, ["pip", "install", "--python", python] ++ requires, none⟩

/-- The command that runs the hook of a backend. -/
def hookCommand (python backend project target : String) : Command :=
  ⟨python, ["-c", hookScript, backend, target], some project⟩

/-- Makes an environment, installs requirements in it, and gives its interpreter. -/
def provision (uv : Uv) (launch : Launcher) (environment : String) (requires : List String) :
    Action String := do
  let _ ← runCommand launch (uv.environmentCommand environment)
  let python ←
    ((Python.findInterpreter (← get).files environment).mapError .environment :
      Except BuildError String)
  if !requires.isEmpty then
    let _ ← runCommand launch (uv.installCommand python requires)
  return python

/-- Runs the hook of a backend. -/
def prepare (launch : Launcher) (python backend project target : String) : Action Unit := do
  let _ ← runCommand launch (hookCommand python backend project target)

/-- The runner that calls the tool. -/
def runner (uv : Uv) (launch : Launcher) : Runner where
  provision := uv.provision launch
  prepare := prepare launch

end Uv

end Descriptor.Build
