import Descriptor.Build.Uv
import Descriptor.Cli.Arguments
import Descriptor.Record.Json
import Descriptor.Record.Toml

/-!
# The program

What the program does for each request, as an action on a session, and what a whole run prints and
exits with.

## Main definitions

* `Failure`, `Failure.text` : why a request fails.
* `readProject` : the printed record of a project.
* `answerSettings` : what is printed about settings.
* `run` : a whole run.
-/

namespace Descriptor.Cli

open Child (Launcher)
open Project (Reading)

/-- Why a request fails. -/
inductive Failure where
  | notADirectory (path : String)
  | cannotLoad (error : SettingsError)
  | cannotSave (error : SettingsError)
  | settings (error : SettingsError)
  | build (error : BuildError)
  /-- Some files that describe the package could not be read. -/
  | unreadable (count : Nat)
  deriving DecidableEq, Repr

/-- The text of a failure, with those of its causes. -/
def Failure.text : Failure → String
  | .notADirectory path => "Not a directory: " ++ path
  | .cannotLoad e => ": ".intercalate ("Failed to load config" :: e.message :: e.causes)
  | .cannotSave e => ": ".intercalate ("Failed to save config" :: e.message :: e.causes)
  | .settings e => ": ".intercalate (e.message :: e.causes)
  | .build e => ": ".intercalate (e.message :: e.causes)
  | .unreadable count => toString count ++ " descriptor file(s) could not be read"

/-- An action of the program on a session. -/
abbrev Action := ExceptT Failure (StateM Session)

/-- An action of a build as one of the program. -/
def ofBuild {α : Type} (action : Build.Action α) : Action α := ExceptT.adapt .build action

/-! ### Reading a project -/

/-- A record in a format. -/
def render (r : Record) : Format → String
  | .json => r.writeJson
  | .toml => r.writeToml

/-- Tells what was found and what failed. -/
def report (reading : Reading) : Action Unit := do
  if reading.found.isEmpty && reading.failures.isEmpty then
    Log.debug "No setup.py or setup.cfg found"
  for path in reading.found do
    Log.debug ("Found " ++ path)
  for failure in reading.failures do
    Log.warn failure.message

/-- The settings of the session. -/
def loadSettings : Action Settings := do
  match Settings.load (← get) with
  | .ok s => return s
  | .error e => throw (.cannotLoad e)

/-- The builder that the settings of the session ask for. -/
def builder (launch : Launcher) : Action Build.Builder := do
  let s ← loadSettings
  match Build.Uv.ofSettings s (← get) with
  | .ok uv => return .ofSettings (uv.runner launch) s
  | .error e => throw (.build e)

/-- The reading of a project by the means that are asked for. -/
def readBy (launch : Launcher) (r : ReadRequest) : Action Reading := do
  if r.build then
    let b ← builder launch
    return { Reading.empty with record := ← ofBuild (b.read r.directory) }
  else if r.fallback then
    let b ← builder launch
    ofBuild (b.readWithFallback Script.readModule r.directory)
  else return Project.readProject (← get).files r.directory

/-- The printed record of a project. -/
def readProject (launch : Launcher) (r : ReadRequest) : Action String := do
  if !(← get).files.isDirectory r.directory then throw (.notADirectory r.directory)
  let reading ← readBy launch r
  report reading
  if r.strict && !reading.failures.isEmpty then throw (.unreadable reading.failures.length)
  return render reading.record r.format

/-! ### Settings -/

/-- A line about a setting. -/
def settingLine (colored : Bool) (style : Log.Style) (name value : String) : String :=
  "  " ++ Log.styled colored style name ++ ": " ++ value

/-- The lines that show settings. -/
def settingLines (colored : Bool) (verbosity : Nat) (s : Settings) : List String :=
  let values :=
    if s.isEmpty then
      if verbosity = 0 then [] else ["  " ++ Log.styled colored .yellow "(empty)"]
    else s.values.map fun (name, value) => settingLine colored .cyan name value
  Log.styled colored .boldGreen "Configuration:" :: values ++
    [settingLine colored .dim "effective build-backend" s.effectiveBackend,
      settingLine colored .dim "effective build-requires" (Settings.joinList s.effectiveRequires)]

/-- Saves the settings of the session. -/
def saveSettings (s : Settings) : Action Unit := do
  let session ← get
  let (outcome, files) := s.save session
  set (session.withFiles files)
  match outcome with
  | .ok _ => return
  | .error e => throw (.cannotSave e)

/-- The lines that answer a request about settings. -/
def answerSettings (g : Globals) : SettingsRequest → Action (List String)
  | .show => do return settingLines (← get).colored g.verbosity (← loadSettings)
  | .path => do
    match Settings.path (← get) with
    | .ok path => return [path]
    | .error e => throw (.settings e)
  | .get name => do
    match (← loadSettings).shown name with
    | .ok (some value) => return [value]
    | .ok none =>
      Log.info (name ++ " is not set")
      return []
    | .error e => throw (.settings e)
  | .set name value => do
    match (← loadSettings).enter ⟨name, value⟩ with
    | (.ok (), s) =>
      saveSettings s
      Log.success ("Set " ++ name ++ " = " ++ value)
      return []
    | (.error e, _) => throw (.settings e)

/-! ### Whole runs -/

/-- What a run prints on the output stream, line by line, and its exit code. -/
structure Outcome where
  exitCode : Nat
  output : List String
  deriving DecidableEq, Repr, Inhabited

/-- The lines that answer a request. -/
def answer (launch : Launcher) (g : Globals) : Request → Action (List String)
  | .read r => do return [← readProject launch r]
  | .settings r => answerSettings g r

/-- Starts the log of a run. A run goes on without one. -/
def startLog (g : Globals) : StateM Session Unit := do
  let outcome ← (Log.openDefault g.verbosity g.quiet).run
  match outcome with
  | .ok () => return
  | .error e => Log.print ("warning: Failed to initialize logger: " ++ e.message)

/-- The run of a request. -/
def runRequest (launch : Launcher) (g : Globals) (r : Request) : StateM Session Outcome := do
  startLog g
  let outcome ← (answer launch g r).run
  match outcome with
  | .ok lines => return ⟨0, lines⟩
  | .error e =>
    Log.error e.text
    return ⟨1, []⟩

/-- A reminder of how the program is called. -/
def usage : List String :=
  ["Usage: pkgmeta [OPTIONS] <COMMAND>", "",
    "Commands:",
    "  read [DIR] [--build | --fallback] [--strict] [--format json|toml]",
    "  config [show | path | get KEY | set KEY VALUE]", "",
    "Options:",
    "  -q, --quiet    Only print errors and the result",
    "  -v, --verbose  Increase verbosity (-v for debug, -vv for trace)",
    "  -h, --help     Print help",
    "  -V, --version  Print version"]

/-- A whole run. -/
def run (launch : Launcher) (args : List String) : StateM Session Outcome :=
  match parseArguments args with
  | .run g r => runRequest launch g r
  | .help => return ⟨0, usage⟩
  | .version => return ⟨0, ["pkgmeta 0.1.0"]⟩
  | .misuse => do
    for line in usage do
      Log.print line
    return ⟨2, []⟩

end Descriptor.Cli
