import Descriptor.Session.Basic
import Descriptor.Settings.Basic
import Descriptor.Toml.Document

/-!
# Settings on file

Settings are kept in a configuration file, at a place that the environment may name. A file that is
not there stands for settings of which none is set.

## Main definitions

* `SettingsError`, `SettingsError.message` : why settings cannot be used.
* `Settings.shown`, `Settings.enter` : a setting by its name, as it is shown and as it is entered.
* `Settings.write`, `Settings.read?` : the text of settings, and the settings that a text gives.
* `Settings.load`, `Settings.save` : settings on file.
* `Settings.path` : the place of the file.
* `Settings.findUv` : the tool that makes environments.
-/

namespace Descriptor

open Files (FileTree Fault joinPath)

/-- Why settings cannot be used. -/
inductive SettingsError where
  | noHome
  | inaccessible (path : String) (fault : Fault)
  | unreadable (path : String)
  | unknownKey (name : String)
  | uvNotFound
  | uvPathMissing (path : String)
  deriving DecidableEq, Repr

namespace SettingsError

/-- The text of a settings error. -/
def message : SettingsError → String
  | noHome => "Could not determine home directory"
  | inaccessible path fault => "Failed to access config file " ++ path ++ ": " ++ fault.message
  | unreadable path => "Failed to parse config file " ++ path ++ ": TOML parse error"
  | unknownKey name =>
    "Unknown config key '" ++ name ++ "' (expected one of: " ++
      ", ".intercalate (Key.all.map (·.name)) ++ ")"
  | uvNotFound =>
    "uv is not installed. Install it from " ++
      "https://docs.astral.sh/uv/getting-started/installation/ or set uv-path"
  | uvPathMissing path => "Configured uv-path does not exist: " ++ path

/-- The texts of what caused a settings error. -/
def causes : SettingsError → List String
  | inaccessible _ fault => [fault.message]
  | unreadable _ => ["TOML parse error"]
  | _ => []

end SettingsError

namespace Settings

open Toml (Entries Value writeEntry writeText writeTexts)

/-! ### Names -/

/-- The value of what a name stands for, as it is shown. -/
def shown (s : Settings) (name : String) : Except SettingsError (Option String) :=
  match Key.ofName? name with
  | some key => .ok (s.get? key)
  | Option.none => .error (.unknownKey name)

/-- The outcome of entering a value under a name, with the settings that it leaves. -/
def enter (s : Settings) (a : Assignment) : Except SettingsError Unit × Settings :=
  match Key.ofName? a.name with
  | some key => (.ok (), s.set key a.value)
  | Option.none => (.error (.unknownKey a.name), s)

/-! ### Text -/

/-- The line of a setting, if it is set. -/
def writeSetting (key : Key) (value : Option (List Char)) : List Char :=
  value.elim [] (writeEntry key.name)

/-- The text of settings. -/
def write (s : Settings) : String :=
  String.ofList <|
    writeSetting .uvPath (s.uvPath.map writeText) ++
      writeSetting .pythonVersion (s.pythonVersion.map writeText) ++
      writeSetting .buildBackend (s.buildBackend.map writeText) ++
      writeSetting .buildRequires (s.buildRequires.map writeTexts)

/-- A text. -/
def textOf? : Value → Option String
  | .text s => some s
  | _ => Option.none

/-- A list of texts. -/
def textsOf? : Value → Option (List String)
  | .array elements => elements.mapM textOf?
  | _ => Option.none

/-- What a key gives when it is there. -/
def field? {α : Type} (entries : Entries) (key : Key) (decode : Value → Option α) :
    Option (Option α) :=
  match entries.get? key.name with
  | some v => (decode v).map some
  | Option.none => some Option.none

/-- The settings that a root table gives. Other keys mean nothing. -/
def ofEntries? (entries : Entries) : Option Settings := do
  return {
    uvPath := ← field? entries .uvPath textOf?
    pythonVersion := ← field? entries .pythonVersion textOf?
    buildBackend := ← field? entries .buildBackend textOf?
    buildRequires := ← field? entries .buildRequires textsOf? }

/-- The settings that a text gives. -/
def read? (content : String) : Option Settings := do ofEntries? (← Toml.readDocument? content)

/-! ### Files -/

/-- The settings in a file. -/
def loadFrom (files : FileTree) (path : String) : Except SettingsError Settings := do
  if files.pathExists path then
    let content ← (files.readText path).mapError (.inaccessible path)
    match read? content with
    | some s => .ok s
    | Option.none => .error (.unreadable path)
  else .ok none

/-- The files with a directory for a file at a path. -/
def makeParent (files : FileTree) (path : String) : Except Fault FileTree :=
  match Files.parentPath? path with
  | some parent => files.makeDirectories parent
  | Option.none => .ok files

/-- The files with settings at a path, or with what was made on the way before that failed. -/
def saveTo (s : Settings) (files : FileTree) (path : String) :
    Except SettingsError Unit × FileTree :=
  match makeParent files path with
  | .error fault => (.error (.inaccessible path fault), files)
  | .ok files =>
    match files.write path (Text.encodeUtf8 s.write.toList) with
    | .ok files => (.ok (), files)
    | .error fault => (.error (.inaccessible path fault), files)

/-- The place of the file with the settings of a session. -/
def path (session : Session) : Except SettingsError String :=
  match ((session.valueOf? "PKGMETA_CONFIG").map Text.trimmed).filter (· ≠ "") with
  | some path => .ok path
  | Option.none =>
    match session.ownDirectory? with
    | some directory => .ok (joinPath directory "pkgmeta.toml")
    | Option.none => .error .noHome

/-- The settings of a session. -/
def load (session : Session) : Except SettingsError Settings := do
  loadFrom session.files (← path session)

/-- The outcome of saving the settings of a session, with the files it leaves. -/
def save (s : Settings) (session : Session) : Except SettingsError String × FileTree :=
  match path session with
  | .error e => (.error e, session.files)
  | .ok path =>
    let (outcome, files) := s.saveTo session.files path
    (outcome.map fun _ => path, files)

/-! ### The tool that makes environments -/

/-- The first executable file of a name on the search path. -/
def findOnPath? (session : Session) (name : String) : Option String :=
  (session.platform.searchPath.map (joinPath · name)).find? session.files.isExecutable

/-- The tool that makes environments: the one that is set, or else the one on the search path. -/
def findUv (s : Settings) (session : Session) : Except SettingsError String :=
  match s.uvPath with
  | some path =>
    if session.files.pathExists path then .ok path else .error (.uvPathMissing path)
  | Option.none =>
    match findOnPath? session "uv" with
    | some path => .ok path
    | Option.none => .error .uvNotFound

end Settings

end Descriptor
