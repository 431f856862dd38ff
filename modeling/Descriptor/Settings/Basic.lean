import Descriptor.Files.Path
import Descriptor.Text.Blank

/-!
# Settings

What a user can set about builds: where the tool that makes environments is, the interpreter to use,
the backend, and what the backend requires. Settings that are not set have defaults or none at all.

## Main definitions

* `Key`, `Key.ofName?` : the settings and their names.
* `Assignment` : a value for a setting, by its name.
* `Settings`, `Settings.get?`, `Settings.set` : values that are set.
* `Settings.effectiveBackend`, `Settings.effectiveRequires` : values with the defaults.
-/

namespace Descriptor

/-- The settings there are. -/
inductive Key where
  | uvPath | pythonVersion | buildBackend | buildRequires
  deriving DecidableEq, Repr

namespace Key

/-- All settings, in the order in which they are shown. -/
def all : List Key := [uvPath, pythonVersion, buildBackend, buildRequires]

/-- The name of a setting. -/
def name : Key → String
  | uvPath => "uv-path"
  | pythonVersion => "python-version"
  | buildBackend => "build-backend"
  | buildRequires => "build-requires"

/-- The setting with a name. -/
def ofName? (s : String) : Option Key := all.find? (·.name = s)

end Key

/-- A value for what a name stands for, if it stands for anything. -/
structure Assignment where
  name : String
  value : String
  deriving DecidableEq, Repr

/-- The values that are set. -/
structure Settings where
  uvPath : Option String
  pythonVersion : Option String
  buildBackend : Option String
  buildRequires : Option (List String)
  deriving DecidableEq, Repr, Inhabited

namespace Settings

/-- Nothing is set. -/
def none : Settings := ⟨.none, .none, .none, .none⟩

/-- The elements of a list that is written with commas, blank ones left out. -/
def splitList (value : String) : List String :=
  ((Files.splitAt ',' value).map Text.trimmed).filter (· ≠ "")

/-- A list, written with commas. -/
def joinList (texts : List String) : String := ", ".intercalate texts

/-- The value of a setting, as it is shown. -/
def get? (s : Settings) : Key → Option String
  | .uvPath => s.uvPath
  | .pythonVersion => s.pythonVersion
  | .buildBackend => s.buildBackend
  | .buildRequires => s.buildRequires.map joinList

/-- The settings with a value for one of them. -/
def set (s : Settings) (key : Key) (value : String) : Settings :=
  match key with
  | .uvPath => { s with uvPath := some value }
  | .pythonVersion => { s with pythonVersion := some value }
  | .buildBackend => { s with buildBackend := some value }
  | .buildRequires => { s with buildRequires := some (splitList value) }

/-- Whether nothing is set. -/
def isEmpty (s : Settings) : Bool := s = none

/-- The values that are set, with the names of their settings. -/
def values (s : Settings) : List (String × String) :=
  Key.all.filterMap fun key => (s.get? key).map fun value => (key.name, value)

/-- The backend that builds use. -/
def effectiveBackend (s : Settings) : String := s.buildBackend.getD "setuptools.build_meta"

/-- The requirements that builds install. -/
def effectiveRequires (s : Settings) : List String := s.buildRequires.getD ["setuptools", "wheel"]

end Settings

end Descriptor
