/-!
# Command lines

What a list of arguments asks of the program. Two options may stand anywhere: where one of them
stands on several levels of the command, the innermost level counts.

## Main definitions

* `Globals`, `ReadRequest`, `SettingsRequest`, `Request` : what a command line asks for.
* `Invocation` : a command line as a whole.
* `parseArguments` : the invocation that arguments spell.
-/

namespace Descriptor.Cli

/-- The options that may stand anywhere. -/
structure Globals where
  quiet : Bool
  verbose : Nat
  deriving DecidableEq, Repr, Inhabited

namespace Globals

/-- The verbosity that counts: to be quiet goes before all else. -/
def verbosity (g : Globals) : Nat := if g.quiet then 0 else g.verbose

/-- The filter for diagnostic messages at a verbosity. -/
def filter (g : Globals) : String :=
  match g.verbosity with
  | 0 => "error"
  | 1 => "debug"
  | _ => "trace"

end Globals

/-- The formats that a record is printed in. -/
inductive Format where
  | json | toml
  deriving DecidableEq, Repr, Inhabited

/-- The format of a name. -/
def Format.ofName? : String → Option Format
  | "json" => some .json
  | "toml" => some .toml
  | _ => none

/-- How the record of a project is to be had. -/
structure ReadRequest where
  directory : String
  build : Bool
  fallback : Bool
  strict : Bool
  format : Format
  deriving DecidableEq, Repr, Inhabited

/-- What is to be done with settings. -/
inductive SettingsRequest where
  | show
  | path
  | get (key : String)
  | set (key value : String)
  deriving DecidableEq, Repr

/-- What is to be done. -/
inductive Request where
  | read (r : ReadRequest)
  | settings (r : SettingsRequest)
  deriving DecidableEq, Repr

/-- What a command line amounts to. -/
inductive Invocation where
  | run (globals : Globals) (request : Request)
  | help
  | version
  | misuse
  deriving DecidableEq, Repr

/-! ### Options -/

/-- The options of one level of a command, as far as they are given. -/
structure Level where
  quiet : Bool
  verbose : Nat
  build : Bool
  fallback : Bool
  strict : Bool
  format : Option Format
  /-- The arguments that are no options, in reverse. -/
  operands : List String
  deriving DecidableEq, Repr, Inhabited

/-- A level on which nothing is given. -/
def Level.empty : Level := ⟨false, 0, false, false, false, none, []⟩

/-- What stops the reading of arguments. -/
inductive Stop where
  | help | version | misuse
  deriving DecidableEq, Repr

/-- The invocation that a stop amounts to. -/
def Stop.invocation : Stop → Invocation
  | .help => .help
  | .version => .version
  | .misuse => .misuse

/-- The levels of a command. -/
inductive Place where
  | top | read | settings | leaf
  deriving DecidableEq, Repr

/-- Sets a flag, which may be set once only. -/
def setOnce (given : Bool) (level : Level) : Except Stop Level :=
  if given then .error .misuse else .ok level

/-- The level with a further one-letter option. -/
def addLetter (place : Place) (level : Level) (c : Char) : Except Stop Level :=
  match c with
  | 'q' => setOnce level.quiet { level with quiet := true }
  | 'v' => .ok { level with verbose := min 255 (level.verbose + 1) }
  | 'h' => .error .help
  | 'V' => if place = .top then .error .version else .error .misuse
  | _ => .error .misuse

/-- The level with a further option of several letters. -/
def addName (place : Place) (level : Level) (name : String) : Except Stop Level :=
  match name with
  | "quiet" => setOnce level.quiet { level with quiet := true }
  | "verbose" => .ok { level with verbose := min 255 (level.verbose + 1) }
  | "help" => .error .help
  | "version" => if place = .top then .error .version else .error .misuse
  | "build" =>
    if place = .read then setOnce level.build { level with build := true } else .error .misuse
  | "fallback" =>
    if place = .read then setOnce level.fallback { level with fallback := true }
    else .error .misuse
  | "strict" =>
    if place = .read then setOnce level.strict { level with strict := true } else .error .misuse
  | _ => .error .misuse

/-- The level with a format. -/
def addFormat (place : Place) (level : Level) (value : String) : Except Stop Level :=
  match Format.ofName? value with
  | some f =>
    if place = .read ∧ level.format.isNone then .ok { level with format := some f }
    else .error .misuse
  | none => .error .misuse

/-- The start of an option that holds a format. -/
def formatStart : List Char := "--format=".toList

/-- The level with a further option as a single argument. -/
def addOption (place : Place) (level : Level) (argument : String) : Except Stop Level :=
  match argument.toList with
  | '-' :: '-' :: name =>
    if formatStart.isPrefixOf argument.toList then
      addFormat place level (String.ofList (argument.toList.drop formatStart.length))
    else addName place level (String.ofList name)
  | _ :: letters => letters.foldlM (addLetter place) level
  | [] => .error .misuse

/-- Whether an argument is an option. A single hyphen is not. -/
def isOption (argument : String) : Bool :=
  match argument.toList with
  | '-' :: _ :: _ => true
  | _ => false

/-- Whether operands at a place name a further level, so that reading stops at the first one. -/
def Place.branches : Place → Bool
  | .top => true
  | .settings => true
  | .read => false
  | .leaf => false

/-- The options of a level, with the arguments from the one that names a further level on. -/
def readLevel (place : Place) (level : Level) : List String → Except Stop (Level × List String)
  | [] => .ok (level, [])
  | "--" :: rest =>
    if place.branches then if rest.isEmpty then .ok (level, []) else .error .misuse
    else .ok ({ level with operands := rest.reverse ++ level.operands }, [])
  | "--format" :: value :: rest => do
    if place = .read then readLevel place (← addFormat place level value) rest
    else .error .misuse
  | argument :: rest => do
    if isOption argument then readLevel place (← addOption place level argument) rest
    else if place.branches then .ok (level, argument :: rest)
    else readLevel place { level with operands := argument :: level.operands } rest

/-! ### Commands -/

/-- The options of some levels, the innermost one first. -/
def globalsOf (levels : List Level) : Globals where
  quiet := levels.any (·.quiet)
  verbose := ((levels.find? (·.verbose ≠ 0)).map (·.verbose)).getD 0

/-- The request to read a project. -/
def readRequest? (level : Level) : Option ReadRequest := do
  guard !(level.build && level.fallback)
  let directory ← match level.operands with
    | [] => some "."
    | [directory] => if directory.isEmpty then none else some directory
    | _ => none
  some ⟨directory, level.build, level.fallback, level.strict, level.format.getD .json⟩

/-- The request about settings that a word and operands name. -/
def settingsRequest? (word : String) (operands : List String) : Option SettingsRequest :=
  match word, operands with
  | "show", [] => some .show
  | "path", [] => some .path
  | "get", [key] => some (.get key)
  | "set", [key, value] => some (.set key value)
  | _, _ => none

/-- The words that name a request about settings. -/
def settingsWords : List String := ["show", "path", "get", "set"]

/-- The invocation for a possible request. -/
def invocation (levels : List Level) (request : Option Request) : Invocation :=
  match request with
  | some r => .run (globalsOf levels) r
  | none => .misuse

/-- The invocation of a request about settings. -/
def parseSettings (top : Level) (args : List String) : Except Stop Invocation := do
  let (level, rest) ← readLevel .settings .empty args
  match rest with
  | [] => .ok (invocation [level, top] (some (.settings .show)))
  | word :: rest =>
    if word = "help" then .error .help
    else if settingsWords.contains word then do
      let (inner, _) ← readLevel .leaf .empty rest
      .ok (invocation [inner, level, top]
        ((settingsRequest? word inner.operands.reverse).map .settings))
    else .error .misuse

/-- The invocation that arguments spell, unless something stops their reading. -/
def parseTop (args : List String) : Except Stop Invocation := do
  let (top, rest) ← readLevel .top .empty args
  match rest with
  | "read" :: rest => do
    let (level, _) ← readLevel .read .empty rest
    .ok (invocation [level, top] ((readRequest? level).map .read))
  | "config" :: rest => parseSettings top rest
  | "help" :: _ => .error .help
  | _ => .error .misuse

/-- The invocation that arguments spell. -/
def parseArguments (args : List String) : Invocation :=
  match parseTop args with
  | .ok i => i
  | .error stop => stop.invocation

end Descriptor.Cli
