import Descriptor.Child.Basic
import Descriptor.Session.Basic
import Descriptor.Text.Blank

/-!
# Messages

A message goes to the log of the run and, by its kind and the verbosity, to the error stream. The
log holds every message of the run whatever the verbosity, and nothing of an earlier run.

## Main definitions

* `Log.openIn`, `Log.openDefault` : a new log in a directory.
* `Log.record` : a line of the log.
* `Log.info`, `Log.debug`, `Log.step`, `Log.warn`, `Log.error`, `Log.success` : messages by kind.
* `Log.captured` : what a finished process printed, in the log alone.
* `Log.began`, `Log.finished`, `Log.failed`, `Log.stopped` : the start and the end of a long task.
-/

namespace Descriptor.Log

open Files (Fault joinPath)

/-- An action on a session. -/
abbrev Action := StateM Session

/-! ### Setting up -/

/-- Why a log cannot be set up. -/
inductive SetupError where
  | noHome
  | cannotCreate (fault : Fault)
  | cannotTruncate (path : String) (fault : Fault)
  deriving DecidableEq, Repr

/-- The text of a setup error. -/
def SetupError.message : SetupError → String
  | .noHome => "Could not determine home directory"
  | .cannotCreate fault => "Failed to create log directory: " ++ fault.message
  | .cannotTruncate path fault => "Failed to truncate " ++ path ++ ": " ++ fault.message

/-- The file of a log in a directory. -/
def fileIn (directory : String) : String := joinPath directory "pkgmeta.log"

/-- The files in which a log in a directory can start anew. -/
def clear (files : Files.FileTree) (directory : String) : Except SetupError Files.FileTree := do
  let files ← (files.makeDirectories directory).mapError .cannotCreate
  if files.pathExists (fileIn directory) then
    (files.removeFile (fileIn directory)).mapError (.cannotTruncate (fileIn directory))
  else .ok files

/-- Starts a log in a directory. The logger is left as it is when that fails, and so is a log that
is already there; what was made of the directory on the way remains. -/
def openIn (directory : String) (verbosity : Nat) (quiet : Bool) :
    ExceptT SetupError Action Unit := do
  let s ← get
  match clear s.files directory with
  | .ok files =>
    set { s with files := files, logger := ⟨verbosity, quiet, some (fileIn directory)⟩ }
  | .error e =>
    set (s.withFiles (s.files.attemptDirectories directory))
    throw e

/-- The directory that logs go to. -/
def directory? (s : Session) : Option String :=
  match s.valueOf? "PKGMETA_LOG_DIR" with
  | some directory => some directory
  | none => s.ownDirectory?

/-- Starts a log in the directory that logs go to. -/
def openDefault (verbosity : Nat) (quiet : Bool) : ExceptT SetupError Action Unit := do
  match directory? (← get) with
  | some directory => openIn directory verbosity quiet
  | none => throw .noHome

/-! ### The log -/

/-- The kinds of lines in a log. -/
inductive Level where
  | info | debug | step | warn | error | success | command | stdout | stderr
  deriving DecidableEq, Repr

/-- The word for a kind of line. -/
def Level.label : Level → String
  | .info => "INFO"
  | .debug => "DEBUG"
  | .step => "STEP"
  | .warn => "WARN"
  | .error => "ERROR"
  | .success => "SUCCESS"
  | .command => "COMMAND"
  | .stdout => "STDOUT"
  | .stderr => "STDERR"

/-- A line of the log. -/
def lineOf (clock : String) (level : Level) (message : String) : String :=
  "[" ++ clock ++ "] " ++ level.label ++ " " ++ message ++ "\n"

/-- Adds a line to the log of the run. A log that cannot be written is passed over. -/
def record (level : Level) (message : String) : Action Unit := modify fun s =>
  match s.logger.file with
  | none => s
  | some path =>
    match s.files.extend path (Text.encodeUtf8 (lineOf s.clock level message).toList) with
    | .ok files => s.withFiles files
    | .error _ => s

/-! ### The error stream -/

/-- The styles of printed text. -/
inductive Style where
  | dim | cyan | yellow | boldRed | boldGreen | boldYellow | boldBlue
  deriving DecidableEq, Repr

/-- The codes that switch a style on. -/
def Style.codes : Style → String
  | .dim => "2"
  | .cyan => "36"
  | .yellow => "33"
  | .boldRed => "1;31"
  | .boldGreen => "1;32"
  | .boldYellow => "1;33"
  | .boldBlue => "1;34"

/-- A text in a style, where styles are shown. -/
def styled (colored : Bool) (style : Style) (text : String) : String :=
  if colored then "\x1b[" ++ style.codes ++ "m" ++ text ++ "\x1b[0m" else text

/-- Prints a message. -/
def print (message : String) : Action Unit :=
  modify fun s => { s with console := s.console ++ [message] }

/-- Prints a message behind a styled mark. -/
def printMarked (style : Style) (mark message : String) : Action Unit := do
  print (styled (← get).colored style mark ++ " " ++ message)

/-! ### Messages by kind -/

/-- A message that is shown from the first level of verbosity on. -/
def info (message : String) : Action Unit := do
  record .info message
  let logger := (← get).logger
  if 1 ≤ logger.verbosity && !logger.quiet then print message

/-- A detail that is shown from the first level of verbosity on. -/
def debug (message : String) : Action Unit := do
  record .debug message
  if 1 ≤ (← get).logger.verbosity then printMarked .boldBlue "DEBUG:" message

/-- A detail that is shown from the second level of verbosity on. -/
def step (message : String) : Action Unit := do
  record .step message
  if 2 ≤ (← get).logger.verbosity then printMarked .dim "TRACE:" message

/-- A warning, which is always shown. -/
def warn (message : String) : Action Unit := do
  record .warn message
  printMarked .boldYellow "warning:" message

/-- An error, which is always shown. -/
def error (message : String) : Action Unit := do
  record .error message
  printMarked .boldRed "error:" message

/-- A success, which is shown unless the program is to be quiet. -/
def success (message : String) : Action Unit := do
  record .success message
  if !(← get).logger.quiet then printMarked .boldGreen "\u2714" message

/-- An exit code as it stands in a log. -/
def codeText : Option Int → String
  | some n => "Some(" ++ toString n ++ ")"
  | none => "None"

/-- What a process printed on one stream, unless it is blank. -/
def recordStream (level : Level) (bytes : List UInt8) : Action Unit :=
  let text := Text.decodeUtf8Lossy bytes
  if Text.isBlankText text then pure ()
  else record level (String.ofList ('\n' :: Text.trimEnd text))

/-- A finished process and what it printed. -/
def captured (command : String) (output : Child.Output) : Action Unit := do
  record .command (command ++ " (exit code: " ++ codeText output.status.code? ++ ")")
  recordStream .stdout output.stdout
  recordStream .stderr output.stderr

/-- The start of a long task. At verbosity 0 and unless the program is to be quiet, a spinner is
shown from here on where the error stream is a terminal. The error stream of a session is none, so
that the guard is left out with what it guards. -/
def began (message : String) : Action Unit := record .step message

/-- The success of a long task. -/
def finished (message : String) : Action Unit := success message

/-- The failure of a long task, which is always shown. -/
def failed (message : String) : Action Unit := do
  record .error message
  print ("  " ++ styled (← get).colored .boldRed "\u2717" ++ " " ++ message)

/-- The end of the spinner of a long task, which is on terminals only. -/
def stopped : Action Unit := pure ()

end Descriptor.Log
