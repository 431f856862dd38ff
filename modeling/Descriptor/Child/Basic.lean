import Descriptor.Files.Tree

/-!
# Child processes

A program is started with arguments and a directory to work in. It may fail to start; otherwise it
ends with a status, has printed bytes on two streams, and leaves the files as it likes.

## Main definitions

* `Command`, `Command.line` : what is started, and its line for a reader.
* `Status`, `Output` : how a process ended, and what it printed.
* `Launcher` : how processes are run.
-/

namespace Descriptor.Child

/-- How a process ended. -/
inductive Status where
  | code (n : Nat)
  | signal (n : Nat)
  deriving DecidableEq, Repr, Inhabited

namespace Status

/-- Whether a process ended as it should. -/
def isSuccess (s : Status) : Bool := s = .code 0

/-- The exit code of a process that no signal ended. -/
def code? : Status → Option Int
  | code n => some n
  | signal _ => none

end Status

/-- What a finished process leaves to its caller. -/
structure Output where
  status : Status
  stdout : List UInt8
  stderr : List UInt8
  deriving DecidableEq, Repr, Inhabited

/-- A program with its arguments and the directory that it works in, when it is not the caller's
own. -/
structure Command where
  program : String
  args : List String
  directory : Option String
  deriving DecidableEq, Repr

/-- How processes are run: whether a command can be started, what it prints and how it ends, and the
files that it leaves. -/
abbrev Launcher := Command → Files.FileTree → Except Files.Fault Output × Files.FileTree

/-- The text of bytes that a process printed. -/
def printedText (bytes : List UInt8) : String := String.ofList (Text.decodeUtf8Lossy bytes)

end Descriptor.Child
