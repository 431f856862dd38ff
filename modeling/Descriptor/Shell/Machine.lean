import Descriptor.Child.Basic
import Descriptor.Shell.Command
import Descriptor.Text.Blank
import Descriptor.Text.Digits

/-!
# The state of a running script

What a script sees and changes while it runs, what its words stand for in a state, and the tools
that it finds around it.

This belongs to the launcher of `Descriptor.Shell.Run`. Theorems are about launchers of any kind,
and none rests on this one.

## Main definitions

* `Machine` : the state.
* `expand`, `expandOne` : the texts that words stand for.
* `Tool`, `tool?` : what a command does by itself.
-/

namespace Descriptor.Shell

open Files (FileTree)

/-- The state of a running script. -/
structure Machine where
  files : FileTree
  environment : List (String × String)
  name : String
  args : List String
  stdout : List UInt8
  stderr : List UInt8
  /-- The exit code of the last command. -/
  last : Nat
  deriving DecidableEq, Repr

/-- How a script goes on behind a command. -/
inductive Flow where
  | next
  | stop (status : Child.Status)
  deriving DecidableEq, Repr

namespace Machine

/-- The number that a script knows its own process by. -/
def ownNumber : String := "4711"

/-- The value of a name, empty when it has none. -/
def value (m : Machine) (name : List Char) : String :=
  match name with
  | ['#'] => toString m.args.length
  | ['?'] => toString m.last
  | ['$'] => ownNumber
  | ['*'] => " ".intercalate m.args
  | ['0'] => m.name
  | [c] =>
    if c.isDigit then (m.args.drop (c.toNat - 49)).headD ""
    else ((m.environment.find? (·.1 = String.ofList name)).map (·.2)).getD ""
  | _ => ((m.environment.find? (·.1 = String.ofList name)).map (·.2)).getD ""

/-- The state in which a variable has a value. -/
def assign (m : Machine) (name value : String) : Machine :=
  { m with environment := (name, value) :: m.environment.filter (·.1 ≠ name) }

/-- The state behind a command with the given exit code. -/
def ended (m : Machine) (code : Nat) : Machine := { m with last := code }

/-- The state in which more is printed. -/
def printed (m : Machine) (text : List Char) : Machine :=
  { m with stdout := m.stdout ++ Text.encodeUtf8 text }

/-- The state in which a tool has failed with a message. -/
def failed (m : Machine) (code : Nat) (message : String) : Machine :=
  { m with
    stderr := m.stderr ++ Text.encodeUtf8 (m.name ++ ": " ++ message ++ "\n").toList
    last := code }

end Machine

/-! ### Words -/

/-- Whether a text matches a pattern, in which a star stands for any text and a question mark for
any character. -/
def isMatch : List Char → List Char → Bool
  | [], text => text.isEmpty
  | '*' :: pattern, text => isMatch pattern text || starMatch pattern text
  | '?' :: pattern, _ :: text => isMatch pattern text
  | c :: pattern, d :: text => c = d && isMatch pattern text
  | _ :: _, [] => false
where
  /-- Whether a text matches a pattern behind at least one character. -/
  starMatch (pattern : List Char) : List Char → Bool
    | [] => false
    | _ :: text => isMatch pattern text || starMatch pattern text

/-- A text without the start of a matching length. -/
def cutStart (longest : Bool) (pattern text : List Char) : List Char :=
  let lengths := (List.range (text.length + 1)).filter fun n => isMatch pattern (text.take n)
  match if longest then lengths.getLast? else lengths.head? with
  | some n => text.drop n
  | none => text

/-- A text without the end of a matching length. -/
def cutEnd (longest : Bool) (pattern text : List Char) : List Char :=
  let lengths := (List.range (text.length + 1)).filter fun n => isMatch pattern (text.drop n)
  match if longest then lengths.head? else lengths.getLast? with
  | some n => text.take n
  | none => text

/-- A value as it is put in. -/
def Edit.apply (edit : Edit) (text : List Char) : List Char :=
  match edit with
  | .keep => text
  | .cutStart longest pattern => Shell.cutStart longest pattern text
  | .cutEnd longest pattern => Shell.cutEnd longest pattern text
  | .orElse other => if text.isEmpty then other else text

/-- Texts under construction: those that are finished, in reverse, and the one that goes on. -/
structure Fields where
  done : List (List Char)
  current : Option (List Char)

/-- Fields with more text in the one that goes on. -/
def Fields.add (f : Fields) (text : List Char) : Fields :=
  { f with current := some (f.current.getD [] ++ text) }

/-- Fields with texts of which only the first belongs to the one that goes on. -/
def Fields.addAll (f : Fields) : List (List Char) → Fields
  | [] => f
  | text :: rest =>
    let start := f.add text
    rest.foldl (fun f text => ⟨(f.current.toList ++ f.done), some text⟩) start

/-- Fields with a further part of a word. -/
def Fields.addPart (m : Machine) (f : Fields) : Part → Fields
  | .literal text => f.add text
  | .value name edit true => f.add (edit.apply (m.value name).toList)
  | .value name edit false => f.addAll (Text.words (edit.apply (m.value name).toList))
  | .arguments => f.addAll (m.args.map (·.toList))

/-- The texts that a word stands for. -/
def expand (m : Machine) (w : Word) : List String :=
  let f := w.parts.foldl (Fields.addPart m) ⟨[], none⟩
  ((f.current.toList ++ f.done).reverse).map String.ofList

/-- The one text that parts stand for where no splitting takes place. -/
def expandOne (m : Machine) (parts : List Part) : String :=
  String.ofList <| parts.flatMap fun
    | .literal text => text
    | .value name edit _ => edit.apply (m.value name).toList
    | .arguments => (" ".intercalate m.args).toList

/-- The variable that a word assigns to, with the parts of its value. -/
def assignment? (name : List Char) : List Part → Option (String × List Part)
  | .literal ['='] :: rest => if name.isEmpty then none else some (String.ofList name.reverse, rest)
  | .literal [c] :: rest => if isNameChar c then assignment? (c :: name) rest else none
  | _ => none

/-! ### Printing -/

/-- An octal escape of at most three digits, as a byte, with what is left of the text. -/
def octalByte (cs : List Char) : UInt8 × List Char :=
  let taken := Text.takeDigits Text.isOctalDigit 3 cs
  (UInt8.ofNat (Text.digitsValue 8 taken.1), taken.2)

/-- What an escape of one letter prints. -/
def letterEscape? : Char → Option Char
  | 'n' => some '\n'
  | 't' => some '\t'
  | 'r' => some '\r'
  | 'a' => some '\x07'
  | 'b' => some '\x08'
  | 'f' => some '\x0c'
  | 'v' => some '\x0b'
  | '\\' => some '\\'
  | '"' => some '"'
  | _ => none

/-- The bytes that a format prints in one pass, and the arguments that it leaves. -/
def formatOnce (fuel : Nat) (format : List Char) (args : List String) :
    List UInt8 × List String :=
  match fuel with
  | 0 => ([], args)
  | fuel + 1 =>
    match format with
    | [] => ([], args)
    | '%' :: '%' :: rest =>
      let (bytes, args) := formatOnce fuel rest args
      ((UInt8.ofNat 37) :: bytes, args)
    | '%' :: c :: rest =>
      let value := args.headD (if c = 'd' then "0" else "")
      let (bytes, args) := formatOnce fuel rest (args.drop 1)
      (Text.encodeUtf8 value.toList ++ bytes, args)
    | '\\' :: c :: rest =>
      if Text.isOctalDigit c then
        let (byte, rest) := octalByte (c :: rest)
        let (bytes, args) := formatOnce fuel rest args
        (byte :: bytes, args)
      else
        let text := match letterEscape? c with
          | some e => [e]
          | none => ['\\', c]
        let (bytes, args) := formatOnce fuel rest args
        (Text.encodeUtf8 text ++ bytes, args)
    | c :: rest =>
      let (bytes, args) := formatOnce fuel rest args
      (Text.encodeUtf8 [c] ++ bytes, args)

/-- The bytes that a format prints: it is used again while there are arguments left. -/
def formatAll (fuel : Nat) (format : List Char) (args : List String) : List UInt8 :=
  match fuel with
  | 0 => []
  | fuel + 1 =>
    let (bytes, rest) := formatOnce (format.length + 1) format args
    if rest.isEmpty || rest.length = args.length then bytes
    else bytes ++ formatAll fuel format rest

/-- The bytes of a line that is echoed, in which escapes count. -/
def echoBytes (fuel : Nat) (text : List Char) : List UInt8 :=
  match fuel with
  | 0 => []
  | fuel + 1 =>
    match text with
    | [] => []
    | '\\' :: '0' :: rest =>
      let (byte, rest) := octalByte rest
      byte :: echoBytes fuel rest
    | '\\' :: c :: rest =>
      match if c = '"' then none else letterEscape? c with
      | some e => Text.encodeUtf8 [e] ++ echoBytes fuel rest
      | none => Text.encodeUtf8 ['\\', c] ++ echoBytes fuel rest
    | c :: rest => Text.encodeUtf8 [c] ++ echoBytes fuel rest

/-! ### Tools -/

/-- The truth of a test. -/
def isTrue (m : Machine) : List String → Bool
  | "!" :: rest => !isTrue m rest
  | ["-n", s] => s ≠ ""
  | ["-z", s] => s = ""
  | ["-e", path] => m.files.pathExists path
  | ["-f", path] => m.files.isFile path
  | ["-d", path] => m.files.isDirectory path
  | ["-x", path] => m.files.isExecutable path || m.files.isDirectory path
  | [a, "=", b] => a = b
  | [a, "!=", b] => a ≠ b
  | [a, "-eq", b] => a.toInt? = b.toInt?
  | [a, "-ne", b] => a.toInt? ≠ b.toInt?
  | [a, "-gt", b] => a.toInt?.getD 0 > b.toInt?.getD 0
  | [a, "-lt", b] => a.toInt?.getD 0 < b.toInt?.getD 0
  | [s] => s ≠ ""
  | _ => false

/-- Arguments without options. -/
def operands (args : List String) : List String := args.filter fun a => !a.startsWith "-"

/-- Changes the files for each of some paths, and fails at the first fault. -/
def eachPath (m : Machine) (tool : String) (paths : List String)
    (change : FileTree → String → Except Files.Fault FileTree) : Machine :=
  paths.foldl (fun m path =>
    match change m.files path with
    | .ok files => { m with files := files }
    | .error fault => m.failed 1 (tool ++ ": " ++ path ++ ": " ++ fault.message)) (m.ended 0)

/-- The number of a signal, by its number or name. -/
def signalNumber (text : String) : Nat :=
  match text with
  | "HUP" => 1
  | "INT" => 2
  | "QUIT" => 3
  | "ABRT" => 6
  | "KILL" => 9
  | "SEGV" => 11
  | "TERM" => 15
  | other => other.toNat?.getD 15

/-- The effect of sending a signal: it ends the script that sends it to itself. -/
def sendSignal (m : Machine) (args : List String) : Flow × Machine :=
  let (signal, targets) := match args with
    | "-s" :: name :: rest => (signalNumber name, rest)
    | first :: rest =>
      if first.startsWith "-" then (signalNumber (String.ofList (first.toList.drop 1)), rest)
      else (15, args)
    | [] => (15, [])
  if signal ≠ 0 && targets.contains Machine.ownNumber then (.stop (.signal signal), m)
  else (.next, m.ended 0)

/-- Ends a script with the code in its argument, or that of the last command. -/
def exitWith (m : Machine) (args : List String) : Flow × Machine :=
  let code := match args with
    | code :: _ => code.toNat?.getD 2
    | [] => m.last
  (.stop (.code (code % 256)), m)

/-- Moves a script to another directory. -/
def changeDirectory (m : Machine) (path : String) : Machine :=
  match m.files.find path with
  | .ok (l, .directory) => { m with files := { m.files with workingDirectory := l }, last := 0 }
  | _ => m.failed 2 ("cd: can't cd to " ++ path)

/-- The text of the directory that a script works in. -/
def workingPath (m : Machine) : String := "/" ++ "/".intercalate m.files.workingDirectory

/-- What a command does that the shell itself knows. -/
def builtin? (m : Machine) (name : String) (args : List String) : Option (Flow × Machine) :=
  let truth (b : Bool) := some (Flow.next, m.ended (if b then 0 else 1))
  match name with
  | ":" => truth true
  | "true" => truth true
  | "false" => truth false
  | "exit" => some (exitWith m args)
  | "kill" => some (sendSignal m args)
  | "[" => truth (isTrue m args.dropLast)
  | "test" => truth (isTrue m args)
  | "pwd" => some (.next, (m.printed (workingPath m ++ "\n").toList).ended 0)
  | "cd" => some (.next, changeDirectory m (args.headD (m.value "HOME".toList)))
  | "shift" => some (.next, { m with args := m.args.drop 1, last := 0 })
  | "set" => truth true
  | "export" => some (.next, (args.foldl (fun m a =>
      match a.splitOn "=" with
      | name :: value :: more => m.assign name ("=".intercalate (value :: more))
      | _ => m) m).ended 0)
  | "printf" => match args with
    | format :: rest =>
      let bytes := formatAll (rest.length + 1) format.toList rest
      some (.next, { m with stdout := m.stdout ++ bytes, last := 0 })
    | [] => some (.next, m.ended 2)
  | "echo" =>
    let (text, newLine) := match args with
      | "-n" :: rest => (" ".intercalate rest, [])
      | args => (" ".intercalate args, Text.encodeUtf8 ['\n'])
    let bytes := echoBytes (text.length + 1) text.toList ++ newLine
    some (.next, { m with stdout := m.stdout ++ bytes, last := 0 })
  | _ => none

/-- Whether the tools of the system are on the search path. -/
def findsSystem (m : Machine) : Bool :=
  (Files.splitAt ':' (m.value "PATH".toList)).any fun d => d = "/bin" || d = "/usr/bin"

/-- What a command does that the system brings along. -/
def system? (m : Machine) (name : String) (args : List String) : Option Machine :=
  let paths := operands args
  match name with
  | "mkdir" =>
    if args.contains "-p" then some (eachPath m name paths (·.makeDirectories ·))
    else some (eachPath m name paths (·.makeDirectory ·))
  | "touch" => some (eachPath m name paths (·.extend · []))
  | "chmod" => some (eachPath m name (args.drop 1) (·.allowExecution ·))
  | "rm" =>
    if args.any fun a => a.startsWith "-" && a.contains 'r' then
      some (eachPath m name paths fun t path => .ok (t.removeAll path))
    else if args.contains "-f" then
      some (eachPath m name paths fun t path => .ok ((t.removeFile path).toOption.getD t))
    else some (eachPath m name paths (·.removeFile ·))
  | "ln" => match paths with
    | [target, path] => some (eachPath m name [path] (·.makeLink · target))
    | _ => some (m.ended 1)
  | "cat" => some (paths.foldl (fun m path =>
      match m.files.read path with
      | .ok bytes => { m with stdout := m.stdout ++ bytes }
      | .error fault => m.failed 1 (name ++ ": " ++ path ++ ": " ++ fault.message)) (m.ended 0))
  | "cp" => match paths with
    | [source, path] =>
      some (eachPath m name [source] fun t source => do t.write path (← t.read source))
    | _ => some (m.ended 1)
  | "sleep" => some (m.ended 0)
  | _ => none

end Descriptor.Shell
