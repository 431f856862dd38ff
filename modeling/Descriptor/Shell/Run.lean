import Descriptor.Shell.Machine

/-!
# Running shell scripts

The effect of the commands of a script, and the launcher that runs scripts as child processes.

The launcher stands for the system where the program is run on files that are kept in a tree. What
is proved of builds is proved of launchers of any kind, and nothing rests on this one.

## Main definitions

* `runAll` : the effect of commands, of which a bounded number is run.
* `launch` : child processes that are scripts.
-/

namespace Descriptor.Shell

open Files (FileTree Fault)

/-! ### Redirections -/

/-- Where what a command prints ends up. -/
inductive Sink where
  | stdout
  | stderr
  | file (path : String)
  deriving DecidableEq, Repr

/-- The sinks of the two streams, once a redirection is made, and the files it leaves. -/
def redirect (m : Machine) (out err : Sink) (r : Redirect) :
    Except Fault (Sink × Sink × FileTree) := do
  let (sink, files) ← match r.target with
    | .stream n => .ok (if n = 2 then err else out, m.files)
    | .file w behind => do
      let path := expandOne m w.parts
      let files ← if behind then m.files.extend path [] else m.files.write path []
      .ok (Sink.file path, files)
  if r.stream = 2 then .ok (out, sink, files) else .ok (sink, err, files)

/-- The sinks of the two streams, once all redirections are made. -/
def redirectAll (m : Machine) (out err : Sink) :
    List Redirect → Except Fault (Sink × Sink × FileTree)
  | [] => .ok (out, err, m.files)
  | r :: rest => do
    let (out, err, files) ← redirect m out err r
    redirectAll { m with files := files } out err rest

/-- The state in which bytes have reached a sink. -/
def deliver (m : Machine) (bytes : List UInt8) : Sink → Machine
  | .stdout => { m with stdout := m.stdout ++ bytes }
  | .stderr => { m with stderr := m.stderr ++ bytes }
  | .file path => { m with files := (m.files.extend path bytes).toOption.getD m.files }

/-- The effect of a command under redirections. -/
def withRedirects (m : Machine) (rs : List Redirect) (body : Machine → Flow × Machine) :
    Flow × Machine :=
  match redirectAll m .stdout .stderr rs with
  | .error fault => (.next, m.failed 2 ("cannot create file: " ++ fault.message))
  | .ok (out, err, files) =>
    let (flow, after) := body { m with files := files, stdout := [], stderr := [] }
    let restored := { after with stdout := m.stdout, stderr := m.stderr }
    (flow, deliver (deliver restored after.stdout out) after.stderr err)

/-! ### Commands -/

/-- Splits off the assignments that stand before a command. -/
def splitAssignments : List Word → List (String × List Part) × List Word
  | [] => ([], [])
  | w :: rest =>
    match assignment? [] w.parts with
    | some a =>
      let (as, ws) := splitAssignments rest
      (a :: as, ws)
    | none => ([], w :: rest)

/-- The state behind assignments. -/
def assignAll (m : Machine) (as : List (String × List Part)) : Machine :=
  as.foldl (fun m a => m.assign a.1 (expandOne m a.2)) m

/-- The path of the program with a given name: the name itself when it is a path, or else the first
match on the search path. -/
def findProgram (files : FileTree) (searchPath name : String) : Except Fault String :=
  if name.contains '/' then .ok name
  else
    match ((Files.splitAt ':' searchPath).map (Files.joinPath · name)).find? files.isFile with
    | some path => .ok path
    | none => .error .notFound

/-- The commands of a program, or why it cannot be run. -/
def loadProgram (files : FileTree) (path : String) : Except Fault (List Command) := do
  match ← files.find path with
  | (_, .file bytes true) =>
    let text := Text.decodeUtf8Lossy bytes
    if ['#', '!'].isPrefixOf text then .ok ((readScript? text).getD []) else .error .notExecutable
  | _ => .error .permissionDenied

mutual

/-- The effect of commands, one after the other. -/
def runAll (fuel : Nat) (m : Machine) (cs : List Command) : Flow × Machine :=
  match fuel with
  | 0 => (.stop (.signal 9), m)
  | fuel + 1 =>
    match cs with
    | [] => (.next, m)
    | c :: rest =>
      match runOne fuel m c with
      | (.next, m) => runAll fuel m rest
      | stopped => stopped

/-- The effect of one command. -/
def runOne (fuel : Nat) (m : Machine) (c : Command) : Flow × Machine :=
  match fuel with
  | 0 => (.stop (.signal 9), m)
  | fuel + 1 =>
    match c with
    | .simple words rs =>
      let (as, words) := splitAssignments words
      withRedirects m rs fun m =>
        let m := assignAll m as
        match words.flatMap (expand m) with
        | [] => (.next, m.ended 0)
        | name :: args => runNamed fuel m name args
    | .group body rs => withRedirects m rs fun m => runAll fuel m body
    | .both first second =>
      match runOne fuel m first with
      | (.next, m) => if m.last = 0 then runOne fuel m second else (.next, m)
      | stopped => stopped
    | .either first second =>
      match runOne fuel m first with
      | (.next, m) => if m.last = 0 then (.next, m) else runOne fuel m second
      | stopped => stopped
    | .negated command =>
      match runOne fuel m command with
      | (.next, m) => (.next, m.ended (if m.last = 0 then 1 else 0))
      | stopped => stopped
    | .condition test body otherwise =>
      match runAll fuel m test with
      | (.next, m) => runAll fuel (m.ended 0) (if m.last = 0 then body else otherwise)
      | stopped => stopped
    | .loop test body =>
      match runAll fuel m test with
      | (.next, m) =>
        if m.last = 0 then
          match runAll fuel m body with
          | (.next, m) => runOne fuel m (.loop test body)
          | stopped => stopped
        else (.next, m.ended 0)
      | stopped => stopped
    | .each name words body =>
      let values := match words with
        | some ws => ws.flatMap (expand m)
        | none => m.args
      runEach fuel (m.ended 0) (String.ofList name) values body
    | .choice subject alternatives =>
      let text := (expandOne m subject.parts).toList
      let chosen := alternatives.find? fun a =>
        a.1.any fun w => isMatch (expandOne m w.parts).toList text
      runAll fuel (m.ended 0) ((chosen.map (·.2)).getD [])

/-- The effect of commands for each of some values of a variable. -/
def runEach (fuel : Nat) (m : Machine) (name : String) (values : List String)
    (body : List Command) : Flow × Machine :=
  match fuel with
  | 0 => (.stop (.signal 9), m)
  | fuel + 1 =>
    match values with
    | [] => (.next, m)
    | value :: rest =>
      match runAll fuel (m.assign name value) body with
      | (.next, m) => runEach fuel m name rest body
      | stopped => stopped

/-- The effect of a command by its name: one that the shell knows, one of the system, or another
script. -/
def runNamed (fuel : Nat) (m : Machine) (name : String) (args : List String) : Flow × Machine :=
  match fuel with
  | 0 => (.stop (.signal 9), m)
  | fuel + 1 =>
    match builtin? m name args with
    | some result => result
    | none =>
      match if findsSystem m then system? m name args else none with
      | some m => (.next, m)
      | none =>
        let found : Except Fault (String × List Command) := do
          let path ← findProgram m.files (m.value "PATH".toList) name
          .ok (path, ← loadProgram m.files path)
        match found with
        | .error .notFound => (.next, m.failed 127 (name ++ ": not found"))
        | .error fault => (.next, m.failed 126 (name ++ ": " ++ fault.message))
        | .ok (path, cs) =>
          let (flow, after) := runAll fuel { m with name := path, args := args, last := 0 } cs
          let code := match flow with
            | .next => after.last
            | .stop (.code n) => n
            | .stop (.signal n) => 128 + n
          (.next, { m with
            files := { after.files with workingDirectory := m.files.workingDirectory }
            stdout := after.stdout
            stderr := after.stderr
            last := code })

end

/-- The number of commands that a script may run. -/
def stepLimit : Nat := 100000

/-- The output of a script, and the files it leaves. -/
def runScript (m : Machine) (cs : List Command) : Child.Output × FileTree :=
  let (flow, after) := runAll stepLimit m cs
  let status := match flow with
    | .next => .code after.last
    | .stop status => status
  (⟨status, after.stdout, after.stderr⟩, after.files)

/-- The files with the directory that a command works in. -/
def enter (files : FileTree) (directory : Option String) : Except Fault FileTree :=
  match directory with
  | none => .ok files
  | some path => do
    match ← files.find path with
    | (l, .directory) => .ok { files with workingDirectory := l }
    | _ => .error .notADirectory

/-- Child processes that are scripts, in an environment. -/
def launch (environment : List (String × String)) : Child.Launcher := fun command files =>
  let started : Except Fault (Child.Output × FileTree) := do
    if (command.program :: command.args).any (·.contains '\x00') then .error .embeddedNul
    let inside ← enter files command.directory
    let searchPath := ((environment.find? (·.1 = "PATH")).map (·.2)).getD ""
    let path ← findProgram inside searchPath command.program
    let cs ← loadProgram inside path
    .ok (runScript ⟨inside, environment, path, command.args, [], [], 0⟩ cs)
  match started with
  | .ok (output, after) =>
    (.ok output, { after with workingDirectory := files.workingDirectory })
  | .error fault => (.error fault, files)

end Descriptor.Shell
