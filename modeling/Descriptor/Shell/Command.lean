import Descriptor.Shell.Word

/-!
# Commands of shell scripts

The commands that tokens make up: simple ones, lists joined by success and failure, conditions,
choices and loops, with redirections of what they print.

This belongs to the launcher of `Descriptor.Shell.Run`. Theorems are about launchers of any kind,
and none rests on this one.

## Main definitions

* `Redirect`, `Command` : redirections and commands.
* `readScript?` : the commands of a script.
-/

namespace Descriptor.Shell

/-- Where a stream goes. -/
inductive Target where
  /-- To a file, in place of what it held or behind it. -/
  | file (path : Word) (behind : Bool)
  /-- Where the stream of a number goes. -/
  | stream (number : Nat)
  deriving DecidableEq, Repr

/-- A stream, by its number, and where it goes. -/
structure Redirect where
  stream : Nat
  target : Target
  deriving DecidableEq, Repr

/-- A command. -/
inductive Command where
  | simple (words : List Word) (redirects : List Redirect)
  | group (body : List Command) (redirects : List Redirect)
  /-- The second command runs when the first one succeeds. -/
  | both (first second : Command)
  /-- The second command runs when the first one fails. -/
  | either (first second : Command)
  | negated (command : Command)
  | condition (test body otherwise : List Command)
  | loop (test body : List Command)
  /-- A loop over words, or over the arguments. -/
  | each (name : List Char) (words : Option (List Word)) (body : List Command)
  /-- The body of the first alternative with a matching pattern. -/
  | choice (subject : Word) (alternatives : List (List Word × List Command))

instance : Inhabited Command := ⟨.simple [] []⟩

/-- The plain text of the word that comes first. -/
def plain? : List Token → Option (List Char)
  | .word w :: _ => w.plain
  | _ => none

/-- Whether a word in the place of a command belongs to the command around it. -/
def isClosing (text : List Char) : Bool :=
  [['\x7d'], "then".toList, "else".toList, "elif".toList, "fi".toList, "do".toList, "done".toList,
    "esac".toList].contains text

/-- The tokens behind a given plain word. -/
def expect? (text : String) : List Token → Option (List Token)
  | .word w :: rest => if w.plain = some text.toList then some rest else none
  | _ => none

/-- Tokens without the line ends they start with. -/
def skipLines : List Token → List Token
  | .endOfLine :: rest => skipLines rest
  | ts => ts

/-- Tokens without the line ends and the single semicolon they start with. -/
def skipSeparators : List Token → List Token
  | .endOfLine :: rest => skipSeparators rest
  | .operator [';'] :: rest => skipSeparators rest
  | ts => ts

/-- A redirection of a stream behind its number. -/
def readTarget? (stream : Option Nat) : List Token → Option (Redirect × List Token)
  | .operator ['>', '>'] :: .word w :: rest => some (⟨stream.getD 1, .file w true⟩, rest)
  | .operator ['>', '&'] :: .word w :: rest => do
    let text ← w.plain
    match text with
    | [c] => if c.isDigit then some (⟨stream.getD 1, .stream (c.toNat - 48)⟩, rest) else none
    | _ => none
  | .operator ['>'] :: .word w :: rest => some (⟨stream.getD 1, .file w false⟩, rest)
  | .operator ['>', '|'] :: .word w :: rest => some (⟨stream.getD 1, .file w false⟩, rest)
  | _ => none

/-- A redirection. -/
def readRedirect? : List Token → Option (Redirect × List Token)
  | .operator [c] :: rest =>
    if c.isDigit then readTarget? (some (c.toNat - 48)) rest
    else readTarget? none (.operator [c] :: rest)
  | ts => readTarget? none ts

/-- The words and redirections of a simple command. -/
def readSimple (fuel : Nat) (ts : List Token) : (List Word × List Redirect) × List Token :=
  match fuel with
  | 0 => (([], []), ts)
  | fuel + 1 =>
    match ts with
    | .word w :: rest =>
      let ((ws, rs), rest) := readSimple fuel rest
      ((w :: ws, rs), rest)
    | ts =>
      match readRedirect? ts with
      | some (r, rest) =>
        let ((ws, rs), rest) := readSimple fuel rest
        ((ws, r :: rs), rest)
      | none => (([], []), ts)

/-- The words up to the end of a line or a semicolon. -/
def readWords : List Token → List Word × List Token
  | .word w :: rest =>
    let (ws, rest) := readWords rest
    (w :: ws, rest)
  | ts => ([], ts)

/-- The patterns of an alternative, up to the closing parenthesis. -/
def readPatterns? : List Token → Option (List Word × List Token)
  | .word w :: .operator [')'] :: rest => some ([w], rest)
  | .word w :: .operator ['|'] :: rest =>
    (readPatterns? rest).map fun (ws, rest) => (w :: ws, rest)
  | _ => none

mutual

/-- Commands up to a word that closes them or the end of the script. -/
def readCommands? (fuel : Nat) (ts : List Token) : Option (List Command × List Token) :=
  match fuel with
  | 0 => none
  | fuel + 1 =>
    let ts := skipSeparators ts
    match ts with
    | [] => some ([], [])
    | .operator [';', ';'] :: _ => some ([], ts)
    | .operator [')'] :: _ => some ([], ts)
    | _ =>
      if (plain? ts).any isClosing then some ([], ts)
      else do
        let (c, rest) ← readChain? fuel ts
        (readCommands? fuel rest).map fun (cs, rest) => (c :: cs, rest)

/-- Commands that are joined by success and failure. -/
def readChain? (fuel : Nat) (ts : List Token) : Option (Command × List Token) :=
  match fuel with
  | 0 => none
  | fuel + 1 => do
    let (c, rest) ← readOne? fuel ts
    readLinks? fuel c rest

/-- What is joined to a command. -/
def readLinks? (fuel : Nat) (first : Command) (ts : List Token) : Option (Command × List Token) :=
  match fuel with
  | 0 => none
  | fuel + 1 =>
    match ts with
    | .operator ['&', '&'] :: rest => do
      let (c, rest) ← readOne? fuel (skipLines rest)
      readLinks? fuel (.both first c) rest
    | .operator ['|', '|'] :: rest => do
      let (c, rest) ← readOne? fuel (skipLines rest)
      readLinks? fuel (.either first c) rest
    | .operator ['|'] :: _ => none
    | .operator ['&'] :: _ => none
    | _ => some (first, ts)

/-- One command. -/
def readOne? (fuel : Nat) (ts : List Token) : Option (Command × List Token) :=
  match fuel with
  | 0 => none
  | fuel + 1 =>
    match (plain? ts).map String.ofList with
    | some "!" => (readOne? fuel (ts.drop 1)).map fun (c, rest) => (.negated c, rest)
    | some "\x7b" => do
      let (body, rest) ← readCommands? fuel (ts.drop 1)
      let rest ← expect? "\x7d" rest
      let ((_, rs), rest) := readSimple rest.length rest
      some (.group body rs, rest)
    | some "if" => readCondition? fuel (ts.drop 1)
    | some "while" => do
      let (test, rest) ← readCommands? fuel (ts.drop 1)
      let (body, rest) ← readCommands? fuel (← expect? "do" rest)
      some (.loop test body, ← expect? "done" rest)
    | some "for" => do
      let name ← plain? (ts.drop 1)
      let (words, rest) := match expect? "in" (ts.drop 2) with
        | some rest =>
          let (ws, rest) := readWords rest
          (some ws, rest)
        | none => (none, ts.drop 2)
      let (body, rest) ← readCommands? fuel (← expect? "do" (skipSeparators rest))
      some (.each name words body, ← expect? "done" rest)
    | some "case" => do
      let (subject, rest) ← match ts.drop 1 with
        | .word w :: rest => some (w, rest)
        | _ => none
      let (alternatives, rest) ← readAlternatives? fuel (← expect? "in" (skipLines rest))
      some (.choice subject alternatives, rest)
    | _ =>
      let ((ws, rs), rest) := readSimple ts.length ts
      if ws.isEmpty && rs.isEmpty then none else some (.simple ws rs, rest)

/-- A condition behind the word that opens it or a further test. -/
def readCondition? (fuel : Nat) (ts : List Token) : Option (Command × List Token) :=
  match fuel with
  | 0 => none
  | fuel + 1 => do
    let (test, rest) ← readCommands? fuel ts
    let (body, rest) ← readCommands? fuel (← expect? "then" rest)
    match (plain? rest).map String.ofList with
    | some "elif" =>
      (readCondition? fuel (rest.drop 1)).map fun (c, rest) => (.condition test body [c], rest)
    | some "else" => do
      let (otherwise, rest) ← readCommands? fuel (rest.drop 1)
      some (.condition test body otherwise, ← expect? "fi" rest)
    | some "fi" => some (.condition test body [], rest.drop 1)
    | _ => none

/-- The alternatives of a choice, up to the word that closes it. -/
def readAlternatives? (fuel : Nat) (ts : List Token) :
    Option (List (List Word × List Command) × List Token) :=
  match fuel with
  | 0 => none
  | fuel + 1 =>
    let ts := skipLines ts
    match expect? "esac" ts with
    | some rest => some ([], rest)
    | none => do
      let ts := match ts with
        | .operator ['('] :: rest => rest
        | ts => ts
      let (patterns, rest) ← readPatterns? ts
      let (body, rest) ← readCommands? fuel rest
      match rest with
      | .operator [';', ';'] :: rest =>
        (readAlternatives? fuel rest).map fun (as, rest) => ((patterns, body) :: as, rest)
      | rest => some ([(patterns, body)], ← expect? "esac" rest)

end

/-- The commands of a script. -/
def readScript? (script : List Char) : Option (List Command) := do
  let ts ← tokenize? script
  let (cs, rest) ← readCommands? (4 * ts.length + 4) ts
  if rest.isEmpty then some cs else none

end Descriptor.Shell
