/-!
# Words of shell scripts

The tools that a build calls are scripts of a small command language. Its text is first taken apart
into words and operators; a word consists of parts, some of which stand for a value.

This belongs to the launcher of `Descriptor.Shell.Run`. Theorems are about launchers of any kind,
and none rests on this one.

## Main definitions

* `Part`, `Edit` : the parts of a word, and what is done to a value that is put in.
* `Token` : a word, an operator or the end of a line.
* `tokenize?` : the tokens of a script.
-/

namespace Descriptor.Shell

/-- What is done to a value before it is put in. -/
inductive Edit where
  | keep
  /-- Cuts off the start that matches a pattern, the longest one or the shortest one. -/
  | cutStart (longest : Bool) (pattern : List Char)
  /-- Cuts off the end that matches a pattern, the longest one or the shortest one. -/
  | cutEnd (longest : Bool) (pattern : List Char)
  /-- Puts a text in place of a value that is absent or empty. -/
  | orElse (text : List Char)
  deriving DecidableEq, Repr

/-- A part of a word. -/
inductive Part where
  | literal (text : List Char)
  /-- The value of a variable. Outside quotation marks it is split at blanks. -/
  | value (name : List Char) (edit : Edit) (quoted : Bool)
  /-- All arguments, each a word of its own. -/
  | arguments
  deriving DecidableEq, Repr

/-- A word: its parts, and its text when it is written without quotation marks and values. -/
structure Word where
  parts : List Part
  plain : Option (List Char)
  deriving DecidableEq, Repr

/-- A token of a script. -/
inductive Token where
  | word (w : Word)
  | operator (text : List Char)
  | endOfLine
  deriving DecidableEq, Repr

/-- Whether a character ends a word outside quotation marks. -/
def endsWord (c : Char) : Bool :=
  c = ' ' || c = '\t' || c = '\n' || c = ';' || c = '&' || c = '|' || c = '<' || c = '>' ||
    c = '(' || c = ')'

/-- Whether a character may stand in the name of a variable. -/
def isNameChar (c : Char) : Bool := c.isAlphanum || c = '_'

/-- Whether a character names a value all by itself. -/
def isSpecialName (c : Char) : Bool :=
  c.isDigit || c = '#' || c = '?' || c = '$' || c = '*' || c = '!'

/-- What stands between the name and the closing brace of a value. -/
def editOf? : List Char → Option Edit
  | [] => some .keep
  | '#' :: '#' :: pattern => some (.cutStart true pattern)
  | '#' :: pattern => some (.cutStart false pattern)
  | '%' :: '%' :: pattern => some (.cutEnd true pattern)
  | '%' :: pattern => some (.cutEnd false pattern)
  | ':' :: '-' :: text => some (.orElse text)
  | '-' :: text => some (.orElse text)
  | _ => none

/-- The name at the start of a value. -/
def nameOf : List Char → List Char
  | c :: rest =>
    if c.isDigit || !isNameChar c then [c] else (c :: rest).takeWhile isNameChar
  | [] => []

/-- A value behind its dollar sign, with what is left of the text. -/
def readValue? (quoted : Bool) : List Char → Option (Part × List Char)
  | '@' :: rest => some (.arguments, rest)
  | '\x7b' :: rest => do
    let inner := rest.takeWhile (· ≠ '\x7d')
    let name := nameOf inner
    if name.isEmpty then none
    else
      let edit ← editOf? (inner.drop name.length)
      let part := if name = ['@'] then .arguments else .value name edit quoted
      some (part, (rest.drop inner.length).drop 1)
  | c :: rest =>
    if isSpecialName c then some (.value [c] .keep quoted, rest)
    else if isNameChar c then
      let name := (c :: rest).takeWhile isNameChar
      some (.value name .keep quoted, (c :: rest).drop name.length)
    else some (.literal ['$'], c :: rest)
  | [] => some (.literal ['$'], [])

/-- The parts between double quotation marks, behind the opening one. -/
def readQuoted? (fuel : Nat) (cs : List Char) : Option (List Part × List Char) :=
  match fuel with
  | 0 => none
  | fuel + 1 =>
    match cs with
    | [] => none
    | '"' :: rest => some ([], rest)
    | '\\' :: '\n' :: rest => readQuoted? fuel rest
    | '\\' :: c :: rest =>
      let text := if c = '$' || c = '"' || c = '\\' || c = '\x60' then [c] else ['\\', c]
      (readQuoted? fuel rest).map fun (ps, rest) => (.literal text :: ps, rest)
    | '$' :: rest => do
      let (p, rest) ← readValue? true rest
      (readQuoted? fuel rest).map fun (ps, rest) => (p :: ps, rest)
    | c :: rest => (readQuoted? fuel rest).map fun (ps, rest) => (.literal [c] :: ps, rest)

/-- The parts of a word, and whether all of it is plain text. -/
def readParts? (fuel : Nat) (cs : List Char) : Option (List Part × Bool × List Char) :=
  match fuel with
  | 0 => none
  | fuel + 1 =>
    match cs with
    | [] => some ([], true, [])
    | '\'' :: rest => do
      let text := rest.takeWhile (· ≠ '\'')
      let (ps, _, rest) ← readParts? fuel ((rest.drop text.length).drop 1)
      some (.literal text :: ps, false, rest)
    | '"' :: rest => do
      let (qs, rest) ← readQuoted? fuel rest
      let (ps, _, rest) ← readParts? fuel rest
      some (.literal [] :: qs ++ ps, false, rest)
    | '\\' :: '\n' :: rest => readParts? fuel rest
    | '\\' :: c :: rest => do
      let (ps, _, rest) ← readParts? fuel rest
      some (.literal [c] :: ps, false, rest)
    | '$' :: rest => do
      let (p, rest) ← readValue? false rest
      let (ps, _, rest) ← readParts? fuel rest
      some (p :: ps, false, rest)
    | '\x60' :: _ => none
    | c :: rest =>
      if endsWord c then some ([], true, c :: rest)
      else do
        let (ps, plain, rest) ← readParts? fuel rest
        some (.literal [c] :: ps, plain, rest)

/-- The text of parts that are all literal. -/
def literalText (parts : List Part) : List Char :=
  parts.flatMap fun
    | .literal text => text
    | _ => []

/-- The operator at the start of a text. -/
def operator? : List Char → Option (List Char)
  | '&' :: '&' :: _ => some ['&', '&']
  | '|' :: '|' :: _ => some ['|', '|']
  | ';' :: ';' :: _ => some [';', ';']
  | '>' :: '>' :: _ => some ['>', '>']
  | '>' :: '&' :: _ => some ['>', '&']
  | '>' :: '|' :: _ => some ['>', '|']
  | c :: _ => if endsWord c then some [c] else none
  | [] => none

/-- The tokens of a script. A number right before a redirection is an operator of its own. -/
def tokens? (fuel : Nat) (cs : List Char) : Option (List Token) :=
  match fuel with
  | 0 => none
  | fuel + 1 =>
    match cs with
    | [] => some []
    | ' ' :: rest => tokens? fuel rest
    | '\t' :: rest => tokens? fuel rest
    | '\\' :: '\n' :: rest => tokens? fuel rest
    | '\n' :: rest => (tokens? fuel rest).map (.endOfLine :: ·)
    | '#' :: rest => tokens? fuel (rest.dropWhile (· ≠ '\n'))
    | cs =>
      match operator? cs with
      | some op => (tokens? fuel (cs.drop op.length)).map (.operator op :: ·)
      | none => do
        let (parts, plain, rest) ← readParts? (cs.length + 1) cs
        let text := literalText parts
        let isNumber := plain && text.all Char.isDigit && rest.head? = some '>'
        let token := if isNumber then .operator text
          else .word ⟨parts, if plain then some text else none⟩
        (tokens? fuel rest).map (token :: ·)

/-- The tokens of a script. -/
def tokenize? (script : List Char) : Option (List Token) := tokens? (script.length + 1) script

end Descriptor.Shell
