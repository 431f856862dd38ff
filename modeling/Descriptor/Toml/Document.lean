import Descriptor.Toml.Quoted
import Descriptor.Toml.Scalar
import Descriptor.Toml.Table

/-!
# Reading configuration files

The grammar of a whole file: keys, values, headers and lines. Every function takes the text that is
left and gives what it read with the text behind it, or nothing where the grammar is broken or a
line contradicts an earlier one.

## Main definitions

* `readKeys?` : a key, which may be dotted.
* `readValue?` : a value.
* `readDocument?` : the root table of a file.
-/

namespace Descriptor.Toml

/-! ### Blanks, comments and line ends -/

/-- Whether a character is blank within a line. -/
def isSpace (c : Char) : Bool := c = ' ' || c = '\t'

/-- A text without the blanks it starts with. -/
def skipSpace (cs : List Char) : List Char := cs.dropWhile isSpace

/-- The text behind a line end. -/
def lineEnd? : List Char → Option (List Char)
  | '\n' :: rest => some rest
  | '\r' :: '\n' :: rest => some rest
  | _ => none

/-- What is left behind a comment: nothing, or a line end and more. -/
def skipComment? : List Char → Option (List Char)
  | [] => some []
  | '\n' :: rest => some ('\n' :: rest)
  | '\r' :: '\n' :: rest => some ('\n' :: rest)
  | c :: rest => if isControl c then none else skipComment? rest

/-- What is left behind blanks and a comment, if there is one. -/
def skipToEnd? (cs : List Char) : Option (List Char) :=
  match skipSpace cs with
  | '#' :: rest => skipComment? rest
  | rest => some rest

/-- The text behind the end of a line, which may be the end of the file. -/
def endOfLine? (cs : List Char) : Option (List Char) := do
  match ← skipToEnd? cs with
  | [] => some []
  | rest => lineEnd? rest

/-- What is left behind blanks, comments and line ends, of which there are at most `fuel`. -/
def skipLines? (fuel : Nat) (cs : List Char) : Option (List Char) :=
  match fuel with
  | 0 => none
  | fuel + 1 => do
    let rest ← skipToEnd? cs
    match lineEnd? rest with
    | some rest => skipLines? fuel rest
    | none => some rest

/-- What is left behind blanks, comments and line ends. -/
def skipTrivia? (cs : List Char) : Option (List Char) := skipLines? (cs.length + 1) cs

/-! ### Keys -/

/-- A key without dots. -/
def readKey? : List Char → Option (String × List Char)
  | [] => none
  | c :: rest =>
    if c = '"' || c = '\'' then
      (readShort? (c :: rest)).map fun (k, rest) => (String.ofList k, rest)
    else if isBareChar c then
      some (String.ofList ((c :: rest).takeWhile isBareChar), (c :: rest).dropWhile isBareChar)
    else none

/-- A key of at most `fuel` parts. -/
def readKeyParts? (fuel : Nat) (cs : List Char) : Option (List String × List Char) :=
  match fuel with
  | 0 => none
  | fuel + 1 => do
    let (key, rest) ← readKey? (skipSpace cs)
    match skipSpace rest with
    | '.' :: rest => (readKeyParts? fuel rest).map fun (keys, rest) => (key :: keys, rest)
    | rest => some ([key], rest)

/-- A key, which may be dotted, and blanks around it. -/
def readKeys? (cs : List Char) : Option (List String × List Char) :=
  readKeyParts? (cs.length + 1) cs

/-- The text behind the equality sign of a key. -/
def afterEquals? : List Char → Option (List Char)
  | '=' :: rest => some (skipSpace rest)
  | _ => none

/-! ### Values -/

/-- Whether a character ends a scalar without quotation marks. -/
def endsScalar (c : Char) : Bool :=
  isSpace c || c = '\n' || c = '\r' || c = '#' || c = ',' || c = '=' || c = '[' || c = ']' ||
    c = '\x7b' || c = '\x7d'

/-- The characters of a scalar and the text behind it. A date goes on behind one space when a digit
follows. -/
def scalarText (cs : List Char) : List Char × List Char :=
  let first := cs.takeWhile (!endsScalar ·)
  match cs.dropWhile (!endsScalar ·) with
  | ' ' :: c :: rest =>
    if isDate first && c.isDigit then
      (first ++ ' ' :: (c :: rest).takeWhile (!endsScalar ·), (c :: rest).dropWhile (!endsScalar ·))
    else (first, ' ' :: c :: rest)
  | rest => (first, rest)

/-- A scalar without quotation marks. -/
def readScalar? (cs : List Char) : Option (Value × List Char) :=
  let (text, rest) := scalarText cs
  if isScalar text then some (.scalar, rest) else none

/-- The deepest nesting of arrays and of tables between braces. -/
def nestingLimit : Nat := 80

mutual

/-- A value, which may nest `depth` levels. -/
def readValue? (fuel depth : Nat) (cs : List Char) : Option (Value × List Char) :=
  match fuel with
  | 0 => none
  | fuel + 1 =>
    match cs with
    | '[' :: rest =>
      if depth = 0 then none
      else (readElements? fuel (depth - 1) rest).map fun (es, rest) => (.array es, rest)
    | '\x7b' :: rest =>
      if depth = 0 then none
      else (readPairs? fuel (depth - 1) [] rest).map fun (es, rest) => (.table .inline es, rest)
    | c :: rest =>
      if c = '"' || c = '\'' then
        (readQuoted? (c :: rest)).map fun (t, rest) => (.text (String.ofList t), rest)
      else readScalar? (c :: rest)
    | [] => none

/-- The elements of an array up to its closing bracket. A comma may stand behind the last one. -/
def readElements? (fuel depth : Nat) (cs : List Char) : Option (List Value × List Char) :=
  match fuel with
  | 0 => none
  | fuel + 1 => do
    match ← skipTrivia? cs with
    | ']' :: rest => some ([], rest)
    | rest =>
      let (v, rest) ← readValue? fuel depth rest
      match ← skipTrivia? rest with
      | ',' :: rest => (readElements? fuel depth rest).map fun (vs, rest) => (v :: vs, rest)
      | ']' :: rest => some ([v], rest)
      | _ => none

/-- The entries of a table up to its closing brace, behind those that are read already. A comma may
stand behind the last one. -/
def readPairs? (fuel depth : Nat) (entries : Entries) (cs : List Char) :
    Option (Entries × List Char) :=
  match fuel with
  | 0 => none
  | fuel + 1 => do
    match ← skipTrivia? cs with
    | '\x7d' :: rest => some (entries, rest)
    | rest =>
      let (keys, rest) ← readKeys? rest
      let (v, rest) ← readValue? fuel depth (← afterEquals? rest)
      let entries ← entries.assign? v keys
      match ← skipTrivia? rest with
      | ',' :: rest => readPairs? fuel depth entries rest
      | '\x7d' :: rest => some (entries, rest)
      | _ => none

end

/-! ### Lines -/

/-- A file under construction: its root table and the path of the header that lines stand below. -/
structure Draft where
  root : Entries
  path : List String

/-- A line that gives a value to a key. -/
def readAssignment? (d : Draft) (cs : List Char) : Option (Draft × List Char) := do
  let (keys, rest) ← readKeys? cs
  let (v, rest) ← readValue? (2 * rest.length + 1) nestingLimit (← afterEquals? rest)
  return (⟨← d.root.assignIn? d.path v keys, d.path⟩, ← endOfLine? rest)

/-- The header of a table behind its opening bracket. -/
def readHeader? (d : Draft) (cs : List Char) : Option (Draft × List Char) := do
  let (path, rest) ← readKeys? cs
  match rest with
  | ']' :: rest => return (⟨← d.root.define? path, path⟩, ← endOfLine? rest)
  | _ => none

/-- The header of one more table of an array behind its two opening brackets. -/
def readArrayHeader? (d : Draft) (cs : List Char) : Option (Draft × List Char) := do
  let (path, rest) ← readKeys? cs
  match rest with
  | ']' :: ']' :: rest => return (⟨← d.root.append? path, path⟩, ← endOfLine? rest)
  | _ => none

/-- A line that is not blank. -/
def readLine? (d : Draft) : List Char → Option (Draft × List Char)
  | '[' :: '[' :: rest => readArrayHeader? d rest
  | '[' :: rest => readHeader? d rest
  | cs => readAssignment? d cs

/-- The lines of a file, of which at most `fuel` are not blank. -/
def readLines? (fuel : Nat) (d : Draft) (cs : List Char) : Option Entries :=
  match fuel with
  | 0 => none
  | fuel + 1 => do
    match ← skipTrivia? cs with
    | [] => some d.root
    | rest =>
      let (d, rest) ← readLine? d rest
      readLines? fuel d rest

/-- A text without the byte order mark it may start with. -/
def dropByteOrderMark : List Char → List Char
  | '\ufeff' :: rest => rest
  | cs => cs

/-- The root table of a file. -/
def readDocument? (content : String) : Option Entries :=
  let cs := dropByteOrderMark content.toList
  readLines? (cs.length + 1) ⟨[], []⟩ cs

end Descriptor.Toml
