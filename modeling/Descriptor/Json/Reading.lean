import Descriptor.Json.Value

/-!
# Reading JSON

The grammar of the interchange format, read by descent. Every function takes the text that is left
and gives what it read with the text behind it, or nothing where the grammar is broken.

## Main definitions

* `readText?` : a string behind its opening quotation mark.
* `readValue?` : a value at the start of a text.
* `Value.read?` : the value that a whole text spells.
-/

namespace Descriptor.Json

open Text (isHexDigit digitsValue charOfCode?)

/-- The four characters that may stand between tokens. -/
def isSpace (c : Char) : Bool := c = ' ' || c = '\n' || c = '\t' || c = '\r'

/-- A text without the space it starts with. -/
def skipSpace (cs : List Char) : List Char := cs.dropWhile isSpace

/-! ### Strings -/

/-- A part of a string: a character, or a code unit given by its number. -/
inductive Piece where
  | char (c : Char)
  | codeUnit (n : Nat)
  deriving DecidableEq, Repr

/-- What an escape of one letter stands for. -/
def simpleEscape? : Char → Option Char
  | '"' => some '"'
  | '\\' => some '\\'
  | '/' => some '/'
  | 'b' => some '\x08'
  | 'f' => some '\x0c'
  | 'n' => some '\n'
  | 'r' => some '\r'
  | 't' => some '\t'
  | _ => none

/-- The parts of a string, up to its closing quotation mark, and the text behind it. -/
def readPieces? : List Char → Option (List Piece × List Char)
  | [] => none
  | '"' :: rest => some ([], rest)
  | '\\' :: 'u' :: a :: b :: c :: d :: rest =>
    if [a, b, c, d].all isHexDigit then
      (readPieces? rest).map fun (ps, rest) => (.codeUnit (digitsValue 16 [a, b, c, d]) :: ps, rest)
    else none
  | '\\' :: c :: rest =>
    match simpleEscape? c with
    | some e => (readPieces? rest).map fun (ps, rest) => (.char e :: ps, rest)
    | none => none
  | c :: rest =>
    if c.toNat < 0x20 || c = '\\' then none
    else (readPieces? rest).map fun (ps, rest) => (.char c :: ps, rest)

/-- The text that parts make up, code units of a surrogate pair being taken together. -/
def assemble? : List Piece → Option (List Char)
  | [] => some []
  | .char c :: rest => (assemble? rest).map (c :: ·)
  | .codeUnit high :: .codeUnit low :: rest =>
    if 0xd800 ≤ high ∧ high < 0xdc00 then
      if 0xdc00 ≤ low ∧ low < 0xe000 then do
        let c ← charOfCode? (0x10000 + (high - 0xd800) * 0x400 + (low - 0xdc00))
        (assemble? rest).map (c :: ·)
      else none
    else do
      let c ← charOfCode? high
      (assemble? (.codeUnit low :: rest)).map (c :: ·)
  | .codeUnit n :: rest => do
    let c ← charOfCode? n
    (assemble? rest).map (c :: ·)

/-- A string behind its opening quotation mark. -/
def readText? (cs : List Char) : Option (Option String × List Char) :=
  (readPieces? cs).map fun (ps, rest) => ((assemble? ps).map String.ofList, rest)

/-! ### Numbers -/

/-- A run of digits, at least one, and the text behind it. -/
def readDigits? (cs : List Char) : Option (List Char × List Char) :=
  let digits := cs.takeWhile Char.isDigit
  if digits.isEmpty then none else some (digits, cs.dropWhile Char.isDigit)

/-- The digits before a decimal point, where a zero stands alone. -/
def readInteger? : List Char → Option (List Char × List Char)
  | '0' :: rest => if (rest.head?.any Char.isDigit) then none else some (['0'], rest)
  | cs => readDigits? cs

/-- A fraction, if one follows. -/
def readFraction? : List Char → Option (List Char × List Char)
  | '.' :: rest => (readDigits? rest).map fun (ds, rest) => ('.' :: ds, rest)
  | cs => some ([], cs)

/-- An exponent, if one follows. -/
def readExponent? : List Char → Option (List Char × List Char)
  | c :: rest =>
    if c = 'e' || c = 'E' then
      match rest with
      | sign :: digits =>
        if sign = '+' || sign = '-' then
          (readDigits? digits).map fun (ds, rest) => (c :: sign :: ds, rest)
        else (readDigits? rest).map fun (ds, rest) => (c :: ds, rest)
      | [] => none
    else some ([], c :: rest)
  | [] => some ([], [])

/-- A number. -/
def readNumber? (cs : List Char) : Option (Value × List Char) := do
  let (sign, rest) := match cs with
    | '-' :: rest => (['-'], rest)
    | cs => ([], cs)
  let (whole, rest) ← readInteger? rest
  let (fraction, rest) ← readFraction? rest
  let (exponent, rest) ← readExponent? rest
  some (.number (sign ++ whole ++ fraction ++ exponent), rest)

/-! ### Values -/

mutual

/-- A value at the start of a text, nested at most `fuel` deep. -/
def readValue? (fuel : Nat) (cs : List Char) : Option (Value × List Char) :=
  match fuel with
  | 0 => none
  | fuel + 1 =>
    match cs with
    | 'n' :: 'u' :: 'l' :: 'l' :: rest => some (.null, rest)
    | 't' :: 'r' :: 'u' :: 'e' :: rest => some (.bool true, rest)
    | 'f' :: 'a' :: 'l' :: 's' :: 'e' :: rest => some (.bool false, rest)
    | '"' :: rest => (readText? rest).map fun (t, rest) => (.text t, rest)
    | '[' :: rest =>
      match skipSpace rest with
      | ']' :: rest => some (.array [], rest)
      | rest => (readElements? fuel rest).map fun (es, rest) => (.array es, rest)
    | '\x7b' :: rest =>
      match skipSpace rest with
      | '\x7d' :: rest => some (.object [], rest)
      | rest => (readMembers? fuel rest).map fun (ms, rest) => (.object ms, rest)
    | cs => readNumber? cs

/-- The elements of an array, at least one, up to its closing bracket. -/
def readElements? (fuel : Nat) (cs : List Char) : Option (List Value × List Char) :=
  match fuel with
  | 0 => none
  | fuel + 1 => do
    let (v, rest) ← readValue? fuel cs
    match skipSpace rest with
    | ',' :: rest => (readElements? fuel (skipSpace rest)).map fun (vs, rest) => (v :: vs, rest)
    | ']' :: rest => some ([v], rest)
    | _ => none

/-- The members of an object, at least one, up to its closing brace. -/
def readMembers? (fuel : Nat) (cs : List Char) :
    Option (List (Option String × Value) × List Char) :=
  match fuel with
  | 0 => none
  | fuel + 1 => do
    let (key, rest) ← match cs with
      | '"' :: rest => readText? rest
      | _ => none
    let rest ← match skipSpace rest with
      | ':' :: rest => some (skipSpace rest)
      | _ => none
    let (v, rest) ← readValue? fuel rest
    match skipSpace rest with
    | ',' :: rest =>
      (readMembers? fuel (skipSpace rest)).map fun (ms, rest) => ((key, v) :: ms, rest)
    | '\x7d' :: rest => some ([(key, v)], rest)
    | _ => none

end

/-- The value that a whole text spells. No nesting is deeper than the text is long. -/
def Value.read? (text : String) : Option Value := do
  let cs := skipSpace text.toList
  let (v, rest) ← readValue? (2 * cs.length + 1) cs
  if (skipSpace rest).isEmpty then some v else none

end Descriptor.Json
