import Descriptor.Script.Grammar.NameTable

/-!
# Tokens of a script

The smallest pieces of a script that mean something, and how far each one reaches. A token is the
longest piece of its class that the text goes on with.

A part of the grammar to run with, which `Descriptor.Script.Grammar.Module` puts together.

## Main definitions

* `Token` : the tokens. Keywords are words: which words are keywords depends on the place.
* `scanWord`, `scanNumber`, `scanSymbol?` : the token of a class at the start of a text, with the
  text behind it.
-/

namespace Descriptor.Script

/-- A token. -/
inductive Token where
  /-- A name or a keyword. -/
  | word (text : String)
  /-- A string literal that holds no replacement fields, as it is written. -/
  | literal (spelling : List Char)
  | number
  /-- An operator or a delimiter. -/
  | symbol (text : String)
  /-- The opening quotes of a formatted literal. -/
  | formatOpen
  | formatClose
  /-- The brace that opens a replacement field of a formatted literal. -/
  | fieldOpen
  | fieldClose
  /-- The mark of a conversion in a replacement field. -/
  | conversion
  /-- The colon before the format of a replacement field. -/
  | format
  /-- A place where the text goes on with no token. -/
  | invalid
  deriving DecidableEq, Repr

private def inAnyRange (ranges : List (Nat × Nat)) (c : Char) : Bool :=
  ranges.any fun r => r.1 ≤ c.toNat && c.toNat ≤ r.2

/-- A character that a name can start with. -/
def isNameStart (c : Char) : Bool :=
  if c.toNat < 128 then c.isAlpha || c = '_' else inAnyRange nameStartRanges c

/-- A character that a name can go on with. -/
def isNameContinue (c : Char) : Bool :=
  if c.toNat < 128 then c.isAlphanum || c = '_' else inAnyRange nameContinueRanges c

/-- The word at the start of a text. -/
def scanWord (cs : List Char) : Token × List Char :=
  (.word (String.ofList (cs.takeWhile isNameContinue)), cs.dropWhile isNameContinue)

/-! ### Numbers -/

/-- What is left behind decimal digits, each of which an underscore may follow. -/
def dropDecimals : List Char → List Char
  | [] => []
  | c :: cs =>
    if c.isDigit then
      match cs with
      | '_' :: ds => dropDecimals ds
      | ds => dropDecimals ds
    else c :: cs

/-- What is left behind digits of a class, each of which an underscore may precede. -/
def dropBased (isDigit : Char → Bool) : List Char → List Char
  | [] => []
  | c :: cs =>
    if isDigit c then dropBased isDigit cs
    else
      match c, cs with
      | '_', d :: ds => if isDigit d then dropBased isDigit ds else c :: d :: ds
      | c, cs => c :: cs

private def startsWithDigit : List Char → Bool
  | c :: _ => c.isDigit
  | [] => false

/-- What is left behind an exponent, if there is one. -/
def dropExponent? : List Char → Option (List Char)
  | c :: cs =>
    if c = 'e' || c = 'E' then
      let digits :=
        match cs with
        | '+' :: ds => ds
        | '-' :: ds => ds
        | ds => ds
      if startsWithDigit digits then some (dropDecimals digits) else none
    else none
  | [] => none

/-- What is left behind a letter that ends a number. -/
def dropNumberEnd (letters : List Char) : List Char → List Char
  | c :: cs => if letters.contains c then cs else c :: cs
  | [] => []

/-- The digits of the base that a letter behind a zero stands for. -/
def basedDigit? (c : Char) : Option (Char → Bool) :=
  if c = 'x' || c = 'X' then
    some fun d => d.isDigit || ('a' ≤ d && d ≤ 'f') || ('A' ≤ d && d ≤ 'F')
  else if c = 'o' || c = 'O' then some fun d => '0' ≤ d && d ≤ '7'
  else if c = 'b' || c = 'B' then some fun d => d = '0' || d = '1'
  else none

/-- What is left behind a number with a base of its own, if there is one. -/
def dropBasedNumber? : List Char → Option (List Char)
  | '0' :: c :: cs => do
    let isDigit ← basedDigit? c
    let rest := dropBased isDigit cs
    if rest.length < cs.length then some (dropNumberEnd ['l', 'L'] rest) else none
  | _ => none

/-- What is left behind the number at the start of a text. -/
def dropNumber (cs : List Char) : List Char :=
  match dropBasedNumber? cs with
  | some rest => rest
  | none =>
    let whole := dropDecimals cs
    let ends := ['l', 'L', 'j', 'J']
    match whole with
    | '.' :: fraction =>
      let digits := if startsWithDigit fraction then dropDecimals fraction else fraction
      dropNumberEnd ends ((dropExponent? digits).getD digits)
    | _ => dropNumberEnd ends ((dropExponent? whole).getD whole)

/-- Whether a text starts with a number. -/
def startsNumber : List Char → Bool
  | '.' :: c :: _ => c.isDigit
  | c :: _ => c.isDigit
  | [] => false

/-! ### Symbols -/

/-- The operators and delimiters, the longer ones first. -/
def symbols : List (List Char) :=
  ["**=", "//=", ">>=", "<<=", "...",
   "**", "//", ">>", "<<", "==", "!=", "<=", ">=", "<>", "->", ":=", "+=", "-=", "*=", "/=", "%=",
   "@=", "&=", "|=", "^=",
   "+", "-", "*", "/", "%", "@", "&", "|", "^", "~", "<", ">", "(", ")", "[", "]", "\x7b", "\x7d",
   ",", ":", ".", ";", "="].map String.toList

/-- The operator or delimiter at the start of a text. -/
def scanSymbol? (cs : List Char) : Option (Token × List Char) :=
  (symbols.find? (·.isPrefixOf cs)).map fun s =>
    (.symbol (String.ofList s), cs.drop s.length)

end Descriptor.Script
