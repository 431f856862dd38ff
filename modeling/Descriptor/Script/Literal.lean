import Descriptor.Text.Digits
import Descriptor.Text.Utf8

/-!
# String literals

What a string literal of a script says. A literal is given as it is written: an optional run of
letters that qualify it, an opening quote of one or three characters, a body and the closing quote.
Only literals of text have a value here; those of bytes and formatted ones have none, and neither
has one with an escape by character name, whose meaning is in a table that is not at hand.

## Main definitions

* `unescape` : the text that the body of a literal spells.
* `decodeLiteral` : the text of a literal as written.
-/

namespace Descriptor.Script

open Text (isOctalDigit isHexDigit digitsValue charOfCode? takeDigits length_takeDigits_le)

/-- The number of digits that the escape with the given mark takes, when it writes a code point. -/
def codeWidth? : Char → Option Nat
  | 'x' => some 2
  | 'u' => some 4
  | 'U' => some 8
  | _ => none

/-- What the escape of one letter or quote stands for. -/
def simpleEscape? : Char → Option Char
  | '\\' => some '\\'
  | '\'' => some '\''
  | '"' => some '"'
  | 'n' => some '\n'
  | 't' => some '\t'
  | 'r' => some '\r'
  | 'a' => some '\x07'
  | 'b' => some '\x08'
  | 'f' => some '\x0c'
  | 'v' => some '\x0b'
  | _ => none

/-- The text of a code point written in digits behind a mark: the character when there are as many
digits as the mark wants and they name one, and otherwise all of it as written. -/
def codeEscape (mark : Char) (width : Nat) (digits : List Char) : List Char :=
  match if digits.length = width then charOfCode? (digitsValue 16 digits) else none with
  | some c => [c]
  | none => '\\' :: mark :: digits

/-- The text of an octal escape. -/
def octalEscape (digits : List Char) : List Char :=
  match charOfCode? (digitsValue 8 digits) with
  | some c => [c]
  | none => '\\' :: digits

/-- The text that the body of a literal spells, or nothing when it names a character by its name.
A backslash before a line end joins two lines; before a character that it gives no meaning to it
stands for itself. -/
def unescape : List Char → Option (List Char)
  | [] => some []
  | '\\' :: [] => some ['\\']
  | '\\' :: '\n' :: cs => unescape cs
  | '\\' :: '\r' :: '\n' :: cs => unescape cs
  | '\\' :: '\r' :: cs => unescape cs
  | '\\' :: c :: cs =>
    if c = 'N' then none
    else
      match simpleEscape? c with
      | some e => (unescape cs).map (e :: ·)
      | none =>
        if isOctalDigit c then
          let taken := takeDigits isOctalDigit 2 cs
          (unescape taken.2).map (octalEscape (c :: taken.1) ++ ·)
        else
          match codeWidth? c with
          | some width =>
            let taken := takeDigits isHexDigit width cs
            (unescape taken.2).map (codeEscape c width taken.1 ++ ·)
          | none => (unescape cs).map ('\\' :: c :: ·)
  | c :: cs => (unescape cs).map (c :: ·)
termination_by cs => cs.length
decreasing_by
  all_goals
    simp only [List.length_cons]
    first
      | omega
      | exact Nat.lt_succ_of_le (Nat.le_succ_of_le (length_takeDigits_le _ _ _))

/-- A quote character. -/
def isQuote (c : Char) : Bool := c = '\'' || c = '"'

/-- The letters that may stand before a literal of text: `r` for a raw body, and `u`. -/
def isTextMark (c : Char) : Bool := c = 'r' || c = 'R' || c = 'u' || c = 'U'

/-- The letter that makes a body raw, in which a backslash stands for itself. -/
def isRawMark (c : Char) : Bool := c = 'r' || c = 'R'

/-- The body between the given quotes, of which the second stands behind the first. -/
def between? (quote literal : List Char) : Option (List Char) :=
  if quote.isPrefixOf literal then
    let rest := literal.drop quote.length
    if quote.isSuffixOf rest then some (rest.take (rest.length - quote.length)) else none
  else none

/-- The quotes that a literal can stand in, the longer ones first. -/
def quoteStyles : List (List Char) := [['"', '"', '"'], ['\'', '\'', '\''], ['"'], ['\'']]

/-- The body of a literal without its marks. The quotes are the first style that the literal opens
with and has enough bytes for. -/
def literalBody? (literal : List Char) : Option (List Char) := do
  let quote ← quoteStyles.find? fun q =>
    q.isPrefixOf literal && Text.byteLength literal ≥ 2 * Text.byteLength q
  between? quote literal

/-- The text of a literal as written, or nothing for one that is not of text or that names a
character by its name. -/
def decodeLiteral (literal : List Char) : Option (List Char) := do
  let marks := literal.takeWhile (!isQuote ·)
  let quoted := literal.dropWhile (!isQuote ·)
  if quoted.isEmpty || !marks.all isTextMark then none
  else
    let body ← literalBody? quoted
    if marks.any isRawMark then some body else unescape body

end Descriptor.Script
