import Descriptor.Text.Digits

/-!
# Writing quoted texts

How texts, keys and lists of texts are written in a configuration file. Of the forms that can hold a
text the plainest one is taken: one line before several, and no escapes before escapes.

## Main definitions

* `Style`, `styleOf` : the four forms of a text, and the one that is taken.
* `writeText`, `writeKey`, `writeTexts` : a text, a key, and a list of texts.
-/

namespace Descriptor.Toml

/-- The characters that only an escape can write. -/
def isControl (c : Char) : Bool := (c.toNat < 0x20 && c ≠ '\t' && c ≠ '\n') || c.toNat = 0x7f

/-- The length of the longest run of a character, behind a run of the given length. -/
def longestRunFrom (c : Char) (current : Nat) : List Char → Nat
  | [] => current
  | d :: ds =>
    if d = c then longestRunFrom c (current + 1) ds else max current (longestRunFrom c 0 ds)

/-- The length of the longest run of a character. -/
def longestRun (c : Char) (cs : List Char) : Nat := longestRunFrom c 0 cs

/-- The forms of a text: between one or three quotation marks of either kind. -/
inductive Style where
  | basic
  | literal
  | longBasic
  | longLiteral
  deriving DecidableEq, Repr

/-- The form that a text is written in. -/
def styleOf (cs : List Char) : Style :=
  let plain := !cs.any isControl
  let oneLine := !cs.contains '\n'
  if plain && oneLine && !cs.contains '"' && !cs.contains '\\' then .basic
  else if plain && oneLine && !cs.contains '\'' then .literal
  else if plain && !cs.contains '\\' && longestRun '"' cs ≤ 2 then .longBasic
  else if plain && longestRun '\'' cs ≤ 2 then .longLiteral
  else if oneLine then .basic
  else .longBasic

/-- The escape of a character that may not stand for itself. -/
def escapeControl (c : Char) : List Char :=
  if c = '\x08' then ['\\', 'b']
  else if c = '\t' then ['\\', 't']
  else if c = '\x0c' then ['\\', 'f']
  else if c = '\r' then ['\\', 'r']
  else if c = '\\' then ['\\', '\\']
  else if isControl c then '\\' :: 'u' :: Text.hexDigits 'A' 4 c.toNat
  else [c]

/-- A character between single quotation marks that know escapes. -/
def escapeBasic (c : Char) : List Char :=
  if c = '"' then ['\\', '"'] else if c = '\n' then ['\\', 'n'] else escapeControl c

/-- A text between three quotation marks that know escapes, behind a run of quotation marks. Of such
a run every third mark is escaped. -/
def escapeLong (run : Nat) : List Char → List Char
  | [] => []
  | c :: cs =>
    if c = '"' then
      if run = 2 then '\\' :: '"' :: escapeLong 0 cs else '"' :: escapeLong (run + 1) cs
    else escapeControl c ++ escapeLong 0 cs

/-- The line end that stands between the opening marks and a text of several lines. -/
def leadingLine (cs : List Char) : List Char := if cs.contains '\n' then ['\n'] else []

/-- Three times the same quotation mark. -/
def tripled (quote : Char) : List Char := [quote, quote, quote]

/-- A text in a given form. -/
def writeStyle (cs : List Char) : Style → List Char
  | .basic => '"' :: (cs.flatMap escapeBasic ++ ['"'])
  | .literal => '\'' :: (cs ++ ['\''])
  | .longBasic => tripled '"' ++ leadingLine cs ++ escapeLong 0 cs ++ tripled '"'
  | .longLiteral => tripled '\'' ++ leadingLine cs ++ cs ++ tripled '\''

/-- A text. -/
def writeText (s : String) : List Char := writeStyle s.toList (styleOf s.toList)

/-- The characters of a key that needs no quotation marks. -/
def isBareChar (c : Char) : Bool := c.isAlphanum || c = '_' || c = '-'

/-- A key. -/
def writeKey (s : String) : List Char :=
  let cs := s.toList
  let plain := !cs.any fun c => isControl c || c = '\n'
  if !cs.isEmpty && cs.all isBareChar then cs
  else if plain && !cs.contains '\\' && !cs.contains '"' then writeStyle cs .basic
  else if plain && !cs.contains '\'' then writeStyle cs .literal
  else writeStyle cs .basic

/-- An element of a list that has a line for each. -/
def writeElement (s : String) : List Char := List.replicate 4 ' ' ++ writeText s ++ [',', '\n']

/-- A list of texts: on one line when there are fewer than two. -/
def writeTexts : List String → List Char
  | [] => ['[', ']']
  | [s] => '[' :: (writeText s ++ [']'])
  | texts => '[' :: '\n' :: (texts.flatMap writeElement ++ [']'])

/-- A line that gives a key a value. -/
def writeEntry (key : String) (value : List Char) : List Char :=
  writeKey key ++ ' ' :: '=' :: ' ' :: value ++ ['\n']

end Descriptor.Toml
