import Descriptor.Text.Blank
import Descriptor.Text.Lowercase
import Descriptor.Text.Utf8

/-!
# Lines of a configuration document

What a line is by itself, before the lines around it decide what it does: a comment, a blank line,
or content with an indentation. Content at the left of an open option is a header or an option.

## Main definitions

* `Line`, `Line.ofText` : a line by itself.
* `headerName?` : the name in a section header.
* `splitOption?` : the key and the value of an option line.
-/

namespace Descriptor.Ini

open Text (isBlank trim byteLength lowercase)

/-- A line by itself. -/
inductive Line where
  /-- A line whose first character that is not blank is a number sign or a semicolon. -/
  | comment
  | blank
  /-- Content without outer blanks, and the number of bytes of the blanks before it. -/
  | content (indent : Nat) (text : List Char)
  deriving DecidableEq, Repr

/-- Whether a line is a comment, judged by its first character. -/
def startsComment : List Char → Bool
  | c :: _ => c = '#' || c = ';'
  | [] => false

/-- The kind of a line. -/
def Line.ofText (raw : List Char) : Line :=
  let text := trim raw
  if startsComment text then .comment
  else if text.isEmpty then .blank
  else .content (byteLength (raw.takeWhile isBlank)) text

/-- What stands before the last occurrence of a character. -/
def beforeLast? (c : Char) : List Char → Option (List Char)
  | [] => none
  | d :: ds =>
    match beforeLast? c ds with
    | some before => some (d :: before)
    | none => if d = c then some [] else none

/-- The name between an opening bracket at the start and the last closing bracket. What stands
behind that bracket is ignored. -/
def headerName? : List Char → Option (List Char)
  | '[' :: rest => (beforeLast? ']' rest).filter (!·.isEmpty)
  | _ => none

/-- Whether a character stands between a key and its value. -/
def isDelimiter (c : Char) : Bool := c = '=' || c = ':'

/-- The key and the value of an option line, at the two sides of the first delimiter. Keys know no
case. -/
def splitOption? (line : List Char) : Option (List Char × List Char) :=
  match line.dropWhile (!isDelimiter ·) with
  | [] => none
  | _ :: value =>
    let key := trim (line.takeWhile (!isDelimiter ·))
    if key.isEmpty then none else some (lowercase key, trim value)

end Descriptor.Ini
