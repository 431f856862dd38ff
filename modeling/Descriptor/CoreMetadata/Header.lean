import Descriptor.Text.Blank
import Descriptor.Text.Lines
import Descriptor.Text.Lowercase

/-!
# Header blocks

The header block of a metadata file: one header a line, a name and a value with a colon between
them. A line that starts with a space or a tab continues the value before it. The block ends at the
first line that is blank, and what stands behind that line is never read.

## Main definitions

* `Header` : a name, which knows no case, and a value.
* `Fault`, `Fault.message` : why a block cannot be read.
* `readHeaders` : the headers of a text.
-/

namespace Descriptor.CoreMetadata

open Text (trim isBlankText lowercaseAscii)

/-- A header. Its name is kept in lower case. -/
structure Header where
  name : List Char
  value : List Char
  deriving DecidableEq, Repr

/-- Why a header block cannot be read, with the number of the line at fault. -/
inductive Fault where
  | strayContinuation (line : Nat)
  | missingColon (line : Nat)
  | noHeaders
  deriving DecidableEq, Repr

/-- The text of a fault. -/
def Fault.message : Fault → String
  | .strayContinuation line => "line " ++ toString line ++ ": continuation before any header"
  | .missingColon line => "line " ++ toString line ++ ": expected 'Header: value'"
  | .noHeaders => "no headers found"

/-- Whether a line continues the header before it. -/
def isContinuation : List Char → Bool
  | c :: _ => c = ' ' || c = '\t'
  | [] => false

/-- The header of a line. -/
def Header.ofLine? (line : List Char) : Option Header :=
  match line.dropWhile (· ≠ ':') with
  | [] => none
  | _ :: value => some ⟨lowercaseAscii (trim (line.takeWhile (· ≠ ':'))), trim value⟩

/-- A header whose value goes on in a further line. -/
def Header.continued (h : Header) (line : List Char) : Header :=
  { h with value := h.value ++ ' ' :: trim line }

/-- The headers of a block, in reverse: lines from the given number on, behind headers that are read
already. -/
def readBlock (headers : List Header) (number : Nat) :
    List (List Char) → Except Fault (List Header)
  | [] => .ok headers
  | line :: rest =>
    if isBlankText line then .ok headers
    else if isContinuation line then
      match headers with
      | [] => .error (.strayContinuation number)
      | last :: earlier => readBlock (last.continued line :: earlier) (number + 1) rest
    else
      match Header.ofLine? line with
      | none => .error (.missingColon number)
      | some h => readBlock (h :: headers) (number + 1) rest

/-- The headers of a text, of which there is at least one. -/
def readHeaders (content : String) : Except Fault (List Header) := do
  match ← readBlock [] 1 (Text.lines content.toList) with
  | [] => .error .noHeaders
  | headers => .ok headers.reverse

end Descriptor.CoreMetadata
