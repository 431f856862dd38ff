import Descriptor.Text.Digits

/-!
# JSON values

A value of the interchange format, and its form on several lines. Members of an object keep their
order and may repeat a key; numbers are kept as they are written.

## Main definitions

* `Value` : a value.
* `Value.write` : the text of a value, two spaces deeper on each level.
-/

namespace Descriptor.Json

/-- A value. A string whose escapes hold half of a surrogate pair is well formed but spells no text,
and is given as `none`. -/
inductive Value where
  | null
  | bool (value : Bool)
  | number (numeral : List Char)
  | text (value : Option String)
  | array (elements : List Value)
  | object (members : List (Option String × Value))

namespace Value

instance : Inhabited Value := ⟨null⟩

/-! ### Writing -/

/-- A character as it stands between quotation marks. -/
def escapeChar (c : Char) : List Char :=
  if c = '"' then ['\\', '"']
  else if c = '\\' then ['\\', '\\']
  else if c = '\x08' then ['\\', 'b']
  else if c = '\x0c' then ['\\', 'f']
  else if c = '\n' then ['\\', 'n']
  else if c = '\r' then ['\\', 'r']
  else if c = '\t' then ['\\', 't']
  else if c.toNat < 0x20 then '\\' :: 'u' :: Text.hexDigits 'a' 4 c.toNat
  else [c]

/-- A text between quotation marks. -/
def writeText (cs : List Char) : List Char := '"' :: (cs.flatMap escapeChar ++ ['"'])

/-- A line end and the indentation of a level. -/
def newLine (level : Nat) : List Char := '\n' :: List.replicate (2 * level) ' '

/-- Items on lines of their own between two brackets, which stand alone around no items. -/
def writeItems (opening closing : Char) (level : Nat) : List (List Char) → List Char
  | [] => [opening, closing]
  | items =>
    opening :: (newLine (level + 1) ++ (',' :: newLine (level + 1)).intercalate items ++
      newLine level ++ [closing])

mutual

/-- The text of a value on a level. -/
def writeAt (level : Nat) : Value → List Char
  | null => ['n', 'u', 'l', 'l']
  | bool true => ['t', 'r', 'u', 'e']
  | bool false => ['f', 'a', 'l', 's', 'e']
  | number numeral => numeral
  | text value => writeText (value.getD "").toList
  | array elements => writeItems '[' ']' level (writeElements (level + 1) elements)
  | object members => writeItems '\x7b' '\x7d' level (writeMembers (level + 1) members)

/-- The texts of the elements of an array on a level. -/
def writeElements (level : Nat) : List Value → List (List Char)
  | [] => []
  | v :: rest => writeAt level v :: writeElements level rest

/-- The texts of the members of an object on a level. -/
def writeMembers (level : Nat) : List (Option String × Value) → List (List Char)
  | [] => []
  | (key, v) :: rest =>
    (writeText (key.getD "").toList ++ ':' :: ' ' :: writeAt level v) :: writeMembers level rest

end

/-- The text of a value. -/
def write (v : Value) : String := String.ofList (v.writeAt 0)

end Value

end Descriptor.Json
