import Descriptor.Json.Reading
import Descriptor.Record.Basic

/-!
# Records as JSON

A record is written as an object with all five fields. It is read from an object in which the
fields come in any order among other members, or from an array of the values alone. The texts may be
absent or null, and the collections absent only.

## Main definitions

* `Record.toValue`, `Record.writeJson` : the value and the text of a record.
* `Record.ofValue?`, `Record.readJson?` : the record that a value or a text gives.
-/

namespace Descriptor.Record

open Json (Value)

/-! ### Writing -/

/-- A text that may be absent. -/
def optionValue : Option String → Value
  | some s => .text (some s)
  | none => .null

/-- A list of texts. -/
def textsValue (texts : List String) : Value := .array (texts.map fun s => .text (some s))

/-- Groups, with a member for each. -/
def groupsValue (groups : Groups) : Value :=
  .object (groups.entries.map fun g => (some g.1, textsValue g.2))

/-- The names of the fields, in order. -/
def fieldNames : List String :=
  ["name", "version", "python_requires", "install_requires", "extras_require"]

/-- The values of the fields, in order. -/
def fieldValues (r : Record) : List Value :=
  [optionValue r.name, optionValue r.version, optionValue r.pythonRequires,
    textsValue r.installRequires, groupsValue r.extrasRequire]

/-- The value of a record. -/
def toValue (r : Record) : Value := .object ((fieldNames.map some).zip r.fieldValues)

/-- The text of a record. -/
def writeJson (r : Record) : String := r.toValue.write

/-! ### Reading -/

/-- A text that may be null. -/
def jsonOption? : Value → Option (Option String)
  | .null => some none
  | .text (some s) => some (some s)
  | _ => none

/-- A text. -/
def jsonText? : Value → Option String
  | .text value => value
  | _ => none

/-- A list of texts. -/
def jsonTexts? : Value → Option (List String)
  | .array elements => elements.mapM jsonText?
  | _ => none

/-- A group with its requirements. -/
def jsonGroup? (member : Option String × Value) : Option Group := do
  return (← member.1, ← jsonTexts? member.2)

/-- Groups, of which the last of each name counts. -/
def jsonGroups? : Value → Option Groups
  | .object members =>
    (members.mapM jsonGroup?).map Groups.ofList
  | _ => none

/-- The record with the given values of its fields, in order. A collection that is absent is
empty. -/
def ofFields? (name version pythonRequires installRequires extrasRequire : Option Value) :
    Option Record := do
  let text (v : Option Value) : Option (Option String) := v.elim (some none) jsonOption?
  return {
    name := ← text name
    version := ← text version
    pythonRequires := ← text pythonRequires
    installRequires := ← installRequires.elim (some []) jsonTexts?
    extrasRequire := ← extrasRequire.elim (some .empty) jsonGroups? }

/-- The value of the member with the given key: absent, or there once. -/
def member? (members : List (Option String × Value)) (key : String) : Option (Option Value) :=
  match members.filter (·.1 = some key) with
  | [] => some none
  | [(_, v)] => some (some v)
  | _ => none

/-- The record that a value gives. -/
def ofValue? : Value → Option Record
  | .object members => do
    guard (members.all (·.1.isSome))
    ofFields? (← member? members "name") (← member? members "version")
      (← member? members "python_requires") (← member? members "install_requires")
      (← member? members "extras_require")
  | .array [n, v, p] => ofFields? (some n) (some v) (some p) none none
  | .array [n, v, p, i] => ofFields? (some n) (some v) (some p) (some i) none
  | .array [n, v, p, i, e] => ofFields? (some n) (some v) (some p) (some i) (some e)
  | _ => none

/-- The record that a text gives. -/
def readJson? (text : String) : Option Record := do ofValue? (← Value.read? text)

end Descriptor.Record
