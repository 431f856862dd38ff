import Descriptor.Record.Basic
import Descriptor.Toml.Document

/-!
# Records as configuration files

A record is written with the fields that it has at the root and its groups in a table of their own,
which comes last so that no field falls into it.

## Main definitions

* `Record.writeToml` : the text of a record.
* `Record.ofEntries?`, `Record.readToml?` : the record that a root table or a text gives.
-/

namespace Descriptor.Record

open Toml (Entries Value writeEntry writeText writeTexts)

/-! ### Writing -/

/-- The line of a text that may be absent. -/
def writeOption (key : String) : Option String → List Char
  | some s => writeEntry key (writeText s)
  | none => []

/-- The header of the table of groups. -/
def groupsHeader : List Char := "\n[extras_require]\n".toList

/-- The text of a record. -/
def writeToml (r : Record) : String :=
  String.ofList <|
    writeOption "name" r.name ++ writeOption "version" r.version ++
      writeOption "python_requires" r.pythonRequires ++
      writeEntry "install_requires" (writeTexts r.installRequires) ++ groupsHeader ++
      r.extrasRequire.entries.flatMap fun g => writeEntry g.1 (writeTexts g.2)

/-! ### Reading -/

/-- A text. -/
def tomlText? : Value → Option String
  | .text s => some s
  | _ => none

/-- A list of texts. -/
def tomlTexts? : Value → Option (List String)
  | .array elements => elements.mapM tomlText?
  | _ => none

/-- A text that may be absent. -/
def tomlOption? : Option Value → Option (Option String)
  | none => some none
  | some v => (tomlText? v).map some

/-- Groups, of which each has a name of its own. -/
def tomlGroups? : Value → Option Groups
  | .table _ entries =>
    (entries.mapM fun e => (tomlTexts? e.2).map fun texts => (e.1, texts)).map Groups.ofList
  | _ => none

/-- The record that a root table gives. -/
def ofEntries? (entries : Entries) : Option Record := do
  return {
    name := ← tomlOption? (entries.get? "name")
    version := ← tomlOption? (entries.get? "version")
    pythonRequires := ← tomlOption? (entries.get? "python_requires")
    installRequires := ← (entries.get? "install_requires").elim (some []) tomlTexts?
    extrasRequire := ← (entries.get? "extras_require").elim (some .empty) tomlGroups? }

/-- The record that a text gives. -/
def readToml? (content : String) : Option Record := do ofEntries? (← Toml.readDocument? content)

end Descriptor.Record
