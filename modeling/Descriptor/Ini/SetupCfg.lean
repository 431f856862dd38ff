import Descriptor.Ini.Document
import Descriptor.Record.Basic

/-!
# The record of a declarative descriptor

A configuration document describes a package in three sections: one with its name and version, one
with what it requires, and one with an option for each group of extras. A list of requirements
takes one line for each.

## Main definitions

* `requirementLines` : the requirements that a value lists.
* `Document.record` : the record that a document describes.
* `readRecord` : the record that a text describes.
-/

namespace Descriptor.Ini

/-- The requirements that a value lists: its lines without outer blanks, blank ones left out. -/
def requirementLines (value : String) : List String :=
  (((Text.lines value.toList).map Text.trim).filter (!·.isEmpty)).map String.ofList

/-- The record that a document describes. -/
def Document.record (d : Document) : Record where
  name := d.get? "metadata" "name"
  version := d.get? "metadata" "version"
  pythonRequires := d.get? "options" "python_requires"
  installRequires := ((d.get? "options" "install_requires").map requirementLines).getD []
  extrasRequire :=
    .ofList (((d.items? "options.extras_require").getD []).map fun e =>
      (e.key, requirementLines e.value))

/-- The record that a text describes. -/
def readRecord (content : String) : Except ReadError Record :=
  (Document.read content).map (·.record)

end Descriptor.Ini
