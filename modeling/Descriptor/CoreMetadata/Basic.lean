import Descriptor.CoreMetadata.Header
import Descriptor.Record.Basic
import Descriptor.Requirement.Partition

/-!
# Core metadata of a distribution

The headers of a metadata file that describe what a package is and requires, and the record that
they amount to.

## Main definitions

* `CoreMetadata` : the headers in question.
* `CoreMetadata.read` : the metadata of a file's text.
* `CoreMetadata.record` : the record that the metadata amounts to.
-/

namespace Descriptor

/-- The headers of a distribution that say what it is and requires. -/
structure CoreMetadata where
  name : Option String
  version : Option String
  requiresPython : Option String
  requiresDist : List String
  deriving DecidableEq, Repr

namespace CoreMetadata

/-- The values of the headers with the given name, in order. -/
def valuesOf (headers : List Header) (name : String) : List String :=
  (headers.filter (·.name = name.toList)).map fun h => String.ofList h.value

/-- The metadata of a list of headers. Where one header is asked for, the first of its name
counts. -/
def ofHeaders (headers : List Header) : CoreMetadata where
  name := (valuesOf headers "name").head?
  version := (valuesOf headers "version").head?
  requiresPython := (valuesOf headers "requires-python").head?
  requiresDist := valuesOf headers "requires-dist"

/-- The metadata of a file's text. -/
def read (content : String) : Except Fault CoreMetadata := (readHeaders content).map ofHeaders

/-- The record that the metadata of a distribution amounts to. -/
def record (m : CoreMetadata) : Record :=
  let p := Requirement.partition m.requiresDist
  { name := m.name
    version := m.version
    pythonRequires := m.requiresPython
    installRequires := p.base
    extrasRequire := p.extras }

end CoreMetadata

end Descriptor
