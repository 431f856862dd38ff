import Descriptor.Record.Groups

/-!
# Package records

What is known of a package: its name and version, the interpreter versions it asks for, what it
requires, and what its groups of extras require on top. A field that is not known is absent or
empty, and never an error.

## Main definitions

* `Record` : the five fields.
* `Record.merge` : a record with the non-empty fields of another put in.
* `Record.lacksDependencies`, `Record.isUnknown` : what a record says nothing about.
-/

namespace Descriptor

/-- What is known of a package. -/
structure Record where
  name : Option String
  version : Option String
  pythonRequires : Option String
  installRequires : List String
  extrasRequire : Groups
  deriving DecidableEq, Inhabited

namespace Record

/-- The record of a package of which nothing is known. -/
def unknown : Record := ⟨none, none, none, [], .empty⟩

/-- Whether a text is present and not empty. -/
def hasText (value : Option String) : Bool := value.any (· ≠ "")

/-- The later of two texts, unless it is absent or empty. -/
def mergeText (earlier later : Option String) : Option String :=
  if hasText later then later else earlier

/-- A record in which every field that is not empty in another is that of the other. Fields are
taken whole and never combined. -/
def merge (earlier later : Record) : Record where
  name := mergeText earlier.name later.name
  version := mergeText earlier.version later.version
  pythonRequires := mergeText earlier.pythonRequires later.pythonRequires
  installRequires :=
    if later.installRequires.isEmpty then earlier.installRequires else later.installRequires
  extrasRequire :=
    if later.extrasRequire.isEmpty then earlier.extrasRequire else later.extrasRequire

/-- Whether a record says nothing about what the package requires. -/
def lacksDependencies (r : Record) : Bool :=
  r.installRequires.isEmpty && r.extrasRequire.isEmpty && !hasText r.pythonRequires

/-- Whether every field of a record is absent or empty. -/
def isUnknown (r : Record) : Bool :=
  !hasText r.name && !hasText r.version && r.lacksDependencies

end Record

end Descriptor
