import Descriptor.Build.Error
import Descriptor.CoreMetadata.Basic

/-!
# Metadata directories

The directory in which a backend leaves the metadata of a distribution, among whatever else it
leaves, and the record in it.

## Main definitions

* `findDirectory` : the metadata directory among the entries of a directory.
* `readDirectory` : the record in a metadata directory.
-/

namespace Descriptor.CoreMetadata

open Files (FileTree joinPath)

/-- The ending of the names of metadata directories. -/
def directorySuffix : List Char := ".dist-info".toList

/-- Whether a name is that of a metadata directory. -/
def isDirectoryName (name : String) : Bool := directorySuffix.isSuffixOf name.toList

/-- The least of some names, in the order of their characters. -/
def leastName? (names : List String) : Option String :=
  names.foldl (fun
    | none, name => some name
    | some least, name => if name < least then some name else some least) none

/-- The metadata directory in a directory, the one with the least name if there are several. -/
def findDirectory (files : FileTree) (directory : String) : Except BuildError String := do
  let names ← (files.list directory).mapError (.io ("reading " ++ directory))
  let candidates := names.filter fun name =>
    isDirectoryName name && files.isDirectory (joinPath directory name)
  match leastName? candidates with
  | some name => .ok (joinPath directory name)
  | none => .error (.missingDistInfo directory)

/-- The record in a metadata directory. -/
def readDirectory (files : FileTree) (directory : String) : Except BuildError Record := do
  let path := joinPath directory "METADATA"
  let content ← (files.readText path).mapError (.io ("reading " ++ path))
  let metadata ← (CoreMetadata.read content).mapError fun f => .invalidMetadata path f.message
  .ok metadata.record

end Descriptor.CoreMetadata
