/-!
# Paths

Paths as texts. A path is absolute when it starts with a separator; empty components and single dots
mean nothing, and two dots lead one level up.

## Main definitions

* `joinPath` : a path followed from another one.
* `AbsolutePath` : the paths from the root.
* `components` : the components of a path.
* `parentPath?` : the directory part of a path.
-/

namespace Descriptor.Files

/-- Whether a path starts at the root. -/
def isAbsolute (path : String) : Bool := path.toList.head? = some '/'

/-- A path followed from a directory: an absolute one replaces it. -/
def joinPath (directory path : String) : String :=
  if isAbsolute path || directory.isEmpty then path
  else if directory.toList.getLast? = some '/' then directory ++ path
  else directory ++ "/" ++ path

/-- A path from the root. -/
structure AbsolutePath where
  text : String
  starts : isAbsolute text = true
  deriving DecidableEq, Repr

namespace AbsolutePath

instance : Inhabited AbsolutePath := ⟨⟨"/", by decide⟩⟩

theorem text_ne_empty (p : AbsolutePath) : p.text ≠ "" := by
  intro h
  have hstarts := p.starts
  rw [h] at hstarts
  exact absurd hstarts (by decide)

end AbsolutePath

/-- What stands behind a path does not change where it starts. -/
theorem isAbsolute_append {path : String} (h : path ≠ "") (rest : String) :
    isAbsolute (path ++ rest) = isAbsolute path := by
  obtain ⟨c, cs, hcs⟩ := List.exists_cons_of_ne_nil (mt String.toList_eq_nil_iff.mp h)
  simp [isAbsolute, hcs]

/-- A path that is followed from one that starts at the root starts there too. -/
theorem AbsolutePath.isAbsolute_joinPath (p : AbsolutePath) (path : String) :
    isAbsolute (joinPath p.text path) = true := by
  rw [joinPath]
  split
  · next h =>
    rcases Bool.or_eq_true_iff.mp h with habsolute | hempty
    · exact habsolute
    · exact absurd (String.isEmpty_iff.mp hempty) p.text_ne_empty
  · split
    · rw [isAbsolute_append p.text_ne_empty, p.starts]
    · rw [String.append_assoc, isAbsolute_append p.text_ne_empty, p.starts]

/-- A path followed from one that starts at the root. -/
def AbsolutePath.join (p : AbsolutePath) (path : String) : AbsolutePath :=
  ⟨joinPath p.text path, p.isAbsolute_joinPath path⟩

/-- The parts of a text between separators, where `part` holds an unfinished part in reverse. -/
def splitFrom (separator : Char) (part : List Char) : List Char → List (List Char)
  | [] => [part.reverse]
  | c :: cs =>
    if c = separator then part.reverse :: splitFrom separator [] cs
    else splitFrom separator (c :: part) cs

/-- The parts of a text between separators. -/
def splitAt (separator : Char) (text : String) : List String :=
  (splitFrom separator [] text.toList).map String.ofList

/-- The components of a path, in order. -/
def components (path : String) : List String := splitAt '/' path

/-- A path in reverse without the separators and single dots it ends in, the root aside. -/
def dropTrailing : List Char → List Char
  | '/' :: c :: rest => dropTrailing (c :: rest)
  | '.' :: '/' :: rest => dropTrailing ('/' :: rest)
  | cs => cs

/-- The directory part of a path: none for the root and for nothing, and empty for a single
component. -/
def parentPath? (path : String) : Option String :=
  match dropTrailing path.toList.reverse with
  | [] => none
  | ['/'] => none
  | reversed => some (String.ofList (dropTrailing (reversed.dropWhile (· ≠ '/'))).reverse)

end Descriptor.Files
