import Descriptor.Files.Path

/-!
# Components of joined paths

A path that is followed from a directory by a single name has the components of the directory and
then that name, whether or not the directory is written with a separator at its end.

## Main definitions

* `IsName`, `IsEntryName` : the components, and the texts, that are the name of an entry.
* `namesTo` : the components that lead to what lies in a directory.

## Main results

* `components_joinPath` : the components of a directory with a name.
-/

namespace Descriptor.Files

/-- Parts are those before a separator and those behind it. -/
theorem splitFrom_append (separator : Char) (cs ds part : List Char) :
    splitFrom separator part (cs ++ separator :: ds) =
      splitFrom separator part cs ++ splitFrom separator [] ds := by
  induction cs generalizing part with
  | nil => simp [splitFrom]
  | cons c cs ih =>
    rw [List.cons_append, splitFrom, splitFrom]
    split
    · rw [ih, List.cons_append]
    · exact ih _

/-- A text without a separator is one part. -/
theorem splitFrom_of_not_mem {separator : Char} {cs : List Char} (h : separator ∉ cs)
    (part : List Char) : splitFrom separator part cs = [part.reverse ++ cs] := by
  induction cs generalizing part with
  | nil => simp [splitFrom]
  | cons c cs ih =>
    obtain ⟨hc, hcs⟩ := List.ne_and_not_mem_of_not_mem_cons h
    rw [splitFrom, if_neg hc.symm, ih hcs]
    simp

theorem components_append (path path' : String) :
    components (path ++ "/" ++ path') = components path ++ components path' := by
  simp only [components, splitAt, String.toList_append, List.append_assoc]
  exact (congrArg _ (splitFrom_append '/' path.toList path'.toList [])).trans List.map_append

/-! ### Names -/

/-- A component of a path that is the name of an entry. -/
structure IsName (name : String) : Prop where
  ne_empty : name ≠ ""
  ne_dot : name ≠ "."
  ne_dots : name ≠ ".."

theorem IsName.of_not {name : String} (hblank : ¬(name = "" ∨ name = ".")) (hup : ¬name = "..") :
    IsName name :=
  ⟨fun h => hblank (.inl h), fun h => hblank (.inr h), hup⟩

theorem IsName.not_blank {name : String} (h : IsName name) : ¬(name = "" ∨ name = ".") :=
  fun hblank => hblank.elim h.ne_empty h.ne_dot

/-- Names that stand for an entry of a directory in a path. -/
structure IsEntryName (name : String) : Prop extends IsName name where
  plain : '/' ∉ name.toList

theorem components_of_not_mem {name : String} (h : '/' ∉ name.toList) :
    components name = [name] := by
  rw [components, splitAt, splitFrom_of_not_mem h]
  simp

namespace IsEntryName

variable {name : String}

theorem isAbsolute (h : IsEntryName name) : isAbsolute name = false := by
  rw [Files.isAbsolute, decide_eq_false_iff_not]
  exact fun hhead => h.plain (List.mem_of_head? hhead)

theorem toList_ne_nil (h : IsEntryName name) : name.toList ≠ [] :=
  mt String.toList_eq_nil_iff.mp h.ne_empty

theorem getLast?_ne (h : IsEntryName name) : name.toList.getLast? ≠ some '/' :=
  fun hlast => h.plain (List.mem_of_getLast? hlast)

end IsEntryName

/-! ### Names in directories -/

/-- The components that lead to what lies in a directory, which may be written with a separator at
its end. -/
def namesTo (directory : String) : List String :=
  if directory.toList.getLast? = some '/' then (components directory).dropLast
  else components directory

variable {directory name : String}

private theorem exists_eq_append_separator (h : directory.toList.getLast? = some '/') :
    ∃ path : String, directory = path ++ "/" := by
  obtain ⟨cs, hcs⟩ := List.getLast?_eq_some_iff.mp h
  exact ⟨String.ofList cs, String.toList_injective (by simp [hcs])⟩

theorem joinPath_eq (hdirectory : directory ≠ "") (hname : IsEntryName name) :
    joinPath directory name =
      if directory.toList.getLast? = some '/' then directory ++ name
      else directory ++ "/" ++ name := by
  rw [joinPath, if_neg (by simp [hname.isAbsolute, hdirectory])]

/-- The components of a name in a directory. -/
theorem components_joinPath (hdirectory : directory ≠ "") (hname : IsEntryName name) :
    components (joinPath directory name) = namesTo directory ++ [name] := by
  rw [joinPath_eq hdirectory hname, namesTo]
  split
  · next hlast =>
    obtain ⟨path, rfl⟩ := exists_eq_append_separator hlast
    have htrailing : components (path ++ "/") = components path ++ [""] := by
      simpa [components_of_not_mem] using components_append path ""
    rw [components_append, components_of_not_mem hname.plain, htrailing, List.dropLast_concat]
  · rw [components_append, components_of_not_mem hname.plain]

/-- A name in a directory starts where the directory does. -/
theorem isAbsolute_joinPath (hdirectory : directory ≠ "") (hname : IsEntryName name) :
    isAbsolute (joinPath directory name) = isAbsolute directory := by
  rw [joinPath_eq hdirectory hname]
  split
  · exact isAbsolute_append hdirectory name
  · rw [String.append_assoc]
    exact isAbsolute_append hdirectory _

theorem joinPath_ne_empty (hdirectory : directory ≠ "") (hname : IsEntryName name) :
    joinPath directory name ≠ "" := by
  rw [joinPath_eq hdirectory hname]
  split <;> simp [hdirectory]

/-- The components that lead to what lies in a directory of a directory. -/
theorem namesTo_joinPath (hdirectory : directory ≠ "") (hname : IsEntryName name) :
    namesTo (joinPath directory name) = namesTo directory ++ [name] := by
  have hlast : (joinPath directory name).toList.getLast? ≠ some '/' := by
    rw [joinPath_eq hdirectory hname]
    have hname' := hname.getLast?_ne
    rw [List.getLast?_eq_some_getLast hname.toList_ne_nil] at hname'
    split <;> simpa [List.getLast?_append, List.getLast?_cons,
      List.getLast?_eq_some_getLast hname.toList_ne_nil] using hname'
  rw [namesTo, if_neg hlast, components_joinPath hdirectory hname]

end Descriptor.Files
