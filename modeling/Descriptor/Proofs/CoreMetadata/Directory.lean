import Descriptor.CoreMetadata.Directory
import Descriptor.Proofs.Files.Listing
import Descriptor.Proofs.Text.ByteOrder
import Mathlib.Data.String.Basic

/-!
# The metadata directory that is found

Among the metadata directories in a directory the one with the least name is found, in the order of
the bytes of the names. So it makes no difference in which order the directory lists its entries.

## Main definitions

* `IsCandidate` : the names of the metadata directories in a directory.

## Main results

* `leastName?_eq_some_iff` : the least of some names.
* `findDirectory_eq_ok_iff`, `findDirectory_eq_missing_iff`, `findDirectory_eq_io_iff` : which
  directory is found, and when none is.
* `findDirectory_of_relisted` : the order of the listing makes no difference.
-/

namespace Descriptor.CoreMetadata

open Files (FileTree joinPath)
open Text (encodeUtf8)

/-! ### Least names -/

section LeastName

variable {names names' : List String} {name : String}

/-- The step of the search for the least name. -/
private def lesser (least? : Option String) (name : String) : Option String :=
  match least? with
  | none => some name
  | some least => if name < least then some name else some least

private theorem leastName?_eq_foldl (names : List String) :
    leastName? names = names.foldl lesser none := by
  rw [leastName?]
  congr 1
  funext least? name
  cases least? <;> rfl

/-- The search goes on to the least of the names seen and those to come. -/
private theorem foldl_lesser_some (names : List String) (least : String) :
    ∃ name ∈ least :: names, names.foldl lesser (some least) = some name ∧
      ∀ other ∈ least :: names, name ≤ other := by
  induction names generalizing least with
  | nil => exact ⟨least, List.mem_cons_self, rfl, by simp⟩
  | cons next names ih =>
    obtain ⟨name, hname, hfold, hleast⟩ := ih (if next < least then next else least)
    have hstep : lesser (some least) next = some (if next < least then next else least) := by
      rw [lesser]
      split <;> rfl
    rw [List.foldl_cons, hstep]
    refine ⟨name, ?_, hfold, ?_⟩
    · rcases List.mem_cons.mp hname with rfl | hname
      · split <;> simp
      · simp [hname]
    · have hle := hleast _ List.mem_cons_self
      have hmin : name ≤ next ∧ name ≤ least := by
        split at hle
        · next hlt => exact ⟨hle, hle.trans hlt.le⟩
        · next hlt => exact ⟨hle.trans (not_lt.mp hlt), hle⟩
      rintro other hother
      obtain rfl | rfl | hother := by simpa using hother
      · exact hmin.2
      · exact hmin.1
      · exact hleast other (List.mem_cons_of_mem _ hother)

theorem leastName?_eq_none_iff : leastName? names = none ↔ names = [] := by
  rw [leastName?_eq_foldl]
  cases names with
  | nil => exact iff_of_true rfl rfl
  | cons first names =>
    obtain ⟨name, -, hfold, -⟩ := foldl_lesser_some names first
    rw [List.foldl_cons, lesser, hfold]
    exact iff_of_false nofun (List.cons_ne_nil _ _)

/-- The least of some names is the one that no other comes before. -/
theorem leastName?_eq_some_iff :
    leastName? names = some name ↔ name ∈ names ∧ ∀ other ∈ names, name ≤ other := by
  rw [leastName?_eq_foldl]
  cases names with
  | nil => simp
  | cons first names =>
    obtain ⟨least, hleast, hfold, hle⟩ := foldl_lesser_some names first
    rw [List.foldl_cons, lesser, hfold, Option.some.injEq]
    constructor
    · rintro rfl
      exact ⟨hleast, hle⟩
    · rintro ⟨hname, hname_le⟩
      exact le_antisymm (hle name hname) (hname_le least hleast)

/-- The least name is the same in every order. -/
theorem leastName?_perm (h : names'.Perm names) : leastName? names' = leastName? names := by
  ext name
  rw [leastName?_eq_some_iff, leastName?_eq_some_iff, h.mem_iff]
  exact and_congr_right fun _ => forall_congr' fun other => by rw [h.mem_iff]

/-- Names are in the order of their bytes. -/
theorem encodeUtf8_le_iff (name other : String) :
    encodeUtf8 name.toList ≤ encodeUtf8 other.toList ↔ name ≤ other := by
  rw [← List.not_lt, Text.encodeUtf8_lt_iff, ← String.lt_iff_toList_lt, not_lt]

end LeastName

/-! ### The directory that is found -/

variable {files files' : FileTree} {directory name path : String}

/-- The name of an entry of a directory that is a metadata directory, or a link to one. -/
structure IsCandidate (files : FileTree) (directory name : String) : Prop where
  listed : ∃ names, files.list directory = .ok names ∧ name ∈ names
  ending : directorySuffix <:+ name.toList
  isDirectory : files.isDirectory (joinPath directory name) = true

/-- The candidates among the names that are listed. -/
private theorem mem_candidates_iff {names : List String}
    (hlist : files.list directory = .ok names) :
    (name ∈ names.filter fun name =>
      isDirectoryName name && files.isDirectory (joinPath directory name)) ↔
      IsCandidate files directory name := by
  rw [List.mem_filter, Bool.and_eq_true, isDirectoryName, List.isSuffixOf_iff_suffix]
  constructor
  · rintro ⟨hname, hending, hdirectory⟩
    exact ⟨⟨names, hlist, hname⟩, hending, hdirectory⟩
  · rintro ⟨⟨names', hlist', hname⟩, hending, hdirectory⟩
    obtain rfl := Except.ok.inj (hlist.symm.trans hlist')
    exact ⟨hname, hending, hdirectory⟩

theorem findDirectory_of_list_ok {names : List String} (hlist : files.list directory = .ok names) :
    findDirectory files directory =
      match leastName? (names.filter fun name =>
        isDirectoryName name && files.isDirectory (joinPath directory name)) with
      | some name => .ok (joinPath directory name)
      | none => .error (.missingDistInfo directory) := by
  rw [findDirectory, hlist]
  rfl

theorem findDirectory_of_list_error {fault : Files.Fault}
    (hlist : files.list directory = .error fault) :
    findDirectory files directory = .error (.io ("reading " ++ directory) fault) := by
  rw [findDirectory, hlist]
  rfl

/-- The directory that is found is the candidate whose name comes first in the order of bytes. -/
theorem findDirectory_eq_ok_iff :
    findDirectory files directory = .ok path ↔
      ∃ name, IsCandidate files directory name ∧
        (∀ other, IsCandidate files directory other →
          encodeUtf8 name.toList ≤ encodeUtf8 other.toList) ∧
        path = joinPath directory name := by
  simp only [encodeUtf8_le_iff]
  cases hlist : files.list directory with
  | error fault =>
    rw [findDirectory_of_list_error hlist]
    refine iff_of_false nofun ?_
    rintro ⟨name, ⟨⟨names, hlist', -⟩, -, -⟩, -⟩
    rw [hlist] at hlist'
    cases hlist'
  | ok names =>
    have hfind := findDirectory_of_list_ok hlist
    simp only [← mem_candidates_iff hlist]
    constructor
    · intro h
      rw [hfind] at h
      split at h
      · next name hleast =>
        obtain ⟨hname, hle⟩ := leastName?_eq_some_iff.mp hleast
        exact ⟨name, hname, hle, (Except.ok.inj h).symm⟩
      · cases h
    · rintro ⟨name, hname, hle, rfl⟩
      rw [hfind, leastName?_eq_some_iff.mpr ⟨hname, hle⟩]

/-- None is found where the directory is listed and has no candidate. -/
theorem findDirectory_eq_missing_iff :
    findDirectory files directory = .error (.missingDistInfo directory) ↔
      (∃ names, files.list directory = .ok names) ∧ ∀ name, ¬IsCandidate files directory name := by
  cases hlist : files.list directory with
  | error fault => simp [findDirectory_of_list_error hlist]
  | ok names =>
    have hfind := findDirectory_of_list_ok hlist
    simp only [← mem_candidates_iff hlist, ← List.eq_nil_iff_forall_not_mem,
      ← leastName?_eq_none_iff, hfind]
    split
    · next name hleast => simp [hleast]
    · next hnone => simp [hnone]

theorem findDirectory_eq_io_iff {fault : Files.Fault} :
    findDirectory files directory = .error (.io ("reading " ++ directory) fault) ↔
      files.list directory = .error fault := by
  cases hlist : files.list directory with
  | error fault' => simp [findDirectory_of_list_error hlist]
  | ok names =>
    rw [findDirectory_of_list_ok hlist]
    split <;> simp

/-- The order in which the directory is listed makes no difference. -/
theorem findDirectory_of_relisted (h : files.Relisted files') (directory : String) :
    findDirectory files' directory = findDirectory files directory := by
  obtain ⟨fault, hlist, hlist'⟩ | ⟨names, names', hlist, hlist', hperm⟩ := h.list directory
  · rw [findDirectory_of_list_error hlist, findDirectory_of_list_error hlist']
  · simp only [findDirectory_of_list_ok hlist, findDirectory_of_list_ok hlist', h.isDirectory,
      leastName?_perm (hperm.filter _)]

theorem readDirectory_of_relisted (h : files.Relisted files') (directory : String) :
    readDirectory files' directory = readDirectory files directory := by
  simp only [readDirectory, h.readText]

end Descriptor.CoreMetadata
