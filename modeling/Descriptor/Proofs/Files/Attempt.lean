import Descriptor.Proofs.Files.Change

/-!
# Directories that are attempted

An attempt to make a directory may fail on the way, with some of the directories above it made. All
that it does, whether it fails or not, is to add directories where nothing lay.

## Main definitions

* `FileTree.AddsDirectories` : trees that differ in directories where nothing lay.

## Main results

* `FileTree.attemptDirectories_adds` : an attempt adds directories at most.
* `FileTree.AddsDirectories.read`, `FileTree.AddsDirectories.locate` : what added directories leave
  as it was.
-/

namespace Descriptor.Files.FileTree

variable {t t' : FileTree} {l : Location} {path : String} {bytes : List UInt8}

/-- A tree in which directories may lie where nothing lay in another one, and nothing else is
different. -/
structure AddsDirectories (t t' : FileTree) : Prop where
  item? : ∀ l, t'.item? l = t.item? l ∨ t.item? l = none ∧ t'.item? l = some .directory
  workingDirectory : t'.workingDirectory = t.workingDirectory

theorem AddsDirectories.refl (t : FileTree) : t.AddsDirectories t := ⟨fun _ => .inl rfl, rfl⟩

theorem AddsDirectories.trans {t'' : FileTree} (h : t.AddsDirectories t')
    (h' : t'.AddsDirectories t'') : t.AddsDirectories t'' where
  item? l := by
    obtain heq' | ⟨hnone', hdirectory'⟩ := h'.item? l
    · rw [heq']
      exact h.item? l
    · obtain heq | ⟨hnone, hdirectory⟩ := h.item? l
      · exact .inr ⟨heq ▸ hnone', hdirectory'⟩
      · exact .inr ⟨hnone, hdirectory'⟩
  workingDirectory := h'.workingDirectory.trans h.workingDirectory

theorem AddsDirectories.of_some {item : Item} (h : t.AddsDirectories t')
    (hitem : t.item? l = some item) : t'.item? l = some item := by
  obtain heq | ⟨hnone, -⟩ := h.item? l
  · rw [heq, hitem]
  · rw [hnone] at hitem
    cases hitem

theorem AddsDirectories.keeps (h : t.AddsDirectories t') : t.Keeps t' where
  item? _ item hitem := ⟨item, h.of_some hitem, .refl item⟩
  workingDirectory := h.workingDirectory

theorem addsDirectories_of_makeDirectory (h : t.makeDirectory path = .ok t') :
    t.AddsDirectories t' := by
  obtain ⟨l, -, hl, rfl⟩ := makeDirectory_eq_ok_iff.mp h
  refine ⟨fun m => ?_, rfl⟩
  rw [item?_put (ne_nil_of_item? hl)]
  split
  · next hm => exact .inr ⟨hm ▸ hl, rfl⟩
  · exact .inl rfl

theorem addsDirectories_of_ensureDirectory (h : t.ensureDirectory path = .ok t') :
    t.AddsDirectories t' := by
  unfold ensureDirectory at h
  split at h
  · next hmake =>
    obtain rfl := Except.ok.inj h
    exact addsDirectories_of_makeDirectory hmake
  · split at h
    · obtain rfl := Except.ok.inj h
      exact .refl t
    · cases h

/-- An attempt that succeeds leaves the directories. -/
theorem attemptDirectoriesFrom_of_ok {fuel : Nat} (h : t.makeDirectoriesFrom fuel path = .ok t') :
    t.attemptDirectoriesFrom fuel path = t' := by
  cases fuel with
  | zero => cases h
  | succ fuel =>
    unfold makeDirectoriesFrom at h
    unfold attemptDirectoriesFrom
    split at h
    · next hempty => rw [if_pos hempty, Except.ok.inj h]
    · next hempty =>
      rw [if_neg hempty]
      split at h
      · exact Except.ok.inj h
      · split at h
        · cases h
        · next parent _ =>
          cases habove : t.makeDirectoriesFrom fuel parent with
          | error fault => simp [habove, Bind.bind, Except.bind] at h
          | ok above =>
            simp only [habove, Bind.bind, Except.bind] at h
            simp only [h, Except.toOption, Option.getD_some]
      · split at h
        · exact Except.ok.inj h
        · cases h

/-- An attempt to make a directory adds directories at most. -/
theorem attemptDirectoriesFrom_adds (fuel : Nat) (t : FileTree) (path : String) :
    t.AddsDirectories (t.attemptDirectoriesFrom fuel path) := by
  induction fuel generalizing path with
  | zero => exact .refl t
  | succ fuel ih =>
    unfold attemptDirectoriesFrom
    split
    · exact .refl t
    · split
      · next hmake => exact addsDirectories_of_makeDirectory hmake
      · split
        · exact .refl t
        · next parent _ =>
          split
          · next above habove =>
            have hadds := attemptDirectoriesFrom_of_ok habove ▸ ih parent
            cases hensure : above.ensureDirectory path with
            | error fault => exact hadds
            | ok made => exact hadds.trans (addsDirectories_of_ensureDirectory hensure)
          · exact ih parent
      · exact .refl t

theorem attemptDirectories_adds (t : FileTree) (path : String) :
    t.AddsDirectories (t.attemptDirectories path) :=
  attemptDirectoriesFrom_adds _ t path

/-- A file that is there is read as before. -/
theorem AddsDirectories.read (h : t.AddsDirectories t') (hread : t.read path = .ok bytes) :
    t'.read path = .ok bytes := by
  obtain ⟨l, executable, hlocate, hitem⟩ := read_eq_ok_iff.mp hread
  exact read_eq_ok_iff.mpr
    ⟨l, executable, h.keeps.locateFrom hlocate (.inl (by simp [hitem])), h.of_some hitem⟩

/-- A place where nothing or a directory lies is led to as before, and so does there. -/
theorem AddsDirectories.locate (h : t.AddsDirectories t') (hlocate : t.locate path = .ok l)
    (hl : t.item? l = none ∨ t.item? l = some .directory) :
    t'.locate path = .ok l ∧ (t'.item? l = none ∨ t'.item? l = some .directory) := by
  have hl' : t'.item? l = none ∨ t'.item? l = some .directory := by
    obtain heq | ⟨-, hdirectory⟩ := h.item? l
    · rwa [heq]
    · exact .inr hdirectory
  exact ⟨h.keeps.locateFrom hlocate (.inr hl'), hl'⟩

end Descriptor.Files.FileTree
