import Descriptor.Proofs.Files.Path
import Descriptor.Proofs.Files.Walk
import Mathlib.Data.List.Nodup
import Mathlib.Data.List.Perm.Subperm

/-!
# Directories made and removed

What making a directory does to the other files, what stands in a directory that was just made, and
that a directory is gone once it is removed, whatever came to lie in it or on the way to it. Files
that are written meanwhile hold what was written, as long as they lie outside of it.

## Main results

* `FileTree.makeDirectories_keeps`, `FileTree.isDirectory_of_makeDirectories` : what there is after
  directories are made.
* `FileTree.exists_of_makeDirectories` : a new directory with one in it lies where nothing was.
* `FileTree.not_pathExists_removeAll` : a path leads to nothing once what it leads to is removed.
* `FileTree.exists_extend` : what is written to a file stands behind what it held.
* `FileTree.read_removeAll` : files outside of a place that once was free are not removed with it.
-/

namespace Descriptor.Files.FileTree

variable {t t' : FileTree} {follow : Bool} {l m : Location} {path directory name : String}

/-! ### Making -/

/-- Putting an item of the kind of what lies there, or where nothing lies, keeps everything. -/
theorem Keeps.put {item : Item} (hl : l ≠ [])
    (h : ∀ before, t.item? l = some before → SameKind before item) : t.Keeps (t.put l item) where
  item? m before hm := by
    rw [item?_put hl]
    split
    · next heq => exact ⟨item, rfl, h before (heq ▸ hm)⟩
    · exact ⟨before, hm, .refl before⟩
  workingDirectory := rfl

theorem Keeps.put_put {item item' : Item} (hl : l ≠ []) (h : t.Keeps t')
    (hitem : SameKind item item') : (t.put l item).Keeps (t'.put l item') where
  item? m before hm := by
    rw [item?_put hl] at hm ⊢
    split at hm
    · next heq =>
      obtain rfl := Option.some.inj hm
      exact ⟨item', if_pos heq, hitem⟩
    · next hne =>
      rw [if_neg hne]
      exact h.item? m before hm
  workingDirectory := h.workingDirectory

@[simp]
theorem item?_put_self (hl : l ≠ []) (item : Item) : (t.put l item).item? l = some item := by
  rw [item?_put hl, if_pos rfl]

theorem Keeps.put_of_none (h : t.item? l = none) (item : Item) : t.Keeps (t.put l item) :=
  .put (ne_nil_of_item? h) fun before hbefore => by simp [h] at hbefore

/-- A directory is made where nothing lies. -/
theorem makeDirectory_eq_ok_iff :
    t.makeDirectory path = .ok t' ↔
      ∃ l, t.locateFrom false path = .ok l ∧ t.item? l = none ∧ t' = t.put l .directory := by
  unfold makeDirectory
  cases t.locateFrom false path with
  | error fault => simp [Bind.bind, Except.bind]
  | ok l => cases hl : t.item? l <;> simp [Bind.bind, Except.bind, hl, eq_comm]

theorem makeDirectory_keeps (h : t.makeDirectory path = .ok t') : t.Keeps t' := by
  obtain ⟨l, -, hl, rfl⟩ := makeDirectory_eq_ok_iff.mp h
  exact .put_of_none hl _

theorem isDirectory_of_makeDirectory (h : t.makeDirectory path = .ok t') :
    t'.isDirectory path = true := by
  have hkeeps := makeDirectory_keeps h
  obtain ⟨l, hlocate, hl, rfl⟩ := makeDirectory_eq_ok_iff.mp h
  have hlocate' := locate_of_locateFrom hlocate (by simp [hl])
  have hput := item?_put_self (t := t) (ne_nil_of_item? hl) .directory
  exact isDirectory_iff.mpr ⟨l, hkeeps.locateFrom hlocate' (.inr (.inr hput)), hput⟩

theorem ensureDirectory_keeps (h : t.ensureDirectory path = .ok t') :
    t.Keeps t' ∧ t'.isDirectory path = true := by
  unfold ensureDirectory at h
  split at h
  · next hmake =>
    obtain rfl := Except.ok.inj h
    exact ⟨makeDirectory_keeps hmake, isDirectory_of_makeDirectory hmake⟩
  · split at h
    · next hdirectory =>
      obtain rfl := Except.ok.inj h
      exact ⟨.refl t, hdirectory⟩
    · cases h

/-- Making directories keeps everything, and leaves a directory where one was wanted. -/
theorem makeDirectoriesFrom_keeps {fuel : Nat} (h : t.makeDirectoriesFrom fuel path = .ok t') :
    t.Keeps t' ∧ (path ≠ "" → t'.isDirectory path = true) := by
  induction fuel generalizing path t' with
  | zero => cases h
  | succ fuel ih =>
    unfold makeDirectoriesFrom at h
    split at h
    · next hempty =>
      obtain rfl := Except.ok.inj h
      exact ⟨.refl t, fun hne => absurd (String.isEmpty_iff.mp hempty) hne⟩
    · split at h
      · next hmake =>
        obtain rfl := Except.ok.inj h
        exact ⟨makeDirectory_keeps hmake, fun _ => isDirectory_of_makeDirectory hmake⟩
      · split at h
        · cases h
        · next parent _ =>
          cases habove : t.makeDirectoriesFrom fuel parent with
          | error fault => simp [habove, Bind.bind, Except.bind] at h
          | ok above =>
            simp only [habove, Bind.bind, Except.bind] at h
            obtain ⟨hkeeps, hdirectory⟩ := ensureDirectory_keeps h
            exact ⟨(ih habove).1.trans hkeeps, fun _ => hdirectory⟩
      · split at h
        · next hdirectory =>
          obtain rfl := Except.ok.inj h
          exact ⟨.refl t, fun _ => hdirectory⟩
        · cases h

theorem makeDirectories_keeps (h : t.makeDirectories path = .ok t') : t.Keeps t' :=
  (makeDirectoriesFrom_keeps h).1

theorem isDirectory_of_makeDirectories (hpath : path ≠ "") (h : t.makeDirectories path = .ok t') :
    t'.isDirectory path = true :=
  (makeDirectoriesFrom_keeps h).2 hpath

/-! ### Removing -/

theorem item?_of_prune {item : Item} (h : (t.prune l).item? m = some item) :
    t.item? m = some item := by
  by_cases hl : l = []
  · subst hl
    cases m with
    | nil => exact h
    | cons name m =>
      have hentries : (t.prune []).entries = [] := by simp [prune]
      simp [item?, hentries] at h
  · rw [item?_prune hl] at h
    split at h
    · cases h
    · exact h

theorem Keeps.prune (hl : l ≠ []) (h : t.Keeps t') : (t.prune l).Keeps (t'.prune l) where
  item? m item hm := by
    rw [item?_prune hl] at hm ⊢
    split at hm
    · cases hm
    · next hprefix =>
      rw [if_neg hprefix]
      exact h.item? m item hm
  workingDirectory := h.workingDirectory

theorem item?_of_removeAll {item : Item} (h : (t.removeAll path).item? m = some item) :
    t.item? m = some item := by
  unfold removeAll at h
  split at h
  · split at h
    · exact h
    · exact item?_of_prune h
  · exact h

theorem start_removeAll (t : FileTree) (path directory : String) :
    (t.removeAll path).start directory = t.start directory := by
  unfold removeAll
  split
  · split <;> rfl
  · rfl

/-! ### A name in a directory -/

section Entry

variable (hdirectory : directory ≠ "") (hname : IsEntryName name)

include hdirectory hname

theorem start_joinPath (t : FileTree) : t.start (joinPath directory name) = t.start directory := by
  rw [start, start, isAbsolute_joinPath hdirectory hname]

theorem locateFrom_joinPath (t : FileTree) (follow : Bool) :
    t.locateFrom follow (joinPath directory name) =
      t.walk follow linkLimit (t.start directory) (namesTo directory ++ [name]) := by
  rw [locateFrom_of_ne_empty (joinPath_ne_empty hdirectory hname), components_joinPath hdirectory
    hname, start_joinPath hdirectory hname]

/-- A directory in a directory is led to where that one is. -/
theorem Leads.joinPath {links links' : Nat} {place : Location}
    (hleads : Leads t links (t.start directory) (namesTo directory) links' place)
    (hitem : t.item? (place ++ [name]) = some .directory) :
    Leads t links (t.start (joinPath directory name)) (namesTo (joinPath directory name)) links'
      (place ++ [name]) := by
  rw [start_joinPath hdirectory hname, namesTo_joinPath hdirectory hname]
  exact hleads.append (.directory hname.toIsName hitem (.nil _ _))

/-- A name in a directory stands for an entry of the place that the directory leads to. -/
theorem locateFrom_joinPath_eq_ok_iff :
    t.locateFrom false (joinPath directory name) = .ok l ↔
      ∃ links place, Leads t linkLimit (t.start directory) (namesTo directory) links place ∧
        l = place ++ [name] := by
  rw [locateFrom_joinPath hdirectory hname]
  constructor
  · intro hwalk
    obtain ⟨links, place, hleads⟩ | ⟨fault, hfails⟩ :=
      leads_or_fails t linkLimit (t.start directory) (namesTo directory)
    · rw [hleads.walk_append, walk_single hname.toIsName] at hwalk
      exact ⟨links, place, hleads, (Except.ok.inj hwalk).symm⟩
    · rw [hfails false name [] hname.toIsName] at hwalk
      cases hwalk
  · rintro ⟨links, place, hleads, rfl⟩
    rw [hleads.walk_append, walk_single hname.toIsName]

/-- A path that leads to anything leads through a directory. -/
theorem exists_leads_of_pathExists (h : t.pathExists (joinPath directory name) = true) :
    ∃ links place, Leads t linkLimit (t.start directory) (namesTo directory) links place := by
  obtain ⟨item, hitem⟩ := Option.isSome_iff_exists.mp h
  obtain ⟨l, hlocate, -⟩ := itemAt?_eq_some_iff.mp hitem
  rw [locate, locateFrom_joinPath hdirectory hname] at hlocate
  obtain hleads | ⟨fault, hfails⟩ :=
    leads_or_fails t linkLimit (t.start directory) (namesTo directory)
  · exact hleads
  · rw [hfails true name [] hname.toIsName] at hlocate
    cases hlocate

/-- A path that leads to anything leads to an entry, or through a link that is one. -/
theorem item?_of_pathExists {links : Nat} {place : Location}
    (hleads : Leads t linkLimit (t.start directory) (namesTo directory) links place)
    (h : t.pathExists (joinPath directory name) = true) : t.item? (place ++ [name]) ≠ none := by
  intro hnone
  obtain ⟨item, hitem⟩ := Option.isSome_iff_exists.mp h
  obtain ⟨l, hlocate, hl⟩ := itemAt?_eq_some_iff.mp hitem
  rw [locate, locateFrom_joinPath hdirectory hname, hleads.walk_append,
    walk_none hname.toIsName hnone, if_pos (by rfl)] at hlocate
  obtain rfl := Except.ok.inj hlocate
  rw [hnone] at hl
  cases hl

/-- A path leads to nothing once what it leads to is removed. -/
theorem not_pathExists_removeAll (t : FileTree) :
    (t.removeAll (joinPath directory name)).pathExists (joinPath directory name) = false := by
  rw [Bool.eq_false_iff]
  intro hexists
  obtain ⟨links, place, hleads⟩ := exists_leads_of_pathExists hdirectory hname hexists
  have hroot : place ++ [name] ≠ [] := by simp
  -- The way there was there before the removal too, so it was this very place that was cleared.
  have hleads' : Leads t linkLimit (t.start directory) (namesTo directory) links place := by
    have hsub {m : Location} {item : Item}
        (h : (t.removeAll (joinPath directory name)).item? m = some item) :
        t.item? m = some item := item?_of_removeAll h
    exact start_removeAll t _ directory ▸ hleads.mono (fun _ => hsub) fun _ _ => hsub
  refine item?_of_pathExists hdirectory hname hleads hexists ?_
  rw [removeAll, (locateFrom_joinPath_eq_ok_iff hdirectory hname).mpr ⟨links, place, hleads', rfl⟩]
  simp only [List.isEmpty_iff, hroot, if_false]
  rw [item?_prune hroot, if_pos List.prefix_rfl]

/-- A directory that is made lies in the place that its path leads to. -/
theorem makeDirectory_joinPath_eq_ok_iff :
    t.makeDirectory (joinPath directory name) = .ok t' ↔
      ∃ links place, Leads t linkLimit (t.start directory) (namesTo directory) links place ∧
        t.item? (place ++ [name]) = none ∧ t' = t.put (place ++ [name]) .directory := by
  rw [makeDirectory_eq_ok_iff]
  constructor
  · rintro ⟨l, hlocate, hl, rfl⟩
    obtain ⟨links, place, hleads, rfl⟩ :=
      (locateFrom_joinPath_eq_ok_iff hdirectory hname).mp hlocate
    exact ⟨links, place, hleads, hl, rfl⟩
  · rintro ⟨links, place, hleads, hl, rfl⟩
    exact ⟨_, (locateFrom_joinPath_eq_ok_iff hdirectory hname).mpr ⟨links, place, hleads, rfl⟩,
      hl, rfl⟩

/-- Making a directory in one that is there already makes that one only. -/
theorem makeDirectories_joinPath {links : Nat} {place : Location}
    (hleads : Leads t linkLimit (t.start directory) (namesTo directory) links place)
    (h : t.makeDirectories (joinPath directory name) = .ok t') :
    t' = t ∨ t.item? (place ++ [name]) = none ∧ t' = t.put (place ++ [name]) .directory := by
  have hlocate := (locateFrom_joinPath_eq_ok_iff hdirectory hname).mpr ⟨links, place, hleads, rfl⟩
  have hmake : t.makeDirectory (joinPath directory name) =
      if (t.item? (place ++ [name])).isSome then .error .alreadyExists
      else .ok (t.put (place ++ [name]) .directory) := by
    rw [makeDirectory, hlocate]
    rfl
  rw [makeDirectories, makeDirectoriesFrom,
    if_neg (by simpa using joinPath_ne_empty hdirectory hname), hmake] at h
  split at h
  · next hok =>
    split at hok
    · cases hok
    · next hnone =>
      exact .inr ⟨by simpa using hnone, (Except.ok.inj (hok.trans h)).symm⟩
  · next herror => split at herror <;> cases herror
  · split at h
    · exact .inl (Except.ok.inj h).symm
    · cases h

/-- A directory that is made and one that is made in it come to lie where nothing was, and nothing
changes elsewhere. -/
theorem exists_of_makeDirectories {made ready : FileTree} {inner : String}
    (hinner : IsEntryName inner) (hmake : t.makeDirectory (joinPath directory name) = .ok made)
    (htarget : made.makeDirectories (joinPath (joinPath directory name) inner) = .ok ready) :
    ∃ m, t.locateFrom false (joinPath directory name) = .ok m ∧ t.item? m = none ∧
      ready.locateFrom false (joinPath directory name) = .ok m ∧ ready.item? m = some .directory ∧
      ∀ l, ¬m <+: l → ready.item? l = t.item? l := by
  have hne := joinPath_ne_empty hdirectory hname
  obtain ⟨links, place, hleads, hfree, rfl⟩ :=
    (makeDirectory_joinPath_eq_ok_iff hdirectory hname).mp hmake
  have hroot : place ++ [name] ≠ [] := by simp
  have hitem := item?_put_self (t := t) hroot .directory
  have hready : (t.put (place ++ [name]) .directory).Keeps ready := makeDirectories_keeps htarget
  have hlocate {u : FileTree} (hkeeps : t.Keeps u) :
      u.locateFrom false (joinPath directory name) = .ok (place ++ [name]) :=
    (locateFrom_joinPath_eq_ok_iff hdirectory hname).mpr
      ⟨links, place, hkeeps.start directory ▸ hleads.keeps hkeeps, rfl⟩
  have hmade := Keeps.put_of_none hfree .directory
  refine ⟨place ++ [name], hlocate (.refl t), hfree, hlocate (hmade.trans hready),
    hready.directory hitem, fun l hl => ?_⟩
  have houtside : (t.put (place ++ [name]) .directory).item? l = t.item? l := by
    rw [item?_put hroot, if_neg]
    rintro rfl
    exact hl List.prefix_rfl
  have hleads' := (hmade.start directory ▸ hleads.keeps hmade).joinPath hdirectory hname hitem
  obtain rfl | ⟨-, rfl⟩ := makeDirectories_joinPath hne hinner hleads' htarget
  · exact houtside
  · rw [item?_put (by simp), if_neg, houtside]
    rintro rfl
    exact hl (List.prefix_append _ _)

end Entry

/-! ### Files that are read and written meanwhile -/

section Contents

variable {base : FileTree} {bytes before more : List UInt8} {scratch : String}

theorem read_eq_ok_iff :
    t.read path = .ok bytes ↔
      ∃ l executable, t.locate path = .ok l ∧ t.item? l = some (.file bytes executable) := by
  unfold read find
  cases t.locate path with
  | error fault => simp [Bind.bind, Except.bind]
  | ok l =>
    cases hl : t.item? l with
    | none => simp [Bind.bind, Except.bind, hl]
    | some item =>
      cases item with
      | file bytes' executable => cases executable <;> simp [Bind.bind, Except.bind, hl]
      | locked | directory | link target => simp [Bind.bind, Except.bind, hl]

theorem findWritable_eq_ok_iff {executable : Bool} :
    t.findWritable path = .ok (l, bytes, executable) ↔
      t.locate path = .ok l ∧
        (t.item? l = some (.file bytes executable) ∨
          t.item? l = none ∧ path.toList.getLast? ≠ some '/' ∧ bytes = [] ∧
            executable = false) := by
  unfold findWritable
  cases t.locate path with
  | error fault => simp [Bind.bind, Except.bind]
  | ok m =>
    simp only [Bind.bind, Except.bind, Except.ok.injEq]
    constructor
    · intro h
      split at h
      · next hm =>
        cases h
        exact ⟨rfl, .inl hm⟩
      · cases h
      · cases h
      · next hm =>
        split at h
        · cases h
        · next hlast =>
          cases h
          exact ⟨rfl, .inr ⟨hm, hlast, rfl, rfl⟩⟩
    · rintro ⟨rfl, hm | ⟨hm, hlast, rfl, rfl⟩⟩
      · simp only [hm]
      · simp only [hm, if_neg hlast]

theorem extend_eq_ok_iff :
    t.extend path more = .ok t' ↔
      ∃ l bytes executable, t.findWritable path = .ok (l, bytes, executable) ∧
        t' = t.put l (.file (bytes ++ more) executable) := by
  unfold extend
  cases t.findWritable path with
  | error fault => simp [Bind.bind, Except.bind]
  | ok found =>
    obtain ⟨l, bytes, executable⟩ := found
    cases executable <;> simp [Bind.bind, Except.bind, eq_comm]

theorem ne_nil_of_findWritable {executable : Bool}
    (h : t.findWritable path = .ok (l, bytes, executable)) : l ≠ [] := by
  rintro rfl
  obtain ⟨-, hitem⟩ := findWritable_eq_ok_iff.mp h
  simp at hitem

/-- Writing behind what a file holds keeps everything. -/
theorem extend_keeps (h : t.extend path more = .ok t') : t.Keeps t' := by
  obtain ⟨l, bytes, executable, hwritable, rfl⟩ := extend_eq_ok_iff.mp h
  refine .put (ne_nil_of_findWritable hwritable) fun before hbefore => ?_
  obtain ⟨-, hitem | ⟨hitem, -⟩⟩ := findWritable_eq_ok_iff.mp hwritable
  · obtain rfl := Option.some.inj (hbefore.symm.trans hitem)
    exact .file ..
  · exact absurd (hbefore.symm.trans hitem) (by simp)

/-- What is written behind what a file holds stands there. -/
theorem exists_extend_of_read (h : t.read path = .ok before) (more : List UInt8) :
    ∃ files, t.extend path more = .ok files ∧ files.read path = .ok (before ++ more) := by
  obtain ⟨l, executable, hlocate, hitem⟩ := read_eq_ok_iff.mp h
  have hwritable := findWritable_eq_ok_iff.mpr ⟨hlocate, .inl hitem⟩
  have hextend : t.extend path more = .ok (t.put l (.file (before ++ more) executable)) :=
    extend_eq_ok_iff.mpr ⟨l, before, executable, hwritable, rfl⟩
  exact ⟨_, hextend, read_eq_ok_iff.mpr ⟨l, executable,
    (extend_keeps hextend).locateFrom hlocate (.inl (by simp [hitem])),
    item?_put_self (ne_nil_of_findWritable hwritable) _⟩⟩

/-- What is written to a file in a tree that keeps another one, in which the file was not touched,
stands behind what it holds in that one. -/
theorem exists_extend {files : FileTree} (hkeeps : t.Keeps t') (hlocate : t.locate path = .ok l)
    (hsame : t'.item? l = t.item? l) (hextend : t.extend path [] = .ok files)
    (hread : files.read path = .ok before) (more : List UInt8) :
    ∃ files', t'.extend path more = .ok files' ∧ files.Keeps files' ∧ t'.Keeps files' ∧
      files'.read path = .ok (before ++ more) := by
  obtain ⟨l', bytes, executable, hwritable, rfl⟩ := extend_eq_ok_iff.mp hextend
  obtain ⟨hlocate', hitem⟩ := findWritable_eq_ok_iff.mp hwritable
  obtain rfl : l = l' := Except.ok.inj (hlocate.symm.trans hlocate')
  have hl := ne_nil_of_findWritable hwritable
  have hwritable' : t'.findWritable path = .ok (l, bytes, executable) := by
    refine findWritable_eq_ok_iff.mpr ⟨hkeeps.locateFrom hlocate ?_, hsame ▸ hitem⟩
    rcases hitem with hitem | ⟨hitem, -⟩
    · exact .inl (by simp [hitem])
    · exact .inr (.inl (hsame.trans hitem))
  have hextend' : t'.extend path more = .ok (t'.put l (.file (bytes ++ more) executable)) :=
    extend_eq_ok_iff.mpr ⟨l, bytes, executable, hwritable', rfl⟩
  have hput := item?_put_self (t := t) hl (Item.file (bytes ++ []) executable)
  -- Where the file can be read once it is there, its path leads to the place it is put.
  obtain ⟨l', _, hread', hitem'⟩ := read_eq_ok_iff.mp hread
  obtain rfl : l' = l := (extend_keeps hextend).locateFrom_of_file hlocate hput hread'
  obtain ⟨hbytes, -⟩ := Item.file.inj (Option.some.inj (hput.symm.trans hitem'))
  have hkeeps' := hkeeps.put_put hl (.file (bytes ++ []) (bytes ++ more) executable executable)
  refine ⟨_, hextend', hkeeps', extend_keeps hextend',
    read_eq_ok_iff.mpr ⟨l', executable, hkeeps'.locateFrom hread' (.inl (by rw [hput]; rfl)), ?_⟩⟩
  rw [item?_put_self hl, ← hbytes, List.append_nil]

/-- A file that is to be written lies outside of every free place, unless it is put right there. -/
theorem WellFormed.not_prefix_of_locate (h : t.WellFormed) (hfree : t.item? m = none)
    (hlocate : t.locate path = .ok l) (hne : l ≠ m) : ¬m <+: l := by
  rw [locate, locateFrom_of_ne_empty (ne_empty_of_locateFrom hlocate)] at hlocate
  exact fun hprefix =>
    hne (eq_of_prefix_of_walk hfree (h.not_prefix_start hfree path) hlocate hprefix)

/-- Files outside of a place that once was free are not removed with what came to lie there. -/
theorem read_removeAll (hfree : t.item? m = none) (hstart : ¬m <+: t.start path)
    (hbefore : t.read path = .ok before) (hkeeps : t.Keeps t')
    (hscratch : t'.locateFrom false scratch = .ok m) (hread : t'.read path = .ok bytes) :
    (t'.removeAll scratch).read path = .ok bytes := by
  have hroot := ne_nil_of_item? hfree
  obtain ⟨l, _, hlocate, hl⟩ := read_eq_ok_iff.mp hbefore
  obtain ⟨l', executable, hlocate', hl'⟩ := read_eq_ok_iff.mp hread
  have hpath := ne_empty_of_locateFrom hlocate
  obtain rfl : l = l' := Except.ok.inj
    ((hkeeps.locateFrom hlocate (.inl (by simp [hl]))).symm.trans hlocate')
  have houtside : ¬m <+: l := by
    intro hprefix
    rw [locate, locateFrom_of_ne_empty hpath] at hlocate
    obtain rfl := eq_of_prefix_of_walk hfree hstart hlocate hprefix
    rw [hfree] at hl
    cases hl
  -- The way to the file does not lead through what is cleared: it was there before that was.
  have hpruned : (t.prune m).locate path = .ok l := by
    rw [locate, locateFrom_of_ne_empty hpath] at hlocate ⊢
    exact (walk_prune hfree hstart).trans hlocate
  have hitem : (t.prune m).item? l = t.item? l := by rw [item?_prune hroot, if_neg houtside]
  rw [removeAll, hscratch]
  simp only [List.isEmpty_iff, hroot, if_false]
  refine read_eq_ok_iff.mpr ⟨l, executable, (hkeeps.prune hroot).locateFrom hpruned (.inl ?_), ?_⟩
  · simp [hitem, hl]
  · rw [item?_prune hroot, if_neg houtside, hl']

end Contents

end Descriptor.Files.FileTree
