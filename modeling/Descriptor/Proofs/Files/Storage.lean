import Descriptor.Proofs.Files.Change
import Descriptor.Proofs.Text.Utf8

/-!
# Files that are written

A file holds what was last written to it, as long as its path leads to it. What is written to
another file meanwhile changes neither, and a directory that is there is not made again.

## Main definitions

* `FileTree.SameShape` : trees that differ in what files hold only.

## Main results

* `FileTree.makeDirectories_of_isDirectory` : making a directory that is there changes nothing.
* `FileTree.read_of_write` : a file holds what was written to it.
* `FileTree.exists_write_of_write` : where something can be written, anything can.
* `FileTree.readText_of_read` : a file that holds the bytes of a text holds the text.
* `FileTree.locate_name` : where a name alone leads.
* `FileTree.not_pathExists_removeFile` : a path leads to nothing once its file is removed.
* `FileTree.read_extend_of_ne`, `FileTree.locate_extend_ne` : files that are added to leave others
  alone, and stay others.
-/

namespace Descriptor.Files.FileTree

variable {t t' : FileTree} {links : Nat} {place l : Location} {names : List String}
  {name path other : String} {bytes more : List UInt8}

/-! ### Directories that are there -/

/-- Where something lies, a path leads to an entry as well when a link in the last place is not
followed. -/
theorem exists_walk_of_follow (hwalk : t.walk true links place names = .ok l)
    (hl : t.item? l ≠ none) :
    ∃ m, t.walk false links place names = .ok m ∧ t.item? m ≠ none := by
  fun_induction FileTree.walk t true links place names with
  | case1 =>
    obtain rfl := Except.ok.inj hwalk
    exact ⟨_, by rw [FileTree.walk], hl⟩
  | case2 links place name rest hblank ih =>
    rw [walk_blank hblank]
    exact ih hwalk
  | case3 links place rest _ ih =>
    rw [walk_up]
    exact ih hwalk
  | case4 links place name rest hblank hup hitem _ =>
    obtain rfl := Except.ok.inj hwalk
    exact absurd hitem hl
  | case5 => simp only [reduceCtorEq] at hwalk
  | case6 links place name rest hblank hup hitem ih =>
    rw [walk_directory (.of_not hblank hup) hitem]
    exact ih hwalk
  | case7 links place name rest hblank hup _ _ hitem hrest
  | case9 links place name rest hblank hup hitem hrest =>
    exact ⟨_, by rw [walk_file (.of_not hblank hup) hitem rfl, if_pos hrest], by simp [hitem]⟩
  | case8 | case10 => simp only [reduceCtorEq] at hwalk
  | case11 links place name rest hblank hup target hitem hlast => exact absurd rfl hlast.2
  | case12 => simp only [reduceCtorEq] at hwalk
  | case13 place name rest hblank hup target hitem hlast links ih =>
    by_cases hrest : rest.isEmpty = true
    · have hend : rest.isEmpty = true ∧ ¬false = true := ⟨hrest, Bool.false_ne_true⟩
      exact ⟨_, walk_link_last (.of_not hblank hup) hitem hend, by simp [hitem]⟩
    · rw [walk_link (.of_not hblank hup) hitem fun h => hrest h.1]
      exact ih hwalk

/-- Making a directory that is there changes nothing. -/
theorem makeDirectories_of_isDirectory (h : t.isDirectory path = true) :
    t.makeDirectories path = .ok t := by
  obtain ⟨l, hlocate, hl⟩ := isDirectory_iff.mp h
  have hpath := ne_empty_of_locateFrom hlocate
  rw [locate, locateFrom_of_ne_empty hpath] at hlocate
  obtain ⟨m, hwalk, hm⟩ := exists_walk_of_follow hlocate (by simp [hl])
  have hmake : t.makeDirectory path = .error .alreadyExists := by
    rw [makeDirectory, locateFrom_of_ne_empty hpath, hwalk]
    exact if_pos (Option.isSome_iff_ne_none.mpr hm)
  rw [makeDirectories, makeDirectoriesFrom, if_neg (by simpa using hpath), hmake]
  exact if_pos h

/-! ### Trees of the same shape -/

/-- Trees that differ in what files hold only. -/
structure SameShape (t t' : FileTree) : Prop where
  keeps : t.Keeps t'
  kept : t'.Keeps t

theorem SameShape.symm (h : t.SameShape t') : t'.SameShape t := ⟨h.kept, h.keeps⟩

theorem SameShape.item?_eq_none (h : t.SameShape t') (hl : t.item? l = none) :
    t'.item? l = none := by
  by_contra hsome
  obtain ⟨item, hitem⟩ := Option.ne_none_iff_exists'.mp hsome
  obtain ⟨item', hitem', -⟩ := h.kept.item? l item hitem
  simp [hl] at hitem'

/-- Paths lead to the same places. -/
theorem SameShape.locate (h : t.SameShape t') (hlocate : t.locate path = .ok l) :
    t'.locate path = .ok l := by
  refine h.keeps.locateFrom hlocate ?_
  cases hl : t.item? l with
  | none => exact .inr (.inl (h.item?_eq_none hl))
  | some item => exact .inl rfl

theorem SameShape.locate_ne (h : t.SameShape t') (hlocate : t.locate path = .ok l)
    (hne : t.locate other ≠ t.locate path) : t'.locate other ≠ t'.locate path := by
  rw [h.locate hlocate]
  intro hother
  exact hne ((h.symm.locate hother).trans hlocate.symm)

theorem sameShape_put_file (hl : l ≠ []) (bytes bytes' : List UInt8) (executable : Bool) :
    (t.put l (.file bytes executable)).SameShape (t.put l (.file bytes' executable)) :=
  ⟨(Keeps.refl t).put_put hl (.file ..), (Keeps.refl t).put_put hl (.file ..)⟩

theorem sameShape_put_of_file {executable executable' : Bool} (bytes' : List UInt8)
    (hitem : t.item? l = some (.file bytes executable)) (hl : l ≠ []) :
    t.SameShape (t.put l (.file bytes' executable')) where
  keeps := .put hl fun before hbefore => by
    obtain rfl := Option.some.inj (hbefore.symm.trans hitem)
    exact .file ..
  kept :=
    { item? := fun m item hm => by
        rw [item?_put hl] at hm
        split at hm
        · next heq =>
          obtain rfl := Option.some.inj hm
          exact ⟨_, heq ▸ hitem, .file ..⟩
        · exact ⟨item, hm, .refl item⟩
      workingDirectory := rfl }

/-! ### Writing -/

theorem write_eq_ok_iff :
    t.write path bytes = .ok t' ↔
      ∃ l before executable, t.findWritable path = .ok (l, before, executable) ∧
        t' = t.put l (.file bytes executable) := by
  unfold write
  cases t.findWritable path with
  | error fault => simp [Bind.bind, Except.bind]
  | ok found =>
    obtain ⟨l, before, executable⟩ := found
    cases executable <;> simp [Bind.bind, Except.bind, eq_comm]

theorem isFile_iff :
    t.isFile path = true ↔
      ∃ l item, t.locate path = .ok l ∧ t.item? l = some item ∧ item.isRegular = true := by
  unfold isFile
  constructor
  · intro h
    split at h
    · next item hitem =>
      obtain ⟨l, hlocate, hl⟩ := itemAt?_eq_some_iff.mp hitem
      exact ⟨l, item, hlocate, hl, h⟩
    · cases h
  · rintro ⟨l, item, hlocate, hl, hregular⟩
    rw [itemAt?_eq_some_iff.mpr ⟨l, hlocate, hl⟩]
    exact hregular

theorem isFile_of_read (h : t.read path = .ok bytes) : t.isFile path = true := by
  obtain ⟨l, executable, hlocate, hl⟩ := read_eq_ok_iff.mp h
  exact isFile_iff.mpr ⟨l, _, hlocate, hl, rfl⟩

theorem pathExists_of_isFile (h : t.isFile path = true) : t.pathExists path = true := by
  obtain ⟨l, item, hlocate, hl, -⟩ := isFile_iff.mp h
  exact Option.isSome_iff_exists.mpr ⟨item, itemAt?_eq_some_iff.mpr ⟨l, hlocate, hl⟩⟩

/-- Writing to a file keeps everything. -/
theorem write_keeps (h : t.write path bytes = .ok t') : t.Keeps t' := by
  obtain ⟨l, bytes, executable, hwritable, rfl⟩ := write_eq_ok_iff.mp h
  refine .put (ne_nil_of_findWritable hwritable) fun before hbefore => ?_
  obtain ⟨-, hitem | ⟨hitem, -⟩⟩ := findWritable_eq_ok_iff.mp hwritable
  · obtain rfl := Option.some.inj (hbefore.symm.trans hitem)
    exact .file ..
  · exact absurd (hbefore.symm.trans hitem) (by simp)

/-- A file holds what was written to it, if its path leads to a file then. -/
theorem read_of_write (h : t.write path bytes = .ok t') (hfile : t'.isFile path = true) :
    t'.read path = .ok bytes := by
  have hkeeps := write_keeps h
  obtain ⟨l, before, executable, hwritable, rfl⟩ := write_eq_ok_iff.mp h
  obtain ⟨hlocate, -⟩ := findWritable_eq_ok_iff.mp hwritable
  have hput := item?_put_self (t := t) (ne_nil_of_findWritable hwritable) (.file bytes executable)
  obtain ⟨m, _, hlocate', -⟩ := isFile_iff.mp hfile
  obtain rfl := hkeeps.locateFrom_of_file hlocate hput hlocate'
  exact read_eq_ok_iff.mpr ⟨m, executable, hlocate', hput⟩

/-- Where one text can be written, any other can. -/
theorem exists_write_of_write (h : t.write path bytes = .ok t') (hfile : t'.isFile path = true)
    (more : List UInt8) :
    ∃ t'', t.write path more = .ok t'' ∧ t''.read path = .ok more ∧ t'.SameShape t'' := by
  have hread := read_of_write h hfile
  obtain ⟨l, before, executable, hwritable, rfl⟩ := write_eq_ok_iff.mp h
  have hl := ne_nil_of_findWritable hwritable
  have hshape := sameShape_put_file (t := t) hl bytes more executable
  have hwrite : t.write path more = .ok (t.put l (.file more executable)) :=
    write_eq_ok_iff.mpr ⟨l, before, executable, hwritable, rfl⟩
  refine ⟨_, hwrite, read_of_write hwrite ?_, hshape⟩
  obtain ⟨m, _, hlocate, hitem⟩ := read_eq_ok_iff.mp hread
  obtain ⟨bytes', executable', hitem'⟩ := hshape.keeps.file hitem
  exact isFile_iff.mpr ⟨m, _, hshape.locate hlocate, hitem', rfl⟩

/-- A file that is there can be written. -/
theorem exists_write_of_read (h : t.read path = .ok bytes) (more : List UInt8) :
    ∃ t', t.write path more = .ok t' ∧ t'.read path = .ok more ∧ t.SameShape t' := by
  obtain ⟨l, executable, hlocate, hitem⟩ := read_eq_ok_iff.mp h
  have hwritable := findWritable_eq_ok_iff.mpr ⟨hlocate, .inl hitem⟩
  have hl := ne_nil_of_findWritable hwritable
  have hwrite : t.write path more = .ok (t.put l (.file more executable)) :=
    write_eq_ok_iff.mpr ⟨l, bytes, executable, hwritable, rfl⟩
  have hshape : t.SameShape (t.put l (.file more executable)) :=
    sameShape_put_of_file more hitem hl
  exact ⟨_, hwrite, read_eq_ok_iff.mpr ⟨l, executable, hshape.locate hlocate, item?_put_self hl _⟩,
    hshape⟩

/-- A file that was not there holds what was added to it, if its path leads to a file then. -/
theorem read_extend_of_not_pathExists (hfree : t.pathExists path = false)
    (hextend : t.extend path bytes = .ok t') (hfile : t'.isFile path = true) :
    t'.read path = .ok bytes := by
  have hkeeps := extend_keeps hextend
  obtain ⟨l, before, executable, hwritable, rfl⟩ := extend_eq_ok_iff.mp hextend
  have hl := ne_nil_of_findWritable hwritable
  obtain ⟨hlocate, hitem | ⟨-, -, rfl, -⟩⟩ := findWritable_eq_ok_iff.mp hwritable
  · have hsome := itemAt?_eq_some_iff.mpr ⟨l, hlocate, hitem⟩
    rw [pathExists, hsome] at hfree
    cases hfree
  · have hput := item?_put_self (t := t) hl (.file ([] ++ bytes) executable)
    obtain ⟨m, _, hlocate', -⟩ := isFile_iff.mp hfile
    obtain rfl := hkeeps.locateFrom_of_file hlocate hput hlocate'
    exact read_eq_ok_iff.mpr ⟨m, executable, hlocate', hput⟩

/-! ### Removing -/

/-- A file or link is removed as everything is that lies where a path leads. -/
theorem removeAll_of_removeFile (h : t.removeFile path = .ok t') : t.removeAll path = t' := by
  unfold removeFile at h
  cases hlocate : t.locateFrom false path with
  | error fault => simp [hlocate, Bind.bind, Except.bind] at h
  | ok l =>
    simp only [hlocate, Bind.bind, Except.bind] at h
    split at h
    · cases h
    · cases h
    · cases h
    · next item hdirectory _ hitem =>
      have hl : l ≠ [] := by
        rintro rfl
        exact hdirectory (Option.some.inj hitem).symm
      rw [removeAll, hlocate]
      simp only [List.isEmpty_iff, hl, if_false]
      exact Except.ok.inj h

/-! ### Texts -/

/-- A file that holds the bytes of a text holds that text. -/
theorem readText_of_read {text : String} (h : t.read path = .ok (Text.encodeUtf8 text.toList)) :
    t.readText path = .ok text := by
  simp only [readText, h, Bind.bind, Except.bind, Text.decodeUtf8?_encodeUtf8,
    String.ofList_toList]

theorem isFile_of_readText {text : String} (h : t.readText path = .ok text) :
    t.isFile path = true := by
  cases hread : t.read path with
  | error fault => simp [readText, hread, Bind.bind, Except.bind] at h
  | ok bytes => exact isFile_of_read hread

/-! ### Entries of the working directory -/

section Name

variable (hname : IsEntryName name)

include hname

/-- A name alone leads to the entry that has it where relative paths start, unless that is a
link. -/
theorem locate_name
    (hlink : ∀ target, t.item? (t.workingDirectory ++ [name]) ≠ some (.link target)) :
    t.locate name = .ok (t.workingDirectory ++ [name]) := by
  refine locate_of_locateFrom ?_ hlink
  rw [locateFrom_of_ne_empty hname.ne_empty, start, hname.isAbsolute, if_neg Bool.false_ne_true,
    components_of_not_mem hname.plain, walk_single hname.toIsName]

/-- What a name alone leads to is what lies there. -/
theorem itemAt?_name
    (hlink : ∀ target, t.item? (t.workingDirectory ++ [name]) ≠ some (.link target)) :
    t.itemAt? name = t.item? (t.workingDirectory ++ [name]) := by
  ext item
  rw [itemAt?_eq_some_iff]
  constructor
  · rintro ⟨l, hlocate, hl⟩
    obtain rfl := Except.ok.inj ((locate_name hname hlink).symm.trans hlocate)
    exact hl
  · exact fun hitem => ⟨_, locate_name hname hlink, hitem⟩

theorem read_name {executable : Bool}
    (hitem : t.item? (t.workingDirectory ++ [name]) = some (.file bytes executable)) :
    t.read name = .ok bytes :=
  read_eq_ok_iff.mpr ⟨_, executable, locate_name hname (by simp [hitem]), hitem⟩

/-- A file can be made under a name that nothing has. -/
theorem write_name (hitem : t.item? (t.workingDirectory ++ [name]) = none) (bytes : List UInt8) :
    t.write name bytes = .ok (t.put (t.workingDirectory ++ [name]) (.file bytes false)) :=
  write_eq_ok_iff.mpr ⟨_, [], false, findWritable_eq_ok_iff.mpr
    ⟨locate_name hname (by simp [hitem]), .inr ⟨hitem, hname.getLast?_ne, rfl, rfl⟩⟩, rfl⟩

/-- What is added under a name that nothing has is all that the file holds. -/
theorem extend_name (hitem : t.item? (t.workingDirectory ++ [name]) = none)
    (bytes : List UInt8) :
    t.extend name bytes = .ok (t.put (t.workingDirectory ++ [name]) (.file bytes false)) :=
  extend_eq_ok_iff.mpr ⟨_, [], false, findWritable_eq_ok_iff.mpr
    ⟨locate_name hname (by simp [hitem]), .inr ⟨hitem, hname.getLast?_ne, rfl, rfl⟩⟩, rfl⟩

/-- A name in the directory that relative paths start from leads where it leads alone. -/
theorem locateFrom_joinPath_dot (t : FileTree) (follow : Bool) :
    t.locateFrom follow (joinPath "." name) = t.locateFrom follow name := by
  have hstart : t.start "." = t.start name := by
    rw [start, start, hname.isAbsolute]
    rfl
  rw [locateFrom_joinPath (by decide) hname, locateFrom_of_ne_empty hname.ne_empty,
    components_of_not_mem hname.plain, hstart]
  exact walk_blank (.inr rfl)

/-- A name in the directory that relative paths start from stands for what it stands for alone. -/
theorem find_joinPath_dot (t : FileTree) : t.find (joinPath "." name) = t.find name := by
  rw [find, locate, locateFrom_joinPath_dot hname, find, locate]

theorem itemAt?_joinPath_dot (t : FileTree) : t.itemAt? (joinPath "." name) = t.itemAt? name := by
  rw [itemAt?, find_joinPath_dot hname, itemAt?]

theorem read_joinPath_dot (t : FileTree) : t.read (joinPath "." name) = t.read name := by
  rw [read, find_joinPath_dot hname, read]

/-- A path leads to nothing once the file or link that it leads to is removed. -/
theorem not_pathExists_removeFile {directory : String}
    (h : t.removeFile (joinPath directory name) = .ok t') :
    t'.pathExists (joinPath directory name) = false := by
  obtain rfl := removeAll_of_removeFile h
  by_cases hdirectory : directory = ""
  · have halone : joinPath directory name = name := by
      rw [joinPath, hdirectory, if_pos (by simp)]
    have hremoved : t.removeAll name = t.removeAll (joinPath "." name) := by
      rw [removeAll, removeAll, locateFrom_joinPath_dot hname]
    rw [halone, pathExists, ← itemAt?_joinPath_dot hname, hremoved]
    exact not_pathExists_removeAll (by decide) hname t
  · exact not_pathExists_removeAll hdirectory hname t

end Name

/-! ### Other files -/

section Other

variable (hread : t.read path = .ok bytes) (hne : t.locate other ≠ t.locate path)
  (hextend : t.extend other more = .ok t')

include hread hne hextend

/-- What is added to a file leaves other files alone. -/
theorem read_extend_of_ne : t'.read path = .ok bytes := by
  have hkeeps := extend_keeps hextend
  obtain ⟨l, executable, hlocate, hitem⟩ := read_eq_ok_iff.mp hread
  obtain ⟨m, _, _, hwritable, rfl⟩ := extend_eq_ok_iff.mp hextend
  obtain ⟨hother, -⟩ := findWritable_eq_ok_iff.mp hwritable
  have hml : m ≠ l := fun h => hne (hother.trans (h ▸ hlocate.symm))
  refine read_eq_ok_iff.mpr ⟨l, executable, hkeeps.locateFrom hlocate (.inl (by simp [hitem])), ?_⟩
  rw [item?_put (ne_nil_of_findWritable hwritable), if_neg hml, hitem]

/-- A file that something was added to is still another one. -/
theorem locate_extend_ne : t'.locate other ≠ t'.locate path := by
  have hkeeps := extend_keeps hextend
  obtain ⟨l, executable, hlocate, hitem⟩ := read_eq_ok_iff.mp hread
  obtain ⟨m, before, executable', hwritable, rfl⟩ := extend_eq_ok_iff.mp hextend
  obtain ⟨hother, -⟩ := findWritable_eq_ok_iff.mp hwritable
  have hput := item?_put_self (t := t) (ne_nil_of_findWritable hwritable)
    (.file (before ++ more) executable')
  have hpath : (t.put m (.file (before ++ more) executable')).locate path = .ok l :=
    hkeeps.locateFrom hlocate (.inl (by simp [hitem]))
  rw [hpath]
  intro hsame
  obtain rfl : l = m := hkeeps.locateFrom_of_file hother hput hsame
  exact hne (hother.trans hlocate.symm)

end Other

end Descriptor.Files.FileTree
