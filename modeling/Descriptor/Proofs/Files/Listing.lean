import Descriptor.Proofs.Files.Storage
import Mathlib.Data.List.Find
import Mathlib.Data.List.Perm.Basic

/-!
# The order in which directories list their entries

Nothing is promised about the order in which a directory lists its entries. Trees that differ in
that order only lead paths to the same places and hold the same things there; the names that a
directory lists are the same in both, in some order each.

## Main definitions

* `FileTree.Relisted` : trees that differ in the order of their listings only.
* `FileTree.moveFirst` : the tree in which an entry comes before all others.

## Main results

* `FileTree.Relisted.find` : paths lead to the same items.
* `FileTree.Relisted.list` : a directory lists the same names, in some order.
* `FileTree.Relisted.extend` : files that are written to leave the rest as it was.
* `FileTree.relisted_of_perm` : entries can be listed in any order.
* `FileTree.relisted_moveFirst`, `FileTree.exists_namesIn_moveFirst` : any entry can come first.
-/

namespace Descriptor.Files.FileTree

variable {t t' : FileTree} {l : Location} {path : String}

/-- Trees with the same items, whose directories list the same names in some order each. -/
structure Relisted (t t' : FileTree) : Prop where
  item? : ∀ l, t'.item? l = t.item? l
  names : ∀ l, (t'.namesIn l).Perm (t.namesIn l)
  workingDirectory : t'.workingDirectory = t.workingDirectory

theorem Relisted.refl (t : FileTree) : t.Relisted t := ⟨fun _ => rfl, fun _ => .refl _, rfl⟩

theorem Relisted.symm (h : t.Relisted t') : t'.Relisted t where
  item? l := (h.item? l).symm
  names l := (h.names l).symm
  workingDirectory := h.workingDirectory.symm

theorem list_eq_ok_iff {names : List String} :
    t.list path = .ok names ↔ ∃ l, t.find path = .ok (l, .directory) ∧ names = t.namesIn l := by
  unfold FileTree.list
  cases t.find path with
  | error fault => simp [Bind.bind, Except.bind]
  | ok found =>
    obtain ⟨l, item⟩ := found
    cases item with
    | directory => simp [Bind.bind, Except.bind, eq_comm]
    | file | locked | link => simp [Bind.bind, Except.bind]

/-- A name in a directory leads to the entry that the directory lists under it, unless that is a
link. -/
theorem itemAt?_joinPath_of_leads {directory name : String} {links : Nat} {place : Location}
    (hdirectory : directory ≠ "") (hname : IsEntryName name)
    (hleads : Leads t linkLimit (t.start directory) (namesTo directory) links place)
    (hlink : ∀ target, t.item? (place ++ [name]) ≠ some (.link target)) :
    t.itemAt? (joinPath directory name) = t.item? (place ++ [name]) := by
  have hlocate : t.locate (joinPath directory name) = .ok (place ++ [name]) :=
    locate_of_locateFrom
      ((locateFrom_joinPath_eq_ok_iff hdirectory hname).mpr ⟨links, place, hleads, rfl⟩) hlink
  ext item
  rw [itemAt?_eq_some_iff]
  constructor
  · rintro ⟨l, hl, hitem⟩
    obtain rfl := Except.ok.inj (hlocate.symm.trans hl)
    exact hitem
  · exact fun hitem => ⟨_, hlocate, hitem⟩

/-! ### What does not depend on the order -/

section Relisted

variable (h : t.Relisted t')

include h

theorem Relisted.walk (follow : Bool) (links : Nat) (place : Location) (names : List String) :
    t'.walk follow links place names = t.walk follow links place names := by
  have hitem {l : Location} {item : Option Item} (hl : t.item? l = item) : t'.item? l = item :=
    (h.item? l).trans hl
  fun_induction FileTree.walk t follow links place names with
  | case1 => rw [FileTree.walk]
  | case2 links place name rest hblank ih => rw [walk_blank hblank, ih]
  | case3 links place rest _ ih => rw [walk_up, ih]
  | case4 links place name rest hblank hup hnone hend =>
    rw [walk_none (.of_not hblank hup) (hitem hnone), if_pos hend]
  | case5 links place name rest hblank hup hnone hend =>
    rw [walk_none (.of_not hblank hup) (hitem hnone), if_neg hend]
  | case6 links place name rest hblank hup hdirectory ih =>
    rw [walk_directory (.of_not hblank hup) (hitem hdirectory), ih]
  | case7 links place name rest hblank hup _ _ hfile hrest
  | case9 links place name rest hblank hup hfile hrest =>
    rw [walk_file (.of_not hblank hup) (hitem hfile) rfl, if_pos hrest]
  | case8 links place name rest hblank hup _ _ hfile hrest
  | case10 links place name rest hblank hup hfile hrest =>
    rw [walk_file (.of_not hblank hup) (hitem hfile) rfl, if_neg hrest]
  | case11 links place name rest hblank hup target hlink hlast =>
    rw [walk_link_last (.of_not hblank hup) (hitem hlink) hlast]
  | case12 place name rest hblank hup target hlink hlast =>
    rw [walk_link_zero (.of_not hblank hup) (hitem hlink) hlast]
  | case13 place name rest hblank hup target hlink hlast links ih =>
    rw [walk_link (.of_not hblank hup) (hitem hlink) hlast]
    exact ih

theorem Relisted.locate (path : String) : t'.locate path = t.locate path := by
  rw [FileTree.locate, FileTree.locate, locateFrom, locateFrom, h.workingDirectory, h.walk]

/-- Paths lead to the same items. -/
theorem Relisted.find (path : String) : t'.find path = t.find path := by
  simp only [FileTree.find, h.locate, h.item?]

theorem Relisted.isFile (path : String) : t'.isFile path = t.isFile path := by
  rw [FileTree.isFile, FileTree.isFile, itemAt?, itemAt?, h.find]

theorem Relisted.isDirectory (path : String) : t'.isDirectory path = t.isDirectory path := by
  rw [FileTree.isDirectory, FileTree.isDirectory, itemAt?, itemAt?, h.find]

theorem Relisted.readText (path : String) : t'.readText path = t.readText path := by
  simp only [FileTree.readText, FileTree.read, h.find]

/-- A directory lists the same names in some order, unless it cannot be listed. -/
theorem Relisted.list (path : String) :
    (∃ fault, t.list path = .error fault ∧ t'.list path = .error fault) ∨
      ∃ names names', t.list path = .ok names ∧ t'.list path = .ok names' ∧
        names'.Perm names := by
  simp only [FileTree.list, h.find]
  cases hfind : t.find path with
  | error fault => exact .inl ⟨fault, rfl, rfl⟩
  | ok found =>
    obtain ⟨l, item⟩ := found
    cases item with
    | directory => exact .inr ⟨_, _, rfl, rfl, h.names l⟩
    | file | locked | link => exact .inl ⟨_, rfl, rfl⟩

end Relisted

/-! ### Changes -/

/-- Putting an item adds its name to a listing where nothing lay, and changes no listing else. -/
theorem namesIn_put {item : Item} (hl : l ≠ []) (place : Location) :
    (t.put l item).namesIn place =
      if t.item? l = none ∧ l.dropLast = place then t.namesIn place ++ l.getLast?.toList
      else t.namesIn place := by
  rw [item?_of_ne_nil hl, namesIn, namesIn, put]
  induction t.entries with
  | nil => by_cases h : l.dropLast = place <;> cases hlast : l.getLast? <;> simp [putItem, h, hlast]
  | cons e rest ih =>
    unfold putItem
    by_cases he : e.1 = l
    · simp [he, List.filterMap_cons]
    · rw [if_neg he, List.filterMap_cons, ih, List.find?_cons, List.filterMap_cons]
      simp only [he, decide_false]
      split
      · split <;> rfl
      · split <;> rfl

theorem Relisted.put (h : t.Relisted t') (hl : l ≠ []) (item : Item) :
    (t.put l item).Relisted (t'.put l item) where
  item? m := by rw [item?_put hl, item?_put hl, h.item?]
  names m := by
    rw [namesIn_put hl, namesIn_put hl, h.item?]
    split
    · exact (h.names m).append_right _
    · exact h.names m
  workingDirectory := h.workingDirectory

/-- What is written to a file stands in it, whatever the order of the listings. -/
theorem Relisted.extend (h : t.Relisted t') (path : String) (bytes : List UInt8) :
    (∃ fault, t.extend path bytes = .error fault ∧ t'.extend path bytes = .error fault) ∨
      ∃ files files', t.extend path bytes = .ok files ∧ t'.extend path bytes = .ok files' ∧
        files.Relisted files' := by
  have hwritable : t'.findWritable path = t.findWritable path := by
    simp only [findWritable, h.locate, h.item?]
  cases hfound : t.findWritable path with
  | error fault =>
    refine .inl ⟨fault, ?_, ?_⟩
    · simp [FileTree.extend, hfound, Bind.bind, Except.bind]
    · simp [FileTree.extend, hwritable, hfound, Bind.bind, Except.bind]
  | ok found =>
    obtain ⟨l, before, executable⟩ := found
    refine .inr ⟨_, _, extend_eq_ok_iff.mpr ⟨l, before, executable, hfound, rfl⟩,
      extend_eq_ok_iff.mpr ⟨l, before, executable, hwritable.trans hfound, rfl⟩, ?_⟩
    exact h.put (ne_nil_of_findWritable hfound) _

/-! ### Other orders -/

private theorem find?_eq_some_iff_of_nodup {entries : List (Location × Item)}
    (h : (entries.map (·.1)).Nodup) (e : Location × Item) :
    entries.find? (·.1 = l) = some e ↔ e ∈ entries ∧ e.1 = l := by
  constructor
  · intro he
    exact ⟨List.mem_of_find?_eq_some he, by simpa using List.find?_some he⟩
  · rintro ⟨he, rfl⟩
    have hsome : (entries.find? (·.1 = e.1)).isSome := List.find?_isSome.mpr ⟨e, he, by simp⟩
    obtain ⟨e', he'⟩ := Option.isSome_iff_exists.mp hsome
    have hsame : e'.1 = e.1 := by simpa using List.find?_some he'
    rw [he', List.inj_on_of_nodup_map h (List.mem_of_find?_eq_some he') he hsame]

/-- The entries of a tree with one item at each location can come in any order. -/
theorem relisted_of_perm (hentries : t'.entries.Perm t.entries)
    (hnodup : (t.entries.map (·.1)).Nodup) (hwork : t'.workingDirectory = t.workingDirectory) :
    t.Relisted t' where
  item? m := by
    by_cases hm : m = []
    · rw [hm, item?_root, item?_root]
    · rw [item?_of_ne_nil hm, item?_of_ne_nil hm]
      congr 1
      ext e
      rw [find?_eq_some_iff_of_nodup ((hentries.map _).nodup_iff.mpr hnodup),
        find?_eq_some_iff_of_nodup hnodup, hentries.mem_iff]
  names m := hentries.filterMap _
  workingDirectory := hwork

/-- The tree with the entries of a location in front of all others. -/
def moveFirst (t : FileTree) (l : Location) : FileTree :=
  { t with entries := t.entries.filter (·.1 = l) ++ t.entries.filter (·.1 ≠ l) }

theorem relisted_moveFirst (t : FileTree) (l : Location) : t.Relisted (t.moveFirst l) where
  item? m := by
    by_cases hm : m = []
    · rw [hm, item?_root, item?_root]
    · rw [item?_of_ne_nil hm, item?_of_ne_nil hm, moveFirst, List.find?_append]
      congr 1
      by_cases hl : l = m
      · subst hl
        have hrest : (t.entries.filter (·.1 ≠ l)).find? (·.1 = l) = none := by
          rw [List.find?_eq_none]
          simp
        rw [hrest, Option.or_none, List.find?_filter]
        simp
      · have hfront : (t.entries.filter (·.1 = l)).find? (·.1 = m) = none := by
          rw [List.find?_eq_none]
          rintro e he
          simpa [of_decide_eq_true (List.mem_filter.mp he).2] using hl
        rw [hfront, Option.none_or, List.find?_filter]
        refine List.find?_congr fun e _ => ?_
        by_cases he : e.1 = m
        · simp [he, Ne.symm hl]
        · simp [he]
  names m := by
    simpa [moveFirst, namesIn] using
      (List.filter_append_perm (fun e : Location × Item => decide (e.1 = l)) t.entries).filterMap _
  workingDirectory := rfl

/-- Any entry of a directory can be the first that it lists. -/
theorem exists_namesIn_moveFirst {place : Location} {name : String}
    (hname : name ∈ t.namesIn place) :
    ∃ names, (t.moveFirst (place ++ [name])).namesIn place = name :: names := by
  obtain ⟨e, he, hlast⟩ := List.mem_filterMap.mp hname
  have hplace : e.1 = place ++ [name] := by
    split at hlast
    · next hdrop => rw [← hdrop, List.dropLast_append_getLast? name hlast]
    · cases hlast
  obtain ⟨first, more, hfilter⟩ :
      ∃ first more, t.entries.filter (·.1 = place ++ [name]) = first :: more :=
    List.exists_cons_of_ne_nil
      (List.ne_nil_of_mem (List.mem_filter.mpr ⟨he, decide_eq_true hplace⟩))
  have hfirst : first.1 = place ++ [name] := by
    have hmem : first ∈ t.entries.filter (·.1 = place ++ [name]) :=
      hfilter ▸ List.mem_cons_self
    simpa using (List.mem_filter.mp hmem).2
  rw [namesIn, moveFirst, hfilter, List.cons_append, List.filterMap_cons, hfirst]
  simp

end Descriptor.Files.FileTree
