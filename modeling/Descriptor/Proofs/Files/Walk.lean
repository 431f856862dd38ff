import Descriptor.Files.Tree
import Descriptor.Proofs.Files.Path
import Mathlib.Data.List.Induction

/-!
# Following a path through changing files

A path is followed from directory to directory, through links on the way, to its last name. What
lies under the names on the way decides where it leads, and nothing else does: a path that leads to
something goes on leading there while everything that lies somewhere stays of its kind, and it does
not notice when a place is cleared at which nothing lies.

## Main definitions

* `FileTree.Keeps` : a tree in which everything that another one has is still there.
* `FileTree.WellFormed` : trees in which whatever lies somewhere lies in directories.
* `FileTree.Leads` : the place that components lead to through directories and links.

## Main results

* `FileTree.item?_put`, `FileTree.item?_prune` : what lies at a location after a change.
* `FileTree.Keeps.locateFrom` : paths lead where they led in a tree that keeps everything.
* `FileTree.walk_prune` : clearing an empty place changes no path.
* `FileTree.eq_of_prefix_of_walk` : no path from elsewhere leads to anything below an empty place.
* `FileTree.leads_or_fails` : components lead to one place, or no name behind them is ever found.
-/

namespace Descriptor.Files

namespace FileTree

variable {t t' : FileTree} {follow : Bool} {links : Nat} {place l m : Location}
  {names : List String}

/-! ### What lies at a location -/

@[simp]
theorem item?_root (t : FileTree) : t.item? [] = some .directory := rfl

theorem ne_nil_of_item? (h : t.item? l = none) : l ≠ [] := by
  rintro rfl
  simp at h

theorem item?_of_ne_nil (h : l ≠ []) : t.item? l = (t.entries.find? (·.1 = l)).map (·.2) := by
  rw [item?, if_neg (by simpa using h)]

private theorem find?_putItem (l m : Location) (item : Item) (entries : List (Location × Item)) :
    (putItem l item entries).find? (·.1 = m) =
      if l = m then some (l, item) else entries.find? (·.1 = m) := by
  induction entries with
  | nil => by_cases h : l = m <;> simp [putItem, h]
  | cons e rest ih =>
    unfold putItem
    by_cases he : e.1 = l
    · by_cases h : l = m <;> simp_all
    · rw [if_neg he, List.find?_cons, List.find?_cons, ih]
      by_cases h : l = m
      · simp [h ▸ he, h]
      · simp [h]

/-- Putting an item changes what lies at its location, and nothing else. -/
theorem item?_put (h : l ≠ []) (item : Item) (m : Location) :
    (t.put l item).item? m = if l = m then some item else t.item? m := by
  by_cases hm : m = []
  · rw [hm, item?_root, item?_root, if_neg h]
  · rw [item?_of_ne_nil hm, item?_of_ne_nil hm, put, find?_putItem]
    split <;> rfl

/-- Pruning clears a location and all that lies below it, and nothing else. -/
theorem item?_prune (h : l ≠ []) (m : Location) :
    (t.prune l).item? m = if l <+: m then none else t.item? m := by
  by_cases hm : m = []
  · rw [hm, item?_root, item?_root, if_neg (by simpa using h)]
  · rw [item?_of_ne_nil hm, item?_of_ne_nil hm, prune, List.find?_filter]
    split
    · next hprefix =>
      rw [List.find?_eq_none.mpr fun e _ => ?_, Option.map_none]
      rintro he
      simp only [decide_eq_true_eq, Bool.not_eq_true'] at he
      obtain ⟨hnot, rfl⟩ := he
      rw [List.isPrefixOf_iff_prefix.mpr hprefix] at hnot
      exact Bool.noConfusion hnot
    · next hprefix =>
      congr 2
      funext e
      by_cases he : e.1 = m
      · have hnot : l.isPrefixOf e.1 = false :=
          Bool.eq_false_iff.mpr fun h => hprefix (he ▸ List.isPrefixOf_iff_prefix.mp h)
        simp [he ▸ hnot, he]
      · simp [he]

/-! ### One step along a path -/

section Step

variable {name target : String} {rest : List String}

theorem walk_blank (h : name = "" ∨ name = ".") :
    t.walk follow links place (name :: rest) = t.walk follow links place rest := by
  rw [walk, if_pos h]

theorem walk_up : t.walk follow links place (".." :: rest) =
    t.walk follow links place.dropLast rest := by
  rw [walk, if_neg (by decide), if_pos rfl]

theorem walk_none (hname : IsName name) (hitem : t.item? (place ++ [name]) = none) :
    t.walk follow links place (name :: rest) =
      if isEnd rest then .ok (place ++ [name]) else .error .notFound := by
  rw [walk, if_neg hname.not_blank, if_neg hname.ne_dots, hitem]

theorem walk_directory (hname : IsName name)
    (hitem : t.item? (place ++ [name]) = some .directory) :
    t.walk follow links place (name :: rest) = t.walk follow links (place ++ [name]) rest := by
  rw [walk, if_neg hname.not_blank, if_neg hname.ne_dots, hitem]

theorem walk_file {item : Item} (hname : IsName name)
    (hitem : t.item? (place ++ [name]) = some item) (hregular : item.isRegular = true) :
    t.walk follow links place (name :: rest) =
      if rest.isEmpty then .ok (place ++ [name]) else .error .notADirectory := by
  rw [walk, if_neg hname.not_blank, if_neg hname.ne_dots, hitem]
  cases item with
  | file | locked => rfl
  | directory | link => cases hregular

theorem walk_link_last (hname : IsName name)
    (hitem : t.item? (place ++ [name]) = some (.link target))
    (hlast : rest.isEmpty = true ∧ ¬follow = true) :
    t.walk follow links place (name :: rest) = .ok (place ++ [name]) := by
  rw [walk, if_neg hname.not_blank, if_neg hname.ne_dots, hitem]
  exact if_pos hlast

theorem walk_link_zero (hname : IsName name)
    (hitem : t.item? (place ++ [name]) = some (.link target))
    (hlast : ¬(rest.isEmpty = true ∧ ¬follow = true)) :
    t.walk follow 0 place (name :: rest) = .error .tooManyLinks := by
  rw [walk, if_neg hname.not_blank, if_neg hname.ne_dots, hitem]
  exact if_neg hlast

theorem walk_link (hname : IsName name)
    (hitem : t.item? (place ++ [name]) = some (.link target))
    (hlast : ¬(rest.isEmpty = true ∧ ¬follow = true)) :
    t.walk follow (links + 1) place (name :: rest) =
      t.walk follow links (if isAbsolute target then [] else place)
        (components target ++ rest) := by
  rw [walk, if_neg hname.not_blank, if_neg hname.ne_dots, hitem]
  exact if_neg hlast

/-- A single name stands for an entry, whatever that is. -/
theorem walk_single (hname : IsName name) :
    t.walk false links place [name] = .ok (place ++ [name]) := by
  cases hitem : t.item? (place ++ [name]) with
  | none => rw [walk_none hname hitem, if_pos (by rfl)]
  | some item =>
    cases item with
    | directory => rw [walk_directory hname hitem, walk]
    | file | locked => rw [walk_file hname hitem rfl, if_pos (by rfl)]
    | link target => exact walk_link_last hname hitem ⟨rfl, Bool.false_ne_true⟩

end Step

/-- Separators at the end of a path lead nowhere else. -/
theorem walk_of_isEnd {rest : List String} (h : isEnd rest) :
    t.walk follow links place rest = .ok place := by
  induction rest with
  | nil => rw [walk]
  | cons name rest ih =>
    simp only [isEnd, List.all_cons, Bool.and_eq_true, String.isEmpty_iff] at h
    rw [walk_blank (.inl h.1)]
    exact ih h.2

/-! ### Trees that keep everything -/

/-- Items of one kind: files, whatever they hold; files that are locked; directories; links with one
target. -/
inductive SameKind : Item → Item → Prop
  | file (bytes bytes' : List UInt8) (executable executable' : Bool) :
      SameKind (.file bytes executable) (.file bytes' executable')
  | locked : SameKind .locked .locked
  | directory : SameKind .directory .directory
  | link (target : String) : SameKind (.link target) (.link target)

theorem SameKind.refl (item : Item) : SameKind item item := by
  cases item <;> constructor

theorem SameKind.trans {a b c : Item} (hab : SameKind a b) (hbc : SameKind b c) :
    SameKind a c := by
  cases hab <;> cases hbc <;> constructor

theorem SameKind.isRegular {a b : Item} (h : SameKind a b) (ha : a.isRegular = true) :
    b.isRegular = true := by
  cases h <;> first | rfl | cases ha

/-- A tree in which everything that another one has is still there, files with what they may hold by
now. -/
structure Keeps (t t' : FileTree) : Prop where
  item? : ∀ l item, t.item? l = some item → ∃ item', t'.item? l = some item' ∧ SameKind item item'
  workingDirectory : t'.workingDirectory = t.workingDirectory

theorem Keeps.refl (t : FileTree) : t.Keeps t :=
  ⟨fun _ item h => ⟨item, h, .refl item⟩, rfl⟩

theorem Keeps.trans {t'' : FileTree} (h : t.Keeps t') (h' : t'.Keeps t'') : t.Keeps t'' where
  item? l item hitem := by
    obtain ⟨item', hitem', hkind⟩ := h.item? l item hitem
    obtain ⟨item'', hitem'', hkind'⟩ := h'.item? l item' hitem'
    exact ⟨item'', hitem'', hkind.trans hkind'⟩
  workingDirectory := h'.workingDirectory.trans h.workingDirectory

theorem Keeps.directory (h : t.Keeps t') (hitem : t.item? l = some .directory) :
    t'.item? l = some .directory := by
  obtain ⟨item', hitem', ⟨⟩⟩ := h.item? l _ hitem
  exact hitem'

theorem Keeps.link {target : String} (h : t.Keeps t') (hitem : t.item? l = some (.link target)) :
    t'.item? l = some (.link target) := by
  obtain ⟨item', hitem', ⟨⟩⟩ := h.item? l _ hitem
  exact hitem'

theorem Keeps.regular {item : Item} (h : t.Keeps t') (hitem : t.item? l = some item)
    (hregular : item.isRegular = true) :
    ∃ item', t'.item? l = some item' ∧ item'.isRegular = true := by
  obtain ⟨item', hitem', hkind⟩ := h.item? l _ hitem
  exact ⟨item', hitem', hkind.isRegular hregular⟩

theorem Keeps.file {bytes : List UInt8} {executable : Bool} (h : t.Keeps t')
    (hitem : t.item? l = some (.file bytes executable)) :
    ∃ bytes' executable', t'.item? l = some (.file bytes' executable') := by
  obtain ⟨item', hitem', hkind⟩ := h.item? l _ hitem
  cases hkind with
  | file _ bytes' _ executable' => exact ⟨bytes', executable', hitem'⟩

/-- A walk ends where it ended, as long as no link has come to lie there. Only where a file has come
to lie can it fail, by the separators that the path ends in. -/
theorem Keeps.walk_or_fails (h : t.Keeps t') (hwalk : t.walk follow links place names = .ok l)
    (hl : (t.item? l).isSome ∨ ∀ target, t'.item? l ≠ some (.link target)) :
    t'.walk follow links place names = .ok l ∨
      t.item? l = none ∧ (∃ item, t'.item? l = some item ∧ item.isRegular = true) ∧
        t'.walk follow links place names = .error .notADirectory := by
  fun_induction FileTree.walk t follow links place names with
  | case1 => exact .inl (by rwa [FileTree.walk])
  | case2 links place name rest hblank ih => rw [walk_blank hblank]; exact ih hwalk
  | case3 links place rest _ ih => rw [walk_up]; exact ih hwalk
  | case4 links place name rest hblank hup hitem hend =>
    obtain rfl := Except.ok.inj hwalk
    rcases hl with hl | hl
    · rw [hitem] at hl
      exact absurd hl (by simp)
    · cases hitem' : t'.item? (place ++ [name]) with
      | none => exact .inl (by rw [walk_none (.of_not hblank hup) hitem', if_pos hend])
      | some item =>
        cases item with
        | directory =>
          exact .inl (by rw [walk_directory (.of_not hblank hup) hitem', walk_of_isEnd hend])
        | link target => exact absurd hitem' (hl target)
        | file | locked =>
          rw [walk_file (.of_not hblank hup) hitem' rfl]
          split
          · exact .inl rfl
          · exact .inr ⟨hitem, ⟨_, rfl, rfl⟩, rfl⟩
  | case5 => simp only [reduceCtorEq] at hwalk
  | case6 links place name rest hblank hup hitem ih =>
    rw [walk_directory (.of_not hblank hup) (h.directory hitem)]
    exact ih hwalk
  | case7 links place name rest hblank hup _ _ hitem hrest
  | case9 links place name rest hblank hup hitem hrest =>
    obtain rfl := Except.ok.inj hwalk
    obtain ⟨item', hitem', hregular⟩ := h.regular hitem rfl
    exact .inl (by rw [walk_file (.of_not hblank hup) hitem' hregular, if_pos hrest])
  | case8 | case10 => simp only [reduceCtorEq] at hwalk
  | case11 links place name rest hblank hup target hitem hlast =>
    obtain rfl := Except.ok.inj hwalk
    exact .inl (walk_link_last (.of_not hblank hup) (h.link hitem) hlast)
  | case12 => simp only [reduceCtorEq] at hwalk
  | case13 place name rest hblank hup target hitem hlast links ih =>
    rw [walk_link (.of_not hblank hup) (h.link hitem) hlast]
    exact ih hwalk

/-- The place that a path starts from. -/
def start (t : FileTree) (path : String) : Location :=
  if isAbsolute path then [] else t.workingDirectory

theorem Keeps.start (h : t.Keeps t') (path : String) : t'.start path = t.start path := by
  rw [FileTree.start, FileTree.start, h.workingDirectory]

theorem locateFrom_of_ne_empty {path : String} (h : path ≠ "") :
    t.locateFrom follow path = t.walk follow linkLimit (t.start path) (components path) := by
  rw [locateFrom, if_neg (by simpa using h), start]

theorem ne_empty_of_locateFrom {path : String} (h : t.locateFrom follow path = .ok l) :
    path ≠ "" := by
  rintro rfl
  cases h

/-- Paths lead where they led in a tree that keeps everything. -/
theorem Keeps.locateFrom {path : String} (h : t.Keeps t')
    (hlocate : t.locateFrom follow path = .ok l)
    (hl : (t.item? l).isSome ∨ t'.item? l = none ∨ t'.item? l = some .directory) :
    t'.locateFrom follow path = .ok l := by
  have hpath := ne_empty_of_locateFrom hlocate
  rw [locateFrom_of_ne_empty hpath] at hlocate ⊢
  rw [h.start]
  have hlink : (t.item? l).isSome ∨ ∀ target, t'.item? l ≠ some (.link target) := by
    rcases hl with hl | hl | hl
    · exact .inl hl
    · exact .inr (by simp [hl])
    · exact .inr (by simp [hl])
  obtain hwalk | ⟨hnone, ⟨item, hfile, hregular⟩, -⟩ := h.walk_or_fails hlocate hlink
  · exact hwalk
  · simp only [hnone, hfile, Option.isSome_none, Bool.false_eq_true, reduceCtorEq,
      Option.some.injEq, false_or] at hl
    rw [hl] at hregular
    cases hregular

/-- A path to a place where a file has come to lie leads there, if anywhere. -/
theorem Keeps.locateFrom_of_file {path : String} {bytes : List UInt8} {executable : Bool}
    (h : t.Keeps t') (hlocate : t.locateFrom follow path = .ok l)
    (hfile : t'.item? l = some (.file bytes executable))
    (hlocate' : t'.locateFrom follow path = .ok m) : m = l := by
  have hpath := ne_empty_of_locateFrom hlocate
  rw [locateFrom_of_ne_empty hpath] at hlocate hlocate'
  rw [h.start] at hlocate'
  obtain hwalk | ⟨-, -, hwalk⟩ := h.walk_or_fails hlocate (.inr (by simp [hfile]))
  · exact Except.ok.inj (hlocate'.symm.trans hwalk)
  · rw [hlocate'] at hwalk
    cases hwalk

/-- Where no link lies last, it makes no difference whether one would be followed there. -/
theorem walk_follow (hwalk : t.walk false links place names = .ok l)
    (hl : ∀ target, t.item? l ≠ some (.link target)) :
    t.walk true links place names = .ok l := by
  fun_induction FileTree.walk t false links place names with
  | case1 => rwa [FileTree.walk]
  | case2 links place name rest hblank ih => rw [walk_blank hblank, ih hwalk]
  | case3 links place rest _ ih => rw [walk_up, ih hwalk]
  | case4 links place name rest hblank hup hitem hend =>
    rw [walk_none (.of_not hblank hup) hitem, if_pos hend, hwalk]
  | case5 => simp only [reduceCtorEq] at hwalk
  | case6 links place name rest hblank hup hitem ih =>
    rw [walk_directory (.of_not hblank hup) hitem, ih hwalk]
  | case7 links place name rest hblank hup _ _ hitem hrest
  | case9 links place name rest hblank hup hitem hrest =>
    rw [walk_file (.of_not hblank hup) hitem rfl, if_pos hrest, hwalk]
  | case8 | case10 => simp only [reduceCtorEq] at hwalk
  | case11 links place name rest hblank hup target hitem _ =>
    obtain rfl := Except.ok.inj hwalk
    exact absurd hitem (hl target)
  | case12 => simp only [reduceCtorEq] at hwalk
  | case13 place name rest hblank hup target hitem _ links ih =>
    rw [walk_link (.of_not hblank hup) hitem (by simp)]
    exact ih hwalk

theorem locate_of_locateFrom {path : String} (hlocate : t.locateFrom false path = .ok l)
    (hl : ∀ target, t.item? l ≠ some (.link target)) : t.locate path = .ok l := by
  have hpath := ne_empty_of_locateFrom hlocate
  rw [locate, locateFrom_of_ne_empty hpath]
  exact walk_follow (locateFrom_of_ne_empty hpath ▸ hlocate) hl

theorem itemAt?_eq_some_iff {path : String} {item : Item} :
    t.itemAt? path = some item ↔ ∃ l, t.locate path = .ok l ∧ t.item? l = some item := by
  unfold itemAt? find
  cases t.locate path with
  | error fault => simp [Bind.bind, Except.bind, Except.toOption]
  | ok l => cases hl : t.item? l <;> simp [Bind.bind, Except.bind, Except.toOption, hl]

theorem isDirectory_iff {path : String} :
    t.isDirectory path = true ↔ ∃ l, t.locate path = .ok l ∧ t.item? l = some .directory := by
  rw [isDirectory, decide_eq_true_iff, itemAt?_eq_some_iff]

/-- A directory stays one. -/
theorem Keeps.isDirectory {path : String} (h : t.Keeps t') (hpath : t.isDirectory path = true) :
    t'.isDirectory path = true := by
  obtain ⟨l, hlocate, hl⟩ := isDirectory_iff.mp hpath
  exact isDirectory_iff.mpr ⟨l, h.locateFrom hlocate (.inl (by simp [hl])), h.directory hl⟩

/-! ### Clearing an empty place -/

/-- What lies directly in a place outside a free location lies outside of it too. -/
theorem not_prefix_of_item? {name : String} (hfree : t.item? m = none) (hplace : ¬m <+: place)
    (hitem : t.item? (place ++ [name]) ≠ none) : ¬m <+: place ++ [name] := by
  rw [List.prefix_concat_iff]
  rintro (rfl | h)
  · exact hitem hfree
  · exact hplace h

/-- What a path starts from, the root or a place outside of a free location, lies outside of it. -/
theorem not_prefix_ite (hfree : t.item? m = none) (hplace : ¬m <+: place) (target : String) :
    ¬m <+: if isAbsolute target then [] else place := by
  split
  · rw [List.prefix_nil]
    exact ne_nil_of_item? hfree
  · exact hplace

theorem not_prefix_dropLast (hplace : ¬m <+: place) : ¬m <+: place.dropLast :=
  fun h => hplace (h.trans (List.dropLast_prefix place))

/-- Clearing a location at which nothing lies changes no walk that starts outside of it. -/
theorem walk_prune (hfree : t.item? m = none) (hplace : ¬m <+: place) :
    (t.prune m).walk follow links place names = t.walk follow links place names := by
  have hroot := ne_nil_of_item? hfree
  have hsame {place : Location} {name : String} {item : Item} (hplace : ¬m <+: place)
      (hitem : t.item? (place ++ [name]) = some item) :
      (t.prune m).item? (place ++ [name]) = some item := by
    rw [item?_prune hroot, if_neg (not_prefix_of_item? hfree hplace (by simp [hitem])), hitem]
  have hnone {place : Location} {name : String} (hitem : t.item? (place ++ [name]) = none) :
      (t.prune m).item? (place ++ [name]) = none := by
    rw [item?_prune hroot, hitem, ite_self]
  fun_induction FileTree.walk t follow links place names with
  | case1 => rw [FileTree.walk]
  | case2 links place name rest hblank ih => rw [walk_blank hblank, ih hplace]
  | case3 links place rest _ ih => rw [walk_up, ih (not_prefix_dropLast hplace)]
  | case4 links place name rest hblank hup hitem hend =>
    rw [walk_none (.of_not hblank hup) (hnone hitem), if_pos hend]
  | case5 links place name rest hblank hup hitem hend =>
    rw [walk_none (.of_not hblank hup) (hnone hitem), if_neg hend]
  | case6 links place name rest hblank hup hitem ih =>
    rw [walk_directory (.of_not hblank hup) (hsame hplace hitem),
      ih (not_prefix_of_item? hfree hplace (by simp [hitem]))]
  | case7 links place name rest hblank hup _ _ hitem hrest
  | case9 links place name rest hblank hup hitem hrest =>
    rw [walk_file (.of_not hblank hup) (hsame hplace hitem) rfl, if_pos hrest]
  | case8 links place name rest hblank hup _ _ hitem hrest
  | case10 links place name rest hblank hup hitem hrest =>
    rw [walk_file (.of_not hblank hup) (hsame hplace hitem) rfl, if_neg hrest]
  | case11 links place name rest hblank hup target hitem hlast =>
    rw [walk_link_last (.of_not hblank hup) (hsame hplace hitem) hlast]
  | case12 place name rest hblank hup target hitem hlast =>
    rw [walk_link_zero (.of_not hblank hup) (hsame hplace hitem) hlast]
  | case13 place name rest hblank hup target hitem hlast links ih =>
    rw [walk_link (.of_not hblank hup) (hsame hplace hitem) hlast]
    exact ih (not_prefix_ite hfree hplace target)

/-- A walk that starts outside a free location ends at nothing below it. -/
theorem eq_of_prefix_of_walk (hfree : t.item? m = none) (hplace : ¬m <+: place)
    (hwalk : t.walk follow links place names = .ok l) (hl : m <+: l) : l = m := by
  have hnext {place : Location} {name : String} (hplace : ¬m <+: place)
      (hl : m <+: place ++ [name]) : place ++ [name] = m :=
    (List.prefix_concat_iff.mp hl).elim Eq.symm fun h => absurd h hplace
  fun_induction FileTree.walk t follow links place names with
  | case1 =>
    obtain rfl := Except.ok.inj hwalk
    exact absurd hl hplace
  | case2 links place name rest hblank ih => exact ih hplace hwalk
  | case3 links place rest _ ih => exact ih (not_prefix_dropLast hplace) hwalk
  | case4 =>
    obtain rfl := Except.ok.inj hwalk
    exact hnext hplace hl
  | case5 => simp only [reduceCtorEq] at hwalk
  | case6 links place name rest hblank hup hitem ih =>
    exact ih (not_prefix_of_item? hfree hplace (by simp [hitem])) hwalk
  | case7 | case9 | case11 =>
    obtain rfl := Except.ok.inj hwalk
    exact hnext hplace hl
  | case8 | case10 | case12 => simp only [reduceCtorEq] at hwalk
  | case13 place name rest hblank hup target hitem hlast links ih =>
    exact ih (not_prefix_ite hfree hplace target) hwalk

/-- Trees in which whatever lies somewhere lies in directories, the working directory being one. -/
structure WellFormed (t : FileTree) : Prop where
  parent : ∀ l name, t.item? (l ++ [name]) ≠ none → t.item? l = some .directory
  workingDirectory : t.item? t.workingDirectory = some .directory

theorem WellFormed.item?_of_prefix (h : t.WellFormed) (hl : t.item? l ≠ none) (hm : m <+: l) :
    t.item? m ≠ none := by
  induction l using List.reverseRecOn with
  | nil => exact List.prefix_nil.mp hm ▸ hl
  | append_singleton l name ih =>
    rcases List.prefix_concat_iff.mp hm with rfl | hm
    · exact hl
    · exact ih (by simp [h.parent l name hl]) hm

/-- Paths start outside of every free location. -/
theorem WellFormed.not_prefix_start (h : t.WellFormed) (hfree : t.item? m = none) (path : String) :
    ¬m <+: t.start path := by
  have hwork : ¬m <+: t.workingDirectory := fun hm =>
    h.item?_of_prefix (by simp [h.workingDirectory]) hm hfree
  exact not_prefix_ite hfree hwork path

/-! ### Through directories to a place -/

/-- The place that components lead to when every name on the way is that of a directory or of a
link, with the number of links that may still be followed there. -/
inductive Leads (t : FileTree) : Nat → Location → List String → Nat → Location → Prop
  | nil (links : Nat) (place : Location) : Leads t links place [] links place
  | blank {links links' : Nat} {place l : Location} {name : String} {rest : List String}
      (hblank : name = "" ∨ name = ".") (h : Leads t links place rest links' l) :
      Leads t links place (name :: rest) links' l
  | up {links links' : Nat} {place l : Location} {rest : List String}
      (h : Leads t links place.dropLast rest links' l) :
      Leads t links place (".." :: rest) links' l
  | directory {links links' : Nat} {place l : Location} {name : String} {rest : List String}
      (hname : IsName name) (hitem : t.item? (place ++ [name]) = some .directory)
      (h : Leads t links (place ++ [name]) rest links' l) :
      Leads t links place (name :: rest) links' l
  | link {links links' : Nat} {place l : Location} {name target : String} {rest : List String}
      (hname : IsName name) (hitem : t.item? (place ++ [name]) = some (.link target))
      (h : Leads t links (if isAbsolute target then [] else place) (components target ++ rest)
        links' l) :
      Leads t (links + 1) place (name :: rest) links' l

section Leads

variable {links' links'' : Nat} {l' : Location}

/-- What stands behind components is followed from the place that they lead to. -/
theorem Leads.walk_append (h : Leads t links place names links' l) (name : String)
    (rest : List String) :
    t.walk follow links place (names ++ name :: rest) = t.walk follow links' l (name :: rest) := by
  induction h with
  | nil => rfl
  | blank hblank _ ih => rw [List.cons_append, walk_blank hblank, ih]
  | up _ ih => rw [List.cons_append, walk_up, ih]
  | directory hname' hitem _ ih => rw [List.cons_append, walk_directory hname' hitem, ih]
  | link hname' hitem _ ih =>
    rw [List.cons_append, walk_link hname' hitem (by simp), ← List.append_assoc, ih]

/-- Components behind others lead on from the place that those lead to. -/
theorem Leads.append {rest : List String} (h : Leads t links place names links' l)
    (h' : Leads t links' l rest links'' l') : Leads t links place (names ++ rest) links'' l' := by
  induction h with
  | nil => exact h'
  | blank hblank _ ih => exact .blank hblank (ih h')
  | up _ ih => exact .up (ih h')
  | directory hname hitem _ ih => exact .directory hname hitem (ih h')
  | link hname hitem _ ih => exact .link hname hitem (List.append_assoc .. ▸ ih h')

/-- Components lead to a place wherever all directories and links on the way still are. -/
theorem Leads.mono (h : Leads t links place names links' l)
    (hdirectory : ∀ m, t.item? m = some .directory → t'.item? m = some .directory)
    (hlink : ∀ m target, t.item? m = some (.link target) → t'.item? m = some (.link target)) :
    Leads t' links place names links' l := by
  induction h with
  | nil => exact .nil _ _
  | blank hblank _ ih => exact .blank hblank ih
  | up _ ih => exact .up ih
  | directory hname hitem _ ih => exact .directory hname (hdirectory _ hitem) ih
  | link hname hitem _ ih => exact .link hname (hlink _ _ hitem) ih

theorem Leads.keeps (h : Leads t links place names links' l) (hkeeps : t.Keeps t') :
    Leads t' links place names links' l :=
  h.mono (fun _ => hkeeps.directory) fun _ _ => hkeeps.link

/-- Components lead to a place, or else no name that stands behind them is ever found. -/
theorem leads_or_fails (t : FileTree) (links : Nat) (place : Location) (names : List String) :
    (∃ links' l, Leads t links place names links' l) ∨
      ∃ fault, ∀ follow name rest, IsName name →
        t.walk follow links place (names ++ name :: rest) = .error fault := by
  have hnever {name : String} (hname : IsName name) (rest : List String) (names : List String) :
      isEnd (names ++ name :: rest) ≠ true := by
    simp [isEnd, hname.ne_empty]
  fun_induction FileTree.walk t true links place names with
  | case1 links place => exact .inl ⟨links, place, .nil _ _⟩
  | case2 links place name rest hblank ih =>
    refine ih.imp (fun ⟨links', l, h⟩ => ⟨links', l, .blank hblank h⟩) fun ⟨fault, h⟩ =>
      ⟨fault, fun follow name rest hname => ?_⟩
    rw [List.cons_append, walk_blank hblank, h follow name rest hname]
  | case3 links place rest _ ih =>
    refine ih.imp (fun ⟨links', l, h⟩ => ⟨links', l, .up h⟩) fun ⟨fault, h⟩ =>
      ⟨fault, fun follow name rest hname => ?_⟩
    rw [List.cons_append, walk_up, h follow name rest hname]
  | case4 links place name rest hblank hup hitem _ =>
    refine .inr ⟨.notFound, fun follow name' rest' hname' => ?_⟩
    rw [List.cons_append, walk_none (.of_not hblank hup) hitem, if_neg (hnever hname' _ _)]
  | case5 links place name rest hblank hup hitem _ =>
    refine .inr ⟨.notFound, fun follow name' rest' hname' => ?_⟩
    rw [List.cons_append, walk_none (.of_not hblank hup) hitem, if_neg (hnever hname' _ _)]
  | case6 links place name rest hblank hup hitem ih =>
    refine ih.imp (fun ⟨links', l, h⟩ => ⟨links', l, .directory (.of_not hblank hup) hitem h⟩)
      fun ⟨fault, h⟩ => ⟨fault, fun follow name' rest' hname' => ?_⟩
    rw [List.cons_append, walk_directory (.of_not hblank hup) hitem, h follow name' rest' hname']
  | case7 links place name rest hblank hup _ _ hitem _
  | case8 links place name rest hblank hup _ _ hitem _
  | case9 links place name rest hblank hup hitem _
  | case10 links place name rest hblank hup hitem _ =>
    refine .inr ⟨.notADirectory, fun follow name' rest' hname' => ?_⟩
    rw [List.cons_append, walk_file (.of_not hblank hup) hitem rfl, if_neg (by simp)]
  | case11 links place name rest hblank hup target hitem hlast => simp at hlast
  | case12 place name rest hblank hup target hitem _ =>
    refine .inr ⟨.tooManyLinks, fun follow name' rest' hname' => ?_⟩
    rw [List.cons_append, walk_link_zero (.of_not hblank hup) hitem (by simp)]
  | case13 place name rest hblank hup target hitem _ links ih =>
    refine ih.imp (fun ⟨links', l, h⟩ => ⟨links', l, .link (.of_not hblank hup) hitem h⟩)
      fun ⟨fault, h⟩ => ⟨fault, fun follow name' rest' hname' => ?_⟩
    rw [List.cons_append, walk_link (.of_not hblank hup) hitem (by simp), ← List.append_assoc]
    exact h follow name' rest' hname'

end Leads

end FileTree

end Descriptor.Files
