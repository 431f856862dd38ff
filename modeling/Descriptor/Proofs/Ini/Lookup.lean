import Descriptor.Ini.Document
import Mathlib.Data.List.Nodup

/-!
# Looking up options

Sections with different names, and options with different keys, are found whatever order they stand
in. In a document without defaults, what is found is what a section has itself.

## Main results

* `find?_of_nodup` : an element is found under its key where no other has the same key.
* `Document.entries?_of_mem`, `Document.lookup?_of_mem` : sections and options are found.
* `Document.get?_of_no_defaults`, `Document.items?_of_no_defaults` : look-ups without defaults.
* `Document.items?_eq`, `Document.nodup_items`, `Document.get?_eq_some_iff` : the options of a
  section with its defaults, by list and by key.
-/

namespace Descriptor.Ini

/-- An element is found under its key where no other element has the same key. -/
theorem find?_of_nodup {α β : Type} [DecidableEq β] {key : α → β} {xs : List α}
    (hnodup : (xs.map key).Nodup) {x : α} (hx : x ∈ xs) :
    xs.find? (fun y => key y = key x) = some x := by
  obtain ⟨before, after, rfl⟩ := List.append_of_mem hx
  rw [List.map_append, List.map_cons, List.nodup_append] at hnodup
  refine List.find?_eq_some_iff_append.mpr ⟨by simp, before, after, rfl, fun y hy => ?_⟩
  have hne : key y ≠ key x :=
    hnodup.2.2 (key y) (List.mem_map_of_mem hy) (key x) List.mem_cons_self
  simpa using hne

namespace Document

variable {d : Document} {name : String}

theorem entries?_of_mem (hnodup : (d.sections.map (·.name)).Nodup) {s : Section}
    (hs : s ∈ d.sections) : d.entries? s.name = some s.entries := by
  rw [entries?, find?_of_nodup hnodup hs, Option.map_some]

theorem entries?_eq_none (h : ∀ s ∈ d.sections, s.name ≠ name) : d.entries? name = none := by
  rw [entries?, Option.map_eq_none_iff, List.find?_eq_none]
  simpa using h

theorem lookup?_of_mem {entries : List Entry} (hnodup : (entries.map (·.key)).Nodup) {e : Entry}
    (he : e ∈ entries) : lookup? entries e.key = some e.value := by
  rw [lookup?, find?_of_nodup hnodup he, Option.map_some]

theorem lookup?_eq_none {entries : List Entry} {key : String}
    (h : ∀ e ∈ entries, e.key ≠ key) : lookup? entries key = none := by
  rw [lookup?, Option.map_eq_none_iff, List.find?_eq_none]
  simpa using h

/-- Without defaults, an option is looked up among those of its section. -/
theorem get?_of_no_defaults (h : d.entries? defaultSection = none) (key : String) :
    d.get? name key = lookup? ((d.entries? name).getD []) key := by
  rw [get?, h]
  cases d.entries? name with
  | none => rfl
  | some entries =>
    rw [Option.bind_some, Option.getD_some]
    cases lookup? entries key <;> rfl

/-- Without defaults, a section has its own options only. -/
theorem items?_of_no_defaults (h : d.entries? defaultSection = none) :
    d.items? name = d.entries? name := by
  rw [items?, h]
  cases d.entries? name <;> simp

/-! ### Look-ups with defaults -/

theorem entries?_eq_some_iff (hnodup : (d.sections.map (·.name)).Nodup) {entries : List Entry} :
    d.entries? name = some entries ↔ ⟨name, entries⟩ ∈ d.sections := by
  constructor
  · intro h
    obtain ⟨s, hs, rfl⟩ := Option.map_eq_some_iff.mp h
    have hname : s.name = name := by simpa using List.find?_some hs
    subst hname
    exact List.mem_of_find?_eq_some hs
  · exact fun h => entries?_of_mem hnodup h

theorem lookup?_eq_some_iff {entries : List Entry} (hnodup : (entries.map (·.key)).Nodup)
    {key value : String} : lookup? entries key = some value ↔ ⟨key, value⟩ ∈ entries := by
  constructor
  · intro h
    obtain ⟨e, he, rfl⟩ := Option.map_eq_some_iff.mp h
    have hkey : e.key = key := by simpa using List.find?_some he
    subst hkey
    exact List.mem_of_find?_eq_some he
  · exact fun h => lookup?_of_mem hnodup h

/-- The defaults of a document. -/
def defaults (d : Document) : List Entry := (d.entries? defaultSection).getD []

/-- The defaults that options of a section's own leave room for. -/
def inherited (d : Document) (own : List Entry) : List Entry :=
  d.defaults.filter fun e => e.key ∉ own.map (·.key)

theorem mem_inherited {own : List Entry} {e : Entry} :
    e ∈ d.inherited own ↔ e ∈ d.defaults ∧ e.key ∉ own.map (·.key) := by
  rw [inherited, List.mem_filter, decide_eq_true_iff]

/-- The options of a section are its own and what it inherits. The defaults themselves inherit
nothing more. -/
theorem items?_eq {own : List Entry} (h : d.entries? name = some own) :
    d.items? name = some (own ++ d.inherited own) := by
  rw [items?, h, Option.map_some]
  split_ifs with hdefault
  · have hnil : d.inherited own = [] := by
      refine List.eq_nil_iff_forall_not_mem.mpr fun e he => ?_
      obtain ⟨hmem, hkey⟩ := mem_inherited.mp he
      rw [defaults, ← hdefault, h] at hmem
      exact hkey (List.mem_map_of_mem hmem)
    rw [hnil, List.append_nil]
  · congr 2
    refine List.filter_congr fun e _ => ?_
    rw [Bool.eq_iff_iff]
    simp

section Keys

variable (hdefaults : (d.defaults.map (·.key)).Nodup) {own : List Entry}
  (hown : (own.map (·.key)).Nodup)

include hdefaults hown

/-- No two options of a section have the same key, inherited ones included. -/
theorem nodup_items : ((own ++ d.inherited own).map (·.key)).Nodup := by
  rw [List.map_append]
  refine hown.append (hdefaults.sublist (List.filter_sublist.map _)) fun key hkey hinherited => ?_
  obtain ⟨e, he, rfl⟩ := List.mem_map.mp hinherited
  exact (mem_inherited.mp he).2 hkey

/-- An option is found by its key as it stands in the list of them. -/
theorem get?_eq_some_iff (h : d.entries? name = some own) {key value : String} :
    d.get? name key = some value ↔ ⟨key, value⟩ ∈ own ++ d.inherited own := by
  rw [get?, h, Option.bind_some, List.mem_append, mem_inherited]
  by_cases hkey : key ∈ own.map (·.key)
  · obtain ⟨e, he, rfl⟩ := List.mem_map.mp hkey
    rw [lookup?_of_mem hown he]
    dsimp only
    rw [← lookup?_of_mem hown he, lookup?_eq_some_iff hown]
    exact ⟨.inl, fun h => h.resolve_right fun h => h.2 hkey⟩
  · have hnone : lookup? own key = none :=
      lookup?_eq_none fun e he hsame => hkey (hsame ▸ List.mem_map_of_mem he)
    have hnot : ⟨key, value⟩ ∉ own := fun hmem => hkey (List.mem_map_of_mem hmem)
    have hdefault : (d.entries? defaultSection).bind (lookup? · key) = lookup? d.defaults key := by
      rw [defaults]
      cases d.entries? defaultSection <;> rfl
    rw [hnone]
    dsimp only
    rw [hdefault, lookup?_eq_some_iff hdefaults]
    exact ⟨fun h => .inr ⟨h, hkey⟩, fun h => (h.resolve_left hnot).1⟩

end Keys

end Document

end Descriptor.Ini
