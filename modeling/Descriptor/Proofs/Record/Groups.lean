import Descriptor.Record.Groups
import Mathlib.Algebra.GroupWithZero.Nat
import Mathlib.Data.List.Induction
import Mathlib.Data.List.Sort

/-!
# Groups through their look-ups

A collection of groups is determined by what it gives for each name. So the order of its entries
never has to be looked at: it is enough to know what an insertion and a further requirement do to
the look-up of a name.

## Main definitions

* `Groups.size` : how many requirements there are in all groups together.

## Main results

* `Groups.ext_get?` : collections with the same look-ups are equal.
* `Groups.get?_push` : the look-up of a name after a further requirement.
* `Groups.get?_ofList_of_mem`, `Groups.get?_ofList_of_not_mem` : the look-ups of a collection that
  is made from a list of groups.
* `Groups.get?_ofList_eq_some_iff` : the last group of each name is the one that counts.
* `Groups.mem_of_mem_ofList` : such a collection has no other groups.
* `Groups.ofList_of_perm` : a collection is made from its entries in any order.
* `Groups.size_push` : a further requirement is one more, whether or not its group is new.
-/

namespace Descriptor.Groups

private theorem not_lt_of_lt {a b : String} (h : a < b) : ¬b < a := fun h' =>
  String.lt_irrefl a (String.lt_trans h h')

/-- The groups of a collection are those that it gives under their names. -/
theorem mem_entries_iff {gs : Groups} {name : String} {requirements : List String} :
    (name, requirements) ∈ gs.entries ↔ gs.get? name = some requirements := by
  obtain ⟨entries, hordered⟩ := gs
  unfold get?
  dsimp only
  induction entries with
  | nil => simp
  | cons g entries ih =>
    obtain ⟨hg, hrest⟩ := List.pairwise_cons.mp hordered
    have ih := ih hrest
    by_cases hname : g.1 = name
    · have hnot : (name, requirements) ∉ entries := by
        intro hmem
        have hlt : g.1 < name := hg (name, requirements) hmem
        exact String.lt_irrefl name (hname ▸ hlt)
      rw [List.mem_cons, List.find?_cons_of_pos (by simpa using hname)]
      obtain ⟨gname, grequirements⟩ := g
      obtain rfl : gname = name := hname
      rw [or_iff_left hnot, Prod.mk.injEq, Option.map_some, Option.some.injEq]
      exact ⟨fun h => h.2.symm, fun h => ⟨rfl, h.symm⟩⟩
    · rw [List.mem_cons, List.find?_cons_of_neg (by simpa using hname), ← ih]
      exact or_iff_right fun h => hname (h ▸ rfl)

/-- Collections that give the same under every name are equal. -/
theorem ext_get? {a b : Groups} (h : ∀ name, a.get? name = b.get? name) : a = b := by
  have : Std.Antisymm fun x y : Group => x.1 < y.1 := ⟨fun _ _ hxy hyx =>
    absurd hyx (not_lt_of_lt hxy)⟩
  have : Std.Irrefl fun x y : Group => x.1 < y.1 := ⟨fun x => String.lt_irrefl x.1⟩
  refine Groups.ext (List.Pairwise.eq_of_mem_iff a.ordered b.ordered fun g => ?_)
  rw [mem_entries_iff, mem_entries_iff, h]

@[simp] theorem get?_empty (name : String) : empty.get? name = none := rfl

theorem get?_push (gs : Groups) (name requirement other : String) :
    (gs.push name requirement).get? other =
      if name = other then some ((gs.get? name).getD [] ++ [requirement]) else gs.get? other :=
  get?_insert gs name _ other

private theorem get?_foldl_insert_of_not_mem {groups : List Group} {name : String}
    (h : name ∉ groups.map (·.1)) (gs : Groups) :
    (groups.foldl (fun gs g => gs.insert g.1 g.2) gs).get? name = gs.get? name := by
  induction groups generalizing gs with
  | nil => rfl
  | cons g groups ih =>
    rw [List.map_cons, List.mem_cons, not_or] at h
    rw [List.foldl_cons, ih h.2, get?_insert, if_neg (Ne.symm h.1)]

theorem get?_ofList_of_not_mem {groups : List Group} {name : String}
    (h : name ∉ groups.map (·.1)) : (ofList groups).get? name = none :=
  get?_foldl_insert_of_not_mem h empty

/-- A collection made from groups with different names gives each of them under its name. -/
theorem get?_ofList_of_mem {groups : List Group} (hnodup : (groups.map (·.1)).Nodup)
    {g : Group} (h : g ∈ groups) : (ofList groups).get? g.1 = some g.2 := by
  obtain ⟨before, after, rfl⟩ := List.append_of_mem h
  rw [List.map_append, List.map_cons, List.nodup_append] at hnodup
  have hafter := (List.nodup_cons.mp hnodup.2.1).1
  rw [ofList, List.foldl_append, List.foldl_cons, get?_foldl_insert_of_not_mem hafter,
    get?_insert, if_pos rfl]

/-- A collection made from groups gives under a name what the last group of that name holds. -/
theorem get?_ofList_eq_some_iff {groups : List Group} {name : String}
    {requirements : List String} : (ofList groups).get? name = some requirements ↔
      ∃ before after, groups = before ++ (name, requirements) :: after ∧
        name ∉ after.map (·.1) := by
  constructor
  · intro h
    induction groups using List.reverseRecOn with
    | nil => simp only [ofList, List.foldl_nil, get?_empty, reduceCtorEq] at h
    | append_singleton groups g ih =>
      rw [ofList, List.foldl_append, ← ofList, List.foldl_cons, List.foldl_nil, get?_insert] at h
      split_ifs at h with hname
      · obtain rfl := Option.some.inj h
        exact ⟨groups, [], hname ▸ rfl, List.not_mem_nil⟩
      · obtain ⟨before, after, rfl, hafter⟩ := ih h
        refine ⟨before, after ++ [g], List.append_assoc _ _ _, ?_⟩
        simpa [Ne.symm hname] using hafter
  · rintro ⟨before, after, rfl, hafter⟩
    rw [ofList, List.foldl_append, List.foldl_cons, get?_foldl_insert_of_not_mem hafter,
      get?_insert, if_pos rfl]

/-- Neighbouring groups of different names may change places. -/
theorem ofList_swap {a b : Group} (h : a.1 ≠ b.1) (before after : List Group) :
    ofList (before ++ b :: a :: after) = ofList (before ++ a :: b :: after) := by
  have hinsert (gs : Groups) : (gs.insert b.1 b.2).insert a.1 a.2 =
      (gs.insert a.1 a.2).insert b.1 b.2 := by
    refine ext_get? fun name => ?_
    simp only [get?_insert]
    split_ifs with ha hb
    · exact absurd (ha.trans hb.symm) h
    · rfl
    · rfl
    · rfl
  rw [ofList, ofList, List.foldl_append, List.foldl_append, List.foldl_cons, List.foldl_cons,
    List.foldl_cons, List.foldl_cons, hinsert]

private theorem mem_of_get?_foldl_insert {groups : List Group} {name : String}
    {requirements : List String} {gs : Groups}
    (h : (groups.foldl (fun gs g => gs.insert g.1 g.2) gs).get? name = some requirements) :
    (name, requirements) ∈ groups ∨ gs.get? name = some requirements := by
  induction groups generalizing gs with
  | nil => exact .inr h
  | cons g groups ih =>
    rcases ih h with hmem | hget
    · exact .inl (List.mem_cons_of_mem g hmem)
    · rw [get?_insert] at hget
      split_ifs at hget with hname
      · obtain rfl := Option.some.inj hget
        exact .inl (hname ▸ List.mem_cons_self)
      · exact .inr hget

/-- A collection made from groups has no others. -/
theorem mem_of_mem_ofList {groups : List Group} {g : Group} (h : g ∈ (ofList groups).entries) :
    g ∈ groups := by
  rcases mem_of_get?_foldl_insert (mem_entries_iff.mp h) with hmem | hget
  · exact hmem
  · simp only [get?_empty, reduceCtorEq] at hget

theorem nodup_names (gs : Groups) : (gs.entries.map (·.1)).Nodup := by
  refine List.pairwise_map.mpr (gs.ordered.imp fun {a b} h hab => ?_)
  exact String.lt_irrefl b.1 (hab ▸ h)

/-- A collection is made from its entries in any order. -/
theorem ofList_of_perm {gs : Groups} {groups : List Group} (h : groups.Perm gs.entries) :
    ofList groups = gs := by
  have hnodup : (groups.map (·.1)).Nodup := (h.map _).nodup_iff.mpr gs.nodup_names
  refine ext_get? fun name => ?_
  by_cases hname : name ∈ groups.map (·.1)
  · obtain ⟨g, hg, rfl⟩ := List.mem_map.mp hname
    rw [get?_ofList_of_mem hnodup hg]
    exact (mem_entries_iff.mp (h.subset hg)).symm
  · rw [get?_ofList_of_not_mem hname]
    refine (Option.eq_none_iff_forall_ne_some.mpr fun requirements hrequirements => hname ?_).symm
    exact List.mem_map.mpr ⟨(name, requirements), h.symm.subset (mem_entries_iff.mpr hrequirements),
      rfl⟩

/-! ### How many requirements there are -/

/-- How many requirements there are in all groups together. -/
def size (gs : Groups) : ℕ := (gs.entries.map (·.2.length)).sum

private theorem sum_insertGroup (name : String) (requirements : List String) {entries : List Group}
    (h : Ordered entries) :
    ((insertGroup name requirements entries).map (·.2.length)).sum +
        (((entries.find? (·.1 = name)).map (·.2)).getD []).length =
      (entries.map (·.2.length)).sum + requirements.length := by
  induction entries with
  | nil => simp [insertGroup]
  | cons e rest ih =>
    obtain ⟨he, hrest⟩ := List.pairwise_cons.mp h
    unfold insertGroup
    split_ifs with hlt heq
    · -- the new group comes first, so there is none of its name
      have hnone : (e :: rest).find? (·.1 = name) = none := by
        rw [List.find?_eq_none]
        intro g hg hname
        have hname : g.1 = name := by simpa using hname
        rcases List.mem_cons.mp hg with rfl | hg
        · exact String.lt_irrefl name (hname ▸ hlt)
        · exact String.lt_irrefl name (String.lt_trans hlt (hname ▸ he g hg))
      simp [hnone]
      omega
    · simp [heq]
      omega
    · have ih := ih hrest
      rw [List.find?_cons_of_neg (by simpa using Ne.symm heq)]
      simp only [List.map_cons, List.sum_cons]
      omega

/-- A further requirement is one requirement more. -/
theorem size_push (gs : Groups) (name requirement : String) :
    (gs.push name requirement).size = gs.size + 1 := by
  have h := sum_insertGroup name ((gs.get? name).getD [] ++ [requirement]) gs.ordered
  rw [List.length_append, List.length_singleton] at h
  have hget : ((gs.entries.find? (·.1 = name)).map (·.2)).getD [] = (gs.get? name).getD [] := rfl
  rw [hget] at h
  simp only [push, insert, size]
  omega

end Descriptor.Groups
