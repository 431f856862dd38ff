/-!
# Groups of requirements

Requirements under the names of the groups that ask for them. The groups stand in the order of
their names, which is the order of the names' bytes as well, and no name occurs twice; so two
collections with the same groups are equal.

## Main definitions

* `Groups` : the collection, with `Groups.get?`, `Groups.insert` and `Groups.push`.

## Main results

* `Groups.get?_insert` : an insertion replaces the group of its name and touches no other.
-/

namespace Descriptor

/-- A group with its requirements. -/
abbrev Group := String × List String

/-- Groups in the strict order of their names. -/
def Ordered (entries : List Group) : Prop := entries.Pairwise fun a b => a.1 < b.1

/-- Puts a group in its place, in place of one with its name. -/
def insertGroup (name : String) (requirements : List String) : List Group → List Group
  | [] => [(name, requirements)]
  | g :: rest =>
    if name < g.1 then (name, requirements) :: g :: rest
    else if name = g.1 then (name, requirements) :: rest
    else g :: insertGroup name requirements rest

theorem fst_eq_or_mem_of_mem_insertGroup {name : String} {requirements : List String} {g : Group}
    {entries : List Group} (h : g ∈ insertGroup name requirements entries) :
    g.1 = name ∨ g ∈ entries := by
  induction entries with
  | nil => exact .inl (by simp_all [insertGroup])
  | cons e rest ih =>
    unfold insertGroup at h
    split at h
    · rcases List.mem_cons.1 h with h | h
      · exact .inl (h ▸ rfl)
      · exact .inr h
    · split at h
      · rcases List.mem_cons.1 h with h | h
        · exact .inl (h ▸ rfl)
        · exact .inr (List.mem_cons_of_mem _ h)
      · rcases List.mem_cons.1 h with h | h
        · exact .inr (h ▸ List.mem_cons_self)
        · exact (ih h).imp_right (List.mem_cons_of_mem _)

theorem ordered_insertGroup (name : String) (requirements : List String) {entries : List Group}
    (h : Ordered entries) : Ordered (insertGroup name requirements entries) := by
  induction entries with
  | nil => exact List.pairwise_singleton _ _
  | cons e rest ih =>
    have he := List.pairwise_cons.1 h
    unfold insertGroup
    split
    · next hlt =>
      refine List.pairwise_cons.2 ⟨fun g hg => ?_, h⟩
      rcases List.mem_cons.1 hg with hg | hg
      · exact hg ▸ hlt
      · exact String.lt_trans hlt (he.1 g hg)
    · next hnlt =>
      split
      · next heq =>
        exact List.pairwise_cons.2 ⟨fun g hg => by simpa only [heq] using he.1 g hg, he.2⟩
      · next hne =>
        refine List.pairwise_cons.2 ⟨fun g hg => ?_, ih he.2⟩
        rcases fst_eq_or_mem_of_mem_insertGroup hg with hg | hg
        · have hle : e.1 ≤ name := String.not_lt.1 hnlt
          rw [hg]
          exact Decidable.byContradiction fun hcon =>
            hne (String.le_antisymm (String.not_lt.1 hcon) hle)
        · exact he.1 g hg

/-- Groups of requirements by name. -/
structure Groups where
  entries : List Group
  ordered : Ordered entries

namespace Groups

instance : DecidableEq Groups := fun a b =>
  if h : a.entries = b.entries then
    .isTrue (by cases a; cases b; cases h; rfl)
  else .isFalse fun hab => h (hab ▸ rfl)

@[ext]
theorem ext {a b : Groups} (h : a.entries = b.entries) : a = b := by
  cases a; cases b; cases h; rfl

/-- No groups. -/
def empty : Groups := ⟨[], List.Pairwise.nil⟩

instance : Inhabited Groups := ⟨empty⟩

/-- Whether there are no groups. -/
def isEmpty (gs : Groups) : Bool := gs.entries.isEmpty

/-- The requirements of the group with the given name. -/
def get? (gs : Groups) (name : String) : Option (List String) :=
  (gs.entries.find? (·.1 = name)).map (·.2)

/-- Gives a group its requirements, in place of those it had. -/
def insert (gs : Groups) (name : String) (requirements : List String) : Groups :=
  ⟨insertGroup name requirements gs.entries, ordered_insertGroup name requirements gs.ordered⟩

/-- Adds a requirement at the end of a group, which may be a new one. -/
def push (gs : Groups) (name : String) (requirement : String) : Groups :=
  gs.insert name ((gs.get? name).getD [] ++ [requirement])

/-- The groups of a list, the last of each name counting. -/
def ofList (groups : List Group) : Groups :=
  groups.foldl (fun gs g => gs.insert g.1 g.2) empty

private theorem find?_insertGroup (name : String) (requirements : List String) (other : String)
    (entries : List Group) :
    (insertGroup name requirements entries).find? (·.1 = other) =
      if name = other then some (name, requirements) else entries.find? (·.1 = other) := by
  induction entries with
  | nil => by_cases h : name = other <;> simp [insertGroup, h]
  | cons e rest ih =>
    unfold insertGroup
    split
    · by_cases h : name = other <;> simp [h]
    · split
      · next heq => by_cases h : name = other <;> simp_all
      · next hne =>
        rw [List.find?_cons, List.find?_cons, ih]
        by_cases h : e.1 = other
        · have : ¬ name = other := fun hn => hne (hn.trans h.symm)
          simp [h, this]
        · simp [h]

/-- An insertion replaces the group of its name and touches no other. -/
theorem get?_insert (gs : Groups) (name : String) (requirements : List String) (other : String) :
    (gs.insert name requirements).get? other =
      if name = other then some requirements else gs.get? other := by
  unfold get? insert
  rw [find?_insertGroup]
  split <;> rfl

end Groups

end Descriptor
