import Descriptor.Proofs.Requirement.Filing
import Mathlib.Data.Option.Basic

/-!
# Requirements in their places

What sorting a list of requirements does to the list as a whole. Every record goes to one place, the
requirements of no group or those of a group, and the places have their requirements in the order of
the list. So the partition of a list is determined by what each place is given, the partition of two
lists together is that of both, and only the order within a place counts.

## Main definitions

* `placed` : the requirements that a list of records has for a place.

## Main results

* `size_addFiled`, `size_foldl_addFiled` : no requirement is lost or repeated.
* `base_partition`, `mem_entries_partition_iff` : the requirements of each place.
* `partition_eq_iff` : lists that are sorted alike.
* `partition_conserves` : sorting conserves requirements and their order.
-/

namespace Descriptor.Requirement

/-- The requirements that a list of records has for a group, or for none, in their order. -/
def placed (place : Option String) (records : List String) : List String :=
  ((records.map file).filter (·.group = place)).map (·.requirement)

/-! ### Nothing is lost -/

/-- A requirement is either one of no group or one more in the groups. -/
theorem size_addFiled (groups : Groups) (f : Filed) :
    f.base?.toList.length + (addFiled groups f).size = groups.size + 1 := by
  obtain ⟨requirement, group⟩ := f
  cases group with
  | none => simp [addFiled, Filed.base?, Nat.add_comm]
  | some name => simp [addFiled, Filed.base?, Groups.size_push]

theorem size_foldl_addFiled (filed : List Filed) (groups : Groups) :
    (filed.filterMap (·.base?)).length + (filed.foldl addFiled groups).size =
      groups.size + filed.length := by
  induction filed generalizing groups with
  | nil => simp
  | cons f filed ih =>
    have hstep := size_addFiled groups f
    have hrest := ih (addFiled groups f)
    have hbase : ((f :: filed).filterMap (·.base?)).length =
        f.base?.toList.length + (filed.filterMap (·.base?)).length := by
      cases h : f.base? <;> simp [h, Nat.add_comm]
    rw [List.foldl_cons, List.length_cons, hbase]
    omega

/-! ### The requirements in their places -/

theorem placed_append (place : Option String) (xs ys : List String) :
    placed place (xs ++ ys) = placed place xs ++ placed place ys := by
  simp only [placed, List.map_append, List.filter_append]

theorem base_partition (records : List String) :
    (partition records).base = placed none records := by
  simp only [partition, placed]
  induction records with
  | nil => rfl
  | cons record records ih =>
    rw [List.map_cons, List.filterMap_cons, List.filter_cons, Filed.base?]
    cases (file record).group <;> simp [ih]

theorem get?_partition (records : List String) (name : String) :
    (partition records).extras.get? name =
      if placed (some name) records = [] then none else some (placed (some name) records) :=
  get?_foldl_addFiled (records.map file) .empty name

/-- The groups are those that some record goes to, each with the requirements that go there. -/
theorem mem_entries_partition_iff {records : List String} {g : Group} :
    g ∈ (partition records).extras.entries ↔ g.2 = placed (some g.1) records ∧ g.2 ≠ [] := by
  obtain ⟨name, requirements⟩ := g
  rw [Groups.mem_entries_iff, get?_partition]
  split_ifs with h
  · simp only [h, false_iff, not_and_not_right, imp_self]
  · rw [Option.some.injEq, eq_comm]
    exact (and_iff_left_of_imp fun heq => heq ▸ h).symm

/-- A group that requirements are put into has a name. -/
theorem name_ne_empty_of_mem_entries {records : List String} {g : Group}
    (h : g ∈ (partition records).extras.entries) : g.1 ≠ "" := by
  obtain ⟨hplaced, hne⟩ := mem_entries_partition_iff.mp h
  obtain ⟨requirement, hmem⟩ := List.exists_mem_of_ne_nil _ hne
  rw [hplaced, placed, List.mem_map] at hmem
  obtain ⟨f, hf, -⟩ := hmem
  obtain ⟨hrecord, hgroup⟩ := List.mem_filter.mp hf
  obtain ⟨record, -, rfl⟩ := List.mem_map.mp hrecord
  have hgroup : (file record).group = some g.1 := of_decide_eq_true hgroup
  exact fun hname => file_group_ne_empty record (hname ▸ hgroup)

/-- Lists are sorted alike if and only if every place has the same requirements in both, in the same
order. -/
theorem partition_eq_iff {xs ys : List String} :
    partition xs = partition ys ↔ ∀ place, placed place xs = placed place ys := by
  constructor
  · intro h place
    cases place with
    | none => rw [← base_partition, h, base_partition]
    | some name =>
      have hget := get?_partition ys name
      rw [← h, get?_partition] at hget
      split_ifs at hget with hxs hys hys
      · rw [hxs, hys]
      · exact Option.some.inj hget
  · intro h
    have hbase : (partition xs).base = (partition ys).base := by
      rw [base_partition, base_partition, h]
    have hextras : (partition xs).extras = (partition ys).extras :=
      Groups.ext_get? fun name => by rw [get?_partition, get?_partition, h]
    calc partition xs = ⟨(partition xs).base, (partition xs).extras⟩ := rfl
      _ = ⟨(partition ys).base, (partition ys).extras⟩ := by rw [hbase, hextras]
      _ = partition ys := rfl

/-- Records that go to different places may change places. -/
theorem partition_swap {a b : String} (h : (file a).group ≠ (file b).group)
    (before after : List String) :
    partition (before ++ b :: a :: after) = partition (before ++ a :: b :: after) := by
  have hpair (place : Option String) : placed place [b, a] = placed place [a, b] := by
    by_cases ha : (file a).group = place
    · have hb : (file b).group ≠ place := fun hb => h (ha.trans hb.symm)
      simp [placed, ha, hb]
    · simp [placed, List.filter_cons, ha]
  refine partition_eq_iff.mpr fun place => ?_
  have happend (x y : String) : placed place (before ++ x :: y :: after) =
      placed place before ++ (placed place [x, y] ++ placed place after) := by
    rw [← placed_append, ← placed_append]
    rfl
  rw [happend, happend, hpair]

/-- The requirements of a group in two lists together, where one of them may not have it. -/
theorem get?_partition_append (xs ys : List String) (name : String) :
    (partition (xs ++ ys)).extras.get? name =
      Option.merge (· ++ ·) ((partition xs).extras.get? name)
        ((partition ys).extras.get? name) := by
  rw [get?_partition, get?_partition, get?_partition, placed_append]
  split_ifs <;> simp_all

/-- **Sorting conserves requirements and their order.** Every record is in one place; the
requirements of each place stand in the order of the records that go there; there are no other
groups, and none without a name; the places of two lists together are those of both; and records
that go to different places may change places. -/
theorem partition_conserves (records : List String) :
    (partition records).base.length + (partition records).extras.size = records.length ∧
      (partition records).base = placed none records ∧
      (∀ g, g ∈ (partition records).extras.entries ↔
        g.2 = placed (some g.1) records ∧ g.2 ≠ []) ∧
      (∀ g ∈ (partition records).extras.entries, g.1 ≠ "") ∧
      (∀ others : List String,
        (partition (records ++ others)).base =
            (partition records).base ++ (partition others).base ∧
          ∀ name, (partition (records ++ others)).extras.get? name =
            Option.merge (· ++ ·) ((partition records).extras.get? name)
              ((partition others).extras.get? name)) ∧
      ∀ before a b after, records = before ++ a :: b :: after →
        (file a).group ≠ (file b).group →
        partition (before ++ b :: a :: after) = partition records := by
  refine ⟨?_, base_partition records, fun _ => mem_entries_partition_iff,
    fun _ => name_ne_empty_of_mem_entries,
    fun others => ⟨?_, get?_partition_append records others⟩, ?_⟩
  · have hsize := size_foldl_addFiled (records.map file) .empty
    rw [List.length_map] at hsize
    exact hsize.trans (Nat.zero_add _)
  · simp only [base_partition, placed_append]
  · rintro before a b after rfl h
    exact partition_swap h before after

/-- Records of no group and of two groups. -/
def mixedRecords : List String :=
  ["click>=8", "pytest; extra == 'test'", "sphinx; extra == 'docs'", "mock; extra == 'test'"]

theorem partition_conserves_mixedRecords :
    ("test", ["pytest", "mock"]) ∈ (partition mixedRecords).extras.entries ∧ "test" ≠ "" ∧
      (file "pytest; extra == 'test'").group ≠ (file "sphinx; extra == 'docs'").group ∧
      partition ["click>=8", "sphinx; extra == 'docs'", "pytest; extra == 'test'",
        "mock; extra == 'test'"] = partition mixedRecords := by
  obtain ⟨-, -, hgroups, hnames, -, hswap⟩ := partition_conserves mixedRecords
  have htest : ("test", ["pytest", "mock"]) ∈ (partition mixedRecords).extras.entries :=
    (hgroups _).mpr ⟨by decide, List.cons_ne_nil _ _⟩
  have hplaces : (file "pytest; extra == 'test'").group ≠ (file "sphinx; extra == 'docs'").group :=
    by decide
  exact ⟨htest, hnames _ htest, hplaces, hswap ["click>=8"] _ _ _ rfl hplaces⟩

end Descriptor.Requirement
