import Descriptor.Record.Basic
import Mathlib.Data.List.Induction

/-!
# Merging records field by field

Every field of a merged record is that of the later record where it is known there, and that of the
earlier record otherwise. A text is known unless it is absent or empty, a collection unless it is
empty. So whatever number of records is merged in turn, each field is, as a whole, that of the last
record that knows it, and merging obeys its laws for all records, also for those that hold empty
texts.

## Main definitions

* `Record.Field` : a field, with the values of it that count as known.
* `Record.Field.name`, `Record.Field.version`, `Record.Field.pythonRequires`,
  `Record.Field.installRequires`, `Record.Field.extrasRequire` : the fields of a record.
* `Record.SaysRequirements` : a record that says something about what the package requires.
* `Record.EveryField` : what holds of each of the five fields.
* `Record.Field.Lasts` : the value that a field has after a run of merges.

## Main results

* `Record.Field.lasts_foldl_merge` : the fields of a record into which others are merged in turn.
* `Record.foldl_merge_laws` : the same for all fields, with the laws of merging.
-/

namespace Descriptor

theorem Groups.isEmpty_iff {gs : Groups} : gs.isEmpty = true ↔ gs = .empty := by
  rw [Groups.isEmpty, List.isEmpty_iff]
  exact ⟨fun h => Groups.ext h, fun h => h ▸ rfl⟩

namespace Record

/-- A text that says something. -/
def KnownText (value : Option String) : Prop := value ≠ none ∧ value ≠ some ""

theorem hasText_iff {value : Option String} : hasText value = true ↔ KnownText value := by
  cases value <;> simp [hasText, KnownText]

/-- A field of a record, with the values of it that count as known. -/
structure Field (α : Type) where
  get : Record → α
  Known : α → Prop
  get_merge_of_known {earlier later : Record} :
    Known (get later) → get (earlier.merge later) = get later
  get_merge_of_not_known {earlier later : Record} :
    ¬ Known (get later) → get (earlier.merge later) = get earlier
  not_known_unknown : ¬ Known (get .unknown)

namespace Field

/-- A field that holds a text. -/
def text (get : Record → Option String)
    (hmerge : ∀ earlier later, get (merge earlier later) = mergeText (get earlier) (get later))
    (hunknown : get .unknown = none) : Field (Option String) where
  get := get
  Known := KnownText
  get_merge_of_known h := by rw [hmerge, mergeText, if_pos (hasText_iff.mpr h)]
  get_merge_of_not_known h := by
    rw [hmerge, mergeText, if_neg fun hlater => h (hasText_iff.mp hlater)]
  not_known_unknown h := h.1 hunknown

/-- The name. -/
def name : Field (Option String) := text Record.name (fun _ _ => rfl) rfl

/-- The version. -/
def version : Field (Option String) := text Record.version (fun _ _ => rfl) rfl

/-- The versions of the interpreter. -/
def pythonRequires : Field (Option String) := text Record.pythonRequires (fun _ _ => rfl) rfl

/-- The requirements. -/
def installRequires : Field (List String) where
  get := Record.installRequires
  Known := (· ≠ [])
  get_merge_of_known h := if_neg fun hempty => h (List.isEmpty_iff.mp hempty)
  get_merge_of_not_known h := if_pos (List.isEmpty_iff.mpr (Decidable.not_not.mp h))
  not_known_unknown h := h rfl

/-- The groups of further requirements. -/
def extrasRequire : Field Groups where
  get := Record.extrasRequire
  Known := (· ≠ .empty)
  get_merge_of_known h := if_neg fun hempty => h (Groups.isEmpty_iff.mp hempty)
  get_merge_of_not_known h := if_pos (Groups.isEmpty_iff.mpr (Decidable.not_not.mp h))
  not_known_unknown h := h rfl

end Field

/-! ### What a record says -/

/-- A record that says something about what the package requires. -/
def SaysRequirements (record : Record) : Prop :=
  record.installRequires ≠ [] ∨ record.extrasRequire ≠ .empty ∨ KnownText record.pythonRequires

theorem lacksDependencies_iff {record : Record} :
    record.lacksDependencies = true ↔ ¬record.SaysRequirements := by
  simp only [lacksDependencies, SaysRequirements, Bool.and_eq_true, Bool.not_eq_true',
    List.isEmpty_iff, Groups.isEmpty_iff, ← hasText_iff, not_or, ne_eq, not_not, and_assoc,
    Bool.not_eq_true]

theorem isUnknown_iff {record : Record} :
    record.isUnknown = true ↔
      ¬KnownText record.name ∧ ¬KnownText record.version ∧ ¬record.SaysRequirements := by
  simp only [isUnknown, Bool.and_eq_true, Bool.not_eq_true', lacksDependencies_iff, ← hasText_iff,
    and_assoc, Bool.not_eq_true]

/-- What holds of each of the five fields. -/
structure EveryField (P : {α : Type} → Field α → Prop) : Prop where
  name : P Field.name
  version : P Field.version
  pythonRequires : P Field.pythonRequires
  installRequires : P Field.installRequires
  extrasRequire : P Field.extrasRequire

theorem EveryField.of_forall {P : {α : Type} → Field α → Prop}
    (h : ∀ {α : Type} (field : Field α), P field) : EveryField P :=
  ⟨h _, h _, h _, h _, h _⟩

/-- Records with the same fields are equal. -/
theorem eq_of_everyField {a b : Record} (h : EveryField fun field => field.get a = field.get b) :
    a = b := by
  obtain ⟨name, version, pythonRequires, installRequires, extrasRequire⟩ := h
  cases a; cases b
  exact congr (congr (congr (congr (congrArg mk name) version) pythonRequires) installRequires)
    extrasRequire

/-- Nothing is known of a record that says nothing. -/
theorem not_known_of_isUnknown {record : Record} (h : record.isUnknown = true) :
    EveryField fun field => ¬field.Known (field.get record) := by
  obtain ⟨hname, hversion, hrequirements⟩ := isUnknown_iff.mp h
  rw [SaysRequirements, not_or, not_or] at hrequirements
  exact ⟨hname, hversion, hrequirements.2.2, hrequirements.1, hrequirements.2.1⟩

/-! ### One merge -/

namespace Field

variable {α : Type} (field : Field α)

/-- A merge knows the fields that one of the two records knows. -/
theorem known_merge_iff {a b : Record} :
    field.Known (field.get (a.merge b)) ↔
      field.Known (field.get a) ∨ field.Known (field.get b) := by
  by_cases h : field.Known (field.get b)
  · rw [field.get_merge_of_known h]
    exact ⟨.inr, fun _ => h⟩
  · rw [field.get_merge_of_not_known h, or_iff_left h]

theorem get_merge_assoc (a b c : Record) :
    field.get ((a.merge b).merge c) = field.get (a.merge (b.merge c)) := by
  by_cases hc : field.Known (field.get c)
  · have hbc : field.Known (field.get (b.merge c)) := field.known_merge_iff.mpr (.inr hc)
    rw [field.get_merge_of_known hc, field.get_merge_of_known hbc, field.get_merge_of_known hc]
  rw [field.get_merge_of_not_known hc]
  by_cases hb : field.Known (field.get b)
  · have hbc : field.Known (field.get (b.merge c)) := field.known_merge_iff.mpr (.inl hb)
    rw [field.get_merge_of_known hb, field.get_merge_of_known hbc, field.get_merge_of_not_known hc]
  · have hbc : ¬field.Known (field.get (b.merge c)) := fun h =>
      (field.known_merge_iff.mp h).elim hb hc
    rw [field.get_merge_of_not_known hb, field.get_merge_of_not_known hbc]

theorem get_merge_self (a : Record) : field.get (a.merge a) = field.get a := by
  by_cases h : field.Known (field.get a)
  · exact field.get_merge_of_known h
  · exact field.get_merge_of_not_known h

end Field

/-- A record that says nothing makes no difference. -/
theorem merge_of_isUnknown (a : Record) {b : Record} (h : b.isUnknown = true) : a.merge b = a := by
  obtain ⟨hname, hversion, hpython, hinstall, hextras⟩ := not_known_of_isUnknown h
  exact eq_of_everyField
    ⟨Field.get_merge_of_not_known _ hname, Field.get_merge_of_not_known _ hversion,
      Field.get_merge_of_not_known _ hpython, Field.get_merge_of_not_known _ hinstall,
      Field.get_merge_of_not_known _ hextras⟩

theorem saysRequirements_merge_iff {a b : Record} :
    (a.merge b).SaysRequirements ↔ a.SaysRequirements ∨ b.SaysRequirements := by
  have hinstall := Field.installRequires.known_merge_iff (a := a) (b := b)
  have hextras := Field.extrasRequire.known_merge_iff (a := a) (b := b)
  have hpython := Field.pythonRequires.known_merge_iff (a := a) (b := b)
  simp only [Field.installRequires, Field.extrasRequire, Field.pythonRequires, Field.text]
    at hinstall hextras hpython
  rw [SaysRequirements, hinstall, hextras, hpython, SaysRequirements, SaysRequirements]
  exact (or_congr_right or_or_or_comm).trans or_or_or_comm

theorem lacksDependencies_merge_iff {a b : Record} :
    (a.merge b).lacksDependencies = true ↔
      a.lacksDependencies = true ∧ b.lacksDependencies = true := by
  rw [lacksDependencies_iff, saysRequirements_merge_iff, not_or, lacksDependencies_iff,
    lacksDependencies_iff]

theorem isUnknown_merge_iff {a b : Record} :
    (a.merge b).isUnknown = true ↔ a.isUnknown = true ∧ b.isUnknown = true := by
  have hname := Field.name.known_merge_iff (a := a) (b := b)
  have hversion := Field.version.known_merge_iff (a := a) (b := b)
  simp only [Field.name, Field.version, Field.text] at hname hversion
  rw [isUnknown_iff, hname, hversion, saysRequirements_merge_iff, isUnknown_iff, isUnknown_iff,
    not_or, not_or, not_or]
  exact (and_congr_right' and_and_and_comm).trans and_and_and_comm

/-! ### Records merged in turn -/

/-- The value that a field has once records are merged in turn into a record that comes before them:
that of the last of them that knows the field, or that of the first record if none does. -/
inductive Field.Lasts {α : Type} (field : Field α) (start : Record) : List Record → α → Prop
  | last {before after : List Record} {r : Record} (hknown : field.Known (field.get r))
      (hafter : ∀ later ∈ after, ¬field.Known (field.get later)) :
      Lasts field start (before ++ r :: after) (field.get r)
  | start {records : List Record} (h : ∀ r ∈ records, ¬field.Known (field.get r)) :
      Lasts field start records (field.get start)

/-- A further record that does not know a field leaves its value as it is. -/
theorem Field.Lasts.concat {α : Type} {field : Field α} {start : Record} {records : List Record}
    {value : α} (h : field.Lasts start records value) {r : Record}
    (hr : ¬field.Known (field.get r)) : field.Lasts start (records ++ [r]) value := by
  have hall {rs : List Record} (hrs : ∀ later ∈ rs, ¬field.Known (field.get later)) :
      ∀ later ∈ rs ++ [r], ¬field.Known (field.get later) := by
    intro later hlater
    rcases List.mem_append.mp hlater with hlater | hlater
    · exact hrs later hlater
    · exact List.mem_singleton.mp hlater ▸ hr
  cases h with
  | last hknown hafter =>
    rw [List.append_assoc, List.cons_append]
    exact .last hknown (hall hafter)
  | start h => exact .start (hall h)

/-- A field of a record into which others are merged in turn. -/
theorem Field.lasts_foldl_merge {α : Type} (field : Field α) (start : Record)
    (records : List Record) :
    field.Lasts start records (field.get (records.foldl merge start)) := by
  induction records using List.reverseRecOn with
  | nil => exact .start fun _ h => absurd h List.not_mem_nil
  | append_singleton records r ih =>
    rw [List.foldl_append, List.foldl_cons, List.foldl_nil]
    by_cases hr : field.Known (field.get r)
    · rw [field.get_merge_of_known hr]
      exact .last hr fun _ h => absurd h List.not_mem_nil
    · rw [field.get_merge_of_not_known hr]
      exact ih.concat hr

/-- What one merge asks of both records, a run of merges asks of all. -/
theorem foldl_merge_iff {p : Record → Bool}
    (hmerge : ∀ {a b : Record}, p (a.merge b) = true ↔ p a = true ∧ p b = true) (start : Record)
    (records : List Record) :
    p (records.foldl merge start) = true ↔ p start = true ∧ ∀ r ∈ records, p r = true := by
  induction records generalizing start with
  | nil => simp
  | cons r records ih => rw [List.foldl_cons, ih, hmerge, List.forall_mem_cons, and_assoc]

/-- **Merging takes the last known value of every field.** Let records be merged in turn into one
that comes before them. Each field is, as a whole, that of the last record that knows it, or that of
the first record where none does; and nothing is known, or nothing of the requirements, just when
this holds of every record. So merging is associative; a record merged with itself, or with one that
says nothing, stays what it is; and one that is merged a second time, behind another, has the fields
that it knows as if it came last only. -/
theorem foldl_merge_laws :
    (∀ (start : Record) (records : List Record),
      (EveryField fun field =>
        field.Lasts start records (field.get (records.foldl merge start))) ∧
      ((records.foldl merge start).isUnknown = true ↔
        start.isUnknown = true ∧ ∀ r ∈ records, r.isUnknown = true) ∧
      ((records.foldl merge start).lacksDependencies = true ↔
        start.lacksDependencies = true ∧ ∀ r ∈ records, r.lacksDependencies = true)) ∧
    (∀ a b c : Record, (a.merge b).merge c = a.merge (b.merge c)) ∧
    (∀ a : Record, a.merge a = a ∧ a.merge .unknown = a ∧
      ∀ b : Record, b.isUnknown = true → a.merge b = a) ∧
    ∀ a b : Record, EveryField fun field =>
      field.Known (field.get a) → field.get ((a.merge b).merge a) = field.get (b.merge a) := by
  refine ⟨fun start records => ⟨.of_forall fun field => field.lasts_foldl_merge start records,
    foldl_merge_iff isUnknown_merge_iff start records,
    foldl_merge_iff lacksDependencies_merge_iff start records⟩,
    fun a b c => eq_of_everyField (.of_forall fun field => field.get_merge_assoc a b c),
    fun a => ⟨eq_of_everyField (.of_forall fun field => field.get_merge_self a),
      merge_of_isUnknown a rfl, fun b hb => merge_of_isUnknown a hb⟩,
    fun a b => .of_forall fun field hknown => ?_⟩
  rw [field.get_merge_of_known hknown, field.get_merge_of_known hknown]

end Record

end Descriptor
