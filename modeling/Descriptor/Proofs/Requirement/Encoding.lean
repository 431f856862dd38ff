import Descriptor.Proofs.Record.Groups
import Descriptor.Proofs.Requirement.Clauses

/-!
# Requirements written with their groups

The form in which requirements of several groups are written in one list, and the way back. A
requirement of a group carries a clause that names the group, in front of its own condition or
behind it; one of no group carries its condition alone. Sorting such a list gives back the
requirements of no group and those of every group, each in their order, however the requirements of
different groups are mixed.

## Main definitions

* `Demand` : a requirement apart from its group, with `Demand.text`, its normal form.
* `Written` : the texts that a requirement of a group, or of none, can be written as.
* `Collection` : requirements of no group and of several groups.
* `Interleaving` : a list in which the requirements of each group stand in their order.

## Main results

* `file_of_written` : a written requirement is filed in its normal form under its group.
* `get?_foldl_addFiled` : the groups after any number of filed requirements.
* `partition_of_written` : sorting gives back what was written.
-/

namespace Descriptor.Requirement

open Text

/-! ### Requirements and the texts that they are written as -/

/-- A requirement apart from its group: what is required, and on what condition. -/
structure Demand where
  subject : List Char
  condition : Option (List Char)

/-- The normal form of a requirement. -/
def Demand.text (d : Demand) : String :=
  match d.condition with
  | none => String.ofList d.subject
  | some condition => String.ofList (d.subject ++ ';' :: ' ' :: condition)

/-- A condition that can be told from a clause that names a group: it is not empty, its white space
is single inner spaces, it does not end in the word `and`, and none of its clauses names a group. -/
structure PlainCondition (condition : List Char) : Prop where
  ne_nil : condition ≠ []
  squeezed : squeeze condition = condition
  not_suffix : ¬[' ', 'a', 'n', 'd'] <:+ condition
  extraGroup?_eq_none : ∀ clause ∈ clauses condition, extraGroup? clause = none

/-- What is required has neither blanks nor parentheses nor a semicolon, and the condition, if there
is one, is plain. -/
structure Demand.WellFormed (d : Demand) : Prop where
  subject : ∀ c ∈ d.subject, isBlank c = false ∧ c ≠ '(' ∧ c ≠ ')' ∧ c ≠ ';'
  condition : ∀ condition ∈ d.condition, PlainCondition condition

/-- A name of a group: not empty, without the word `and`, its white space single spaces. -/
structure GroupName (group : List Char) : Prop where
  ne_nil : group ≠ []
  blank_eq_space : ∀ c ∈ group, isBlank c → c = ' '
  single : ¬[' ', ' '] <:+: group
  no_conjunction : ¬conjunction <:+: group

/-- The clauses that name a group, in quotation marks that do not occur in it, with any white space
around what they consist of. -/
inductive WrittenClause (group : List Char) : List Char → Prop
  | intro {b₀ b₁ b₂ b₃ : List Char} {quote : Char} (h₀ : Blanks b₀) (h₁ : Blanks b₁)
      (h₂ : Blanks b₂) (h₃ : Blanks b₃) (hquote : isQuote quote) (hgroup : quote ∉ group) :
      WrittenClause group
        (b₀ ++ (extraVariable ++ b₁ ++ ['=', '='] ++ (b₂ ++ (quote :: group ++ [quote]))) ++ b₃)

/-- White space between two clauses. -/
def IsGap (gap : List Char) : Prop := Blanks gap ∧ gap ≠ []

/-- The texts that a requirement of a group, or of none, is written as: in front, what is required
with any parentheses and white space; behind a semicolon, the condition with any white space between
its words, the clause that names the group, or both in either order. -/
inductive Written (d : Demand) : Option (List Char) → List Char → Prop
  | bare {front : List Char} (hfront : compact front = d.subject) (hnone : d.condition = none) :
      Written d none front
  | marked {front text : List Char} (hfront : compact front = d.subject)
      (htext : d.condition = some (squeeze text)) : Written d none (front ++ ';' :: text)
  | grouped {front clause group : List Char} (hfront : compact front = d.subject)
      (hnone : d.condition = none) (hclause : WrittenClause group clause) :
      Written d (some group) (front ++ ';' :: clause)
  | clauseLast {front text gap gap' clause group : List Char} (hfront : compact front = d.subject)
      (htext : d.condition = some (squeeze text)) (hgap : IsGap gap) (hgap' : IsGap gap')
      (hclause : WrittenClause group clause) :
      Written d (some group) (front ++ ';' :: (text ++ gap ++ (['a', 'n', 'd'] ++ gap' ++ clause)))
  | clauseFirst {front text gap gap' clause group : List Char} (hfront : compact front = d.subject)
      (htext : d.condition = some (squeeze text)) (hgap : IsGap gap) (hgap' : IsGap gap')
      (hclause : WrittenClause group clause) :
      Written d (some group) (front ++ ';' :: (clause ++ gap ++ (['a', 'n', 'd'] ++ gap' ++ text)))

/-! ### Squeezed clauses -/

/-- Squeezing leaves of a written clause what it consists of, with blanks in fewer places. -/
theorem WrittenClause.squeeze {group clause : List Char} (h : WrittenClause group clause)
    (hgroup : GroupName group) :
    ∃ b₁ b₂ quote, Blanks b₁ ∧ Blanks b₂ ∧ isQuote quote ∧ quote ∉ group ∧
      squeeze clause =
        extraVariable ++ b₁ ++ ['=', '='] ++ (b₂ ++ (quote :: group ++ [quote])) := by
  obtain ⟨h₀, h₁, h₂, h₃, hquote, hmem⟩ := h
  next b₀ b₁ b₂ b₃ quote =>
  have hblank : isBlank quote = false := not_isBlank_of_isQuote hquote
  refine ⟨collapse false b₁, collapse false b₂, quote, h₁.collapse false, h₂.collapse false,
    hquote, hmem, ?_⟩
  have hcollapse : collapse true (b₀ ++ (extraVariable ++ b₁ ++ ['=', '='] ++
      (b₂ ++ (quote :: group ++ [quote]))) ++ b₃) =
      extraVariable ++ collapse false b₁ ++ ['=', '='] ++
        (collapse false b₂ ++ (quote :: group ++ [quote])) ++ collapse false b₃ := by
    have hvariable : ∀ c ∈ extraVariable, isBlank c = false :=
      List.all_iff_forall_prop.mp (by decide)
    have hequal : ∀ c ∈ ['=', '='], isBlank c = false := List.all_iff_forall_prop.mp (by decide)
    have hname : collapse false group = group :=
      collapse_eq_self hgroup.blank_eq_space hgroup.single
    simp only [List.append_assoc]
    rw [collapse_append, h₀.collapse_true, collapse_word_append hvariable (by decide),
      collapse_append, collapse_word_append hequal (by decide)]
    simp only [List.cons_append, List.nil_append, collapse_append,
      collapse_cons_of_not_blank hblank, hname]
  rw [squeeze_eq_trimEnd_collapse, hcollapse, trimEnd_append_blanks (h₃.collapse false)]
  simp only [← List.append_assoc]
  exact trimEnd_append_of_not_blank hblank _

private theorem infix_of_infix_append_cons {word xs ys : List Char} {c : Char} (hc : c ∉ word)
    (h : word <:+: xs ++ c :: ys) : word <:+: xs ∨ word <:+: ys := by
  obtain ⟨before, after, h⟩ := h
  rw [List.append_assoc] at h
  rcases List.append_eq_append_iff.mp h with ⟨rest, rfl, hrest⟩ | ⟨rest, rfl, hrest⟩
  · rcases List.append_eq_append_iff.mp hrest with ⟨rest', rfl, -⟩ | ⟨rest', hword, hrest'⟩
    · exact .inl ⟨before, rest', by rw [List.append_assoc]⟩
    · cases rest' with
      | nil => exact .inl ⟨before, [], by simp [hword]⟩
      | cons d rest' =>
        obtain ⟨rfl, -⟩ := List.cons.inj hrest'
        exact absurd (hword ▸ List.mem_append_right rest List.mem_cons_self) hc
  · cases rest with
    | nil =>
      cases word with
      | nil => exact .inr ⟨[], ys, rfl⟩
      | cons d word =>
        obtain ⟨rfl, -⟩ := List.cons.inj hrest
        exact absurd List.mem_cons_self hc
    | cons d rest =>
      obtain ⟨-, rfl⟩ := List.cons.inj hrest
      exact .inr ⟨rest, after, by simp⟩

private theorem not_isQuote_of_mem_conjunction : ∀ c ∈ conjunction, isQuote c = false :=
  List.all_iff_forall_prop.mp (by decide)

/-- A squeezed clause is one clause, and names its group. -/
theorem WrittenClause.squeeze_spec {group clause : List Char} (h : WrittenClause group clause)
    (hgroup : GroupName group) :
    extraGroup? (Text.squeeze clause) = some group ∧
      clauses (Text.squeeze clause) = [Text.squeeze clause] ∧
      ¬[' ', 'a', 'n', 'd'] <:+ Text.squeeze clause ∧ Text.squeeze clause ≠ [] := by
  obtain ⟨b₁, b₂, quote, h₁, h₂, hquote, hmem, hsqueeze⟩ := h.squeeze hgroup
  rw [hsqueeze]
  refine ⟨extraGroup?_of_quoted h₁ h₂ hquote hmem hgroup.ne_nil,
    clauses_of_no_conjunction ?_, ?_, by simp [extraVariable]⟩
  · have hfront : 'n' ∉ extraVariable ++ b₁ ++ ['=', '='] ++ b₂ := by
      have hblank : isBlank 'n' = false := by decide
      have hb₁ : 'n' ∉ b₁ := fun hn => by simpa [hblank] using h₁ 'n' hn
      have hb₂ : 'n' ∉ b₂ := fun hn => by simpa [hblank] using h₂ 'n' hn
      simp [extraVariable, hb₁, hb₂]
    have hword : quote ∉ conjunction := fun hq => by
      simp [not_isQuote_of_mem_conjunction quote hq] at hquote
    intro hconj
    have hshape : extraVariable ++ b₁ ++ ['=', '='] ++ (b₂ ++ (quote :: group ++ [quote])) =
        extraVariable ++ b₁ ++ ['=', '='] ++ b₂ ++ quote :: (group ++ quote :: []) := by simp
    rcases infix_of_infix_append_cons hword (hshape ▸ hconj) with hconj | hconj
    · exact hfront (hconj.subset (by decide))
    · rcases infix_of_infix_append_cons hword hconj with hconj | hconj
      · exact hgroup.no_conjunction hconj
      · exact absurd (List.infix_nil.mp hconj) (by decide)
  · rintro ⟨before, heq⟩
    have hlast := congrArg List.getLast? heq
    simp only [List.getLast?_append, List.getLast?_cons, List.getLast?_nil] at hlast
    obtain rfl : 'd' = quote := by simpa using hlast
    exact absurd hquote (by decide)

/-! ### Filing a written requirement -/

/-- Squeezing a condition and a clause with the word `and` between them. -/
private theorem squeeze_joined {first second gap gap' : List Char} (hgap : IsGap gap)
    (hgap' : IsGap gap') (hfirst : squeeze first ≠ []) (hsecond : squeeze second ≠ []) :
    squeeze (first ++ gap ++ (['a', 'n', 'd'] ++ gap' ++ second)) =
      squeeze first ++ conjunction ++ squeeze second := by
  have hword : squeeze ['a', 'n', 'd'] = ['a', 'n', 'd'] := by decide
  have hrest : squeeze (['a', 'n', 'd'] ++ gap' ++ second) =
      ['a', 'n', 'd'] ++ ' ' :: squeeze second := by
    rw [squeeze_append_blanks hgap'.1 hgap'.2 (by decide) hsecond, hword]
  rw [squeeze_append_blanks hgap.1 hgap.2 hfirst (by rw [hrest]; exact List.cons_ne_nil _ _), hrest]
  simp [conjunction]

variable {d : Demand} {group : List Char} {record : String}

private theorem semicolon_not_mem (hd : d.WellFormed) {front : List Char}
    (hfront : compact front = d.subject) : ';' ∉ front := by
  rw [← semicolon_not_mem_compact, hfront]
  exact fun hmem => (hd.subject ';' hmem).2.2.2 rfl

/-- A requirement of no group is filed in its normal form, under no group. -/
theorem file_of_written_none (hd : d.WellFormed) (h : Written d none record.toList) :
    file record = ⟨d.text, none⟩ := by
  generalize hrecord : record.toList = text at h
  cases h with
  | @bare front hfront hnone =>
    rw [file_of_no_marker (hrecord ▸ semicolon_not_mem hd hfront), hrecord, hfront, Demand.text,
      hnone]
  | @marked front text hfront htext =>
    have hplain := hd.condition _ htext
    rw [file_of_takeGroup?_eq_none hrecord (semicolon_not_mem hd hfront)
      (takeGroup?_eq_none_iff.mpr hplain.extraGroup?_eq_none), hfront, Demand.text, htext]
    rfl

/-- A requirement of a group is filed in its normal form, under its group. -/
theorem file_of_written_some (hd : d.WellFormed) (hgroup : GroupName group)
    (h : Written d (some group) record.toList) :
    file record = ⟨d.text, some (String.ofList group)⟩ := by
  generalize hrecord : record.toList = text at h
  cases h with
  | @grouped front clause _ hfront hnone hclause =>
    obtain ⟨hextra, hsingle, -, -⟩ := hclause.squeeze_spec hgroup
    have htake : takeGroup? (clauses (squeeze clause)) = some (group, []) := by
      rw [hsingle]
      exact @takeGroup?_append [] [] _ _ (by simp) hextra
    rw [file_of_takeGroup?_eq_some hrecord (semicolon_not_mem hd hfront) htake, hfront,
      Demand.text, hnone]
    rfl
  | @clauseLast front text gap gap' clause _ hfront htext hgap hgap' hclause =>
    have hplain := hd.condition _ htext
    obtain ⟨hextra, hsingle, -, hne⟩ := hclause.squeeze_spec hgroup
    have htake : takeGroup? (clauses (squeeze (text ++ gap ++ (['a', 'n', 'd'] ++ gap' ++
        clause)))) = some (group, clauses (squeeze text)) := by
      rw [squeeze_joined hgap hgap' hplain.ne_nil hne, clauses_append hplain.not_suffix, hsingle,
        takeGroup?_append hplain.extraGroup?_eq_none hextra, List.append_nil]
    rw [file_of_takeGroup?_eq_some hrecord (semicolon_not_mem hd hfront) htake, hfront,
      joinClauses_clauses, Demand.text, htext, if_neg (by simpa using hplain.ne_nil)]
    rfl
  | @clauseFirst front text gap gap' clause _ hfront htext hgap hgap' hclause =>
    have hplain := hd.condition _ htext
    obtain ⟨hextra, hsingle, hsuffix, hne⟩ := hclause.squeeze_spec hgroup
    have htake : takeGroup? (clauses (squeeze (clause ++ gap ++ (['a', 'n', 'd'] ++ gap' ++
        text)))) = some (group, clauses (squeeze text)) := by
      rw [squeeze_joined hgap hgap' hne hplain.ne_nil, clauses_append hsuffix, hsingle]
      exact @takeGroup?_append [] (clauses (squeeze text)) _ _ (by simp) hextra
    rw [file_of_takeGroup?_eq_some hrecord (semicolon_not_mem hd hfront) htake, hfront,
      joinClauses_clauses, Demand.text, htext, if_neg (by simpa using hplain.ne_nil)]
    rfl

/-! ### Sorting a list of written requirements -/

/-- The requirements of no group and those of each group, in their order. -/
structure Collection where
  base : List Demand
  groups : List (List Char × List Demand)

/-- All requirements are well-formed; the groups have different names, and none is empty. -/
structure Collection.WellFormed (c : Collection) : Prop where
  base : ∀ d ∈ c.base, d.WellFormed
  name : ∀ g ∈ c.groups, GroupName g.1
  ne_nil : ∀ g ∈ c.groups, g.2 ≠ []
  demand : ∀ g ∈ c.groups, ∀ d ∈ g.2, d.WellFormed
  nodup : (c.groups.map (·.1)).Nodup

/-- The requirements of a collection in normal form, sorted. -/
def Collection.partition (c : Collection) : Partition :=
  ⟨c.base.map Demand.text,
    .ofList (c.groups.map fun g => (String.ofList g.1, g.2.map Demand.text))⟩

/-- A requirement with the group that it is written for, if any. -/
structure Entry where
  group : Option (List Char)
  demand : Demand

/-- The requirements that a list has for a group, or for none, in their order. -/
def demandsOf (group : Option (List Char)) (entries : List Entry) : List Demand :=
  (entries.filter (·.group = group)).map (·.demand)

/-- A list in which the requirements of no group and those of every group of a collection stand in
their order, and no others. -/
structure Interleaving (c : Collection) (entries : List Entry) : Prop where
  base : demandsOf none entries = c.base
  group : ∀ g ∈ c.groups, demandsOf (some g.1) entries = g.2
  named : ∀ entry ∈ entries, ∀ name ∈ entry.group, name ∈ c.groups.map (·.1)

/-- The filed form of a requirement. -/
def Entry.filed (entry : Entry) : Filed :=
  ⟨entry.demand.text, entry.group.map String.ofList⟩

theorem mem_demandsOf {entry : Entry} {entries : List Entry} (h : entry ∈ entries) :
    entry.demand ∈ demandsOf entry.group entries :=
  List.mem_map.mpr ⟨entry, List.mem_filter.mpr ⟨h, by simp⟩, rfl⟩

/-- What is written for a requirement of an interleaved list is filed in its normal form, under its
group. -/
theorem file_of_written {c : Collection} (hc : c.WellFormed) {entries : List Entry}
    (h : Interleaving c entries) {entry : Entry} (hentry : entry ∈ entries) {record : String}
    (hwritten : Written entry.demand entry.group record.toList) : file record = entry.filed := by
  have hmem := mem_demandsOf hentry
  obtain ⟨group, d⟩ := entry
  cases group with
  | none =>
    rw [h.base] at hmem
    exact file_of_written_none (hc.base d hmem) hwritten
  | some name =>
    obtain ⟨g, hg, rfl⟩ := List.mem_map.mp (h.named _ hentry name rfl)
    rw [h.group g hg] at hmem
    exact file_of_written_some (hc.demand g hg d hmem) (hc.name g hg) hwritten

theorem map_file_of_written {c : Collection} (hc : c.WellFormed) {entries : List Entry}
    (h : Interleaving c entries) {records : List String}
    (hwritten : List.Forall₂ (fun entry record => Written entry.demand entry.group record.toList)
      entries records) : records.map file = entries.map Entry.filed := by
  have hfiled : ∀ part ⊆ entries, ∀ records : List String,
      List.Forall₂ (fun entry record => Written entry.demand entry.group record.toList)
        part records → records.map file = part.map Entry.filed := by
    intro part hpart records hwritten
    induction hwritten with
    | nil => rfl
    | @cons entry record part records hentry _ ih =>
      obtain ⟨hmem, hrest⟩ := List.cons_subset.mp hpart
      rw [List.map_cons, List.map_cons, ih hrest, file_of_written hc h hmem hentry]
  exact hfiled entries (List.Subset.refl _) records hwritten

/-- What a list of filed requirements has for a group. -/
def requirementsOf (name : String) (filed : List Filed) : List String :=
  (filed.filter (·.group = some name)).map (·.requirement)

/-- Filed requirements are put behind those that their group has already. -/
theorem get?_foldl_addFiled (filed : List Filed) (groups : Groups) (name : String) :
    (filed.foldl addFiled groups).get? name =
      if requirementsOf name filed = [] then groups.get? name
      else some ((groups.get? name).getD [] ++ requirementsOf name filed) := by
  induction filed generalizing groups with
  | nil => rfl
  | cons f filed ih =>
    rw [List.foldl_cons, ih]
    obtain ⟨requirement, group⟩ := f
    cases group with
    | none => simp [addFiled, requirementsOf]
    | some other =>
      simp only [addFiled, Groups.get?_push]
      by_cases hother : other = name
      · by_cases hrest : requirementsOf name filed = [] <;>
          simp_all [requirementsOf]
      · simp [requirementsOf, hother]

private theorem filterMap_base?_filed (entries : List Entry) :
    (entries.map Entry.filed).filterMap (·.base?) = (demandsOf none entries).map Demand.text := by
  induction entries with
  | nil => rfl
  | cons entry entries ih =>
    obtain ⟨group, d⟩ := entry
    cases group <;> simp_all [Entry.filed, Filed.base?, demandsOf]

private theorem requirementsOf_filed (group : List Char) (entries : List Entry) :
    requirementsOf (String.ofList group) (entries.map Entry.filed) =
      (demandsOf (some group) entries).map Demand.text := by
  have hgroup : ∀ entry : Entry, entry.filed.group = some (String.ofList group) ↔
      entry.group = some group := fun ⟨other, d⟩ => by
    simp [Entry.filed, String.ofList_inj]
  simp only [requirementsOf, demandsOf, List.filter_map, List.map_map]
  congr 1
  exact List.filter_congr fun entry _ => by simp only [Function.comp_apply, hgroup]

/-- The groups that the filed forms of an interleaved list are sorted into. -/
private theorem foldl_addFiled_filed {c : Collection} (hc : c.WellFormed) {entries : List Entry}
    (h : Interleaving c entries) :
    (entries.map Entry.filed).foldl addFiled .empty =
      .ofList (c.groups.map fun g => (String.ofList g.1, g.2.map Demand.text)) := by
  refine Groups.ext_get? fun name => ?_
  obtain ⟨name, rfl⟩ : ∃ cs, name = String.ofList cs := ⟨name.toList, by simp⟩
  rw [get?_foldl_addFiled, requirementsOf_filed, Groups.get?_empty]
  have hnames : (c.groups.map fun g => (String.ofList g.1, g.2.map Demand.text)).map (·.1) =
      (c.groups.map (·.1)).map String.ofList := by
    simp [List.map_map, Function.comp_def]
  by_cases hname : name ∈ c.groups.map (·.1)
  · obtain ⟨g, hg, rfl⟩ := List.mem_map.mp hname
    have hnodup : ((c.groups.map fun g => (String.ofList g.1, g.2.map Demand.text)).map
        (·.1)).Nodup := by
      rw [hnames]
      exact hc.nodup.map fun _ _ => String.ofList_inj.mp
    rw [h.group g hg, if_neg (by simpa using hc.ne_nil g hg)]
    exact (Groups.get?_ofList_of_mem hnodup (List.mem_map_of_mem hg)).symm
  · have hnone : demandsOf (some name) entries = [] := by
      rw [demandsOf, List.map_eq_nil_iff, List.filter_eq_nil_iff]
      intro entry hentry hgroup
      exact hname (h.named entry hentry name (by simpa using hgroup))
    have hnot : String.ofList name ∉
        (c.groups.map fun g => (String.ofList g.1, g.2.map Demand.text)).map (·.1) := by
      rw [hnames, List.mem_map_of_injective fun _ _ => String.ofList_inj.mp]
      exact hname
    rw [hnone, List.map_nil, if_pos rfl, Groups.get?_ofList_of_not_mem hnot]

/-- Sorting requirements that are written in any interleaved order gives them back in normal form,
those of no group and those of each group in their order, and no others. -/
theorem partition_of_written {c : Collection} (hc : c.WellFormed) {entries : List Entry}
    (h : Interleaving c entries) {records : List String}
    (hwritten : List.Forall₂ (fun entry record => Written entry.demand entry.group record.toList)
      entries records) : partition records = c.partition := by
  unfold partition Collection.partition
  dsimp only
  rw [map_file_of_written hc h hwritten, filterMap_base?_filed, h.base,
    foldl_addFiled_filed hc h]

/-- Requirements of no group and of two groups, the name of one with a quotation mark in it. -/
def toolCollection : Collection where
  base := [⟨"attrs>=21".toList, some "os_name == 'nt'".toList⟩]
  groups :=
    [("test".toList,
        [⟨"pytest".toList, none⟩, ⟨"mock".toList, some "python_version < '3'".toList⟩]),
      ("dev's kit".toList, [⟨"tox".toList, some "os_name == 'nt'".toList⟩])]

/-- The requirements of `toolCollection` in a mixed order. -/
def toolEntries : List Entry :=
  [⟨some "test".toList, ⟨"pytest".toList, none⟩⟩,
    ⟨none, ⟨"attrs>=21".toList, some "os_name == 'nt'".toList⟩⟩,
    ⟨some "dev's kit".toList, ⟨"tox".toList, some "os_name == 'nt'".toList⟩⟩,
    ⟨some "test".toList, ⟨"mock".toList, some "python_version < '3'".toList⟩⟩]

/-- The requirements of `toolEntries`, written in several ways. -/
def toolRecords : List String :=
  ["pytest ; extra == 'test'", "attrs (>=21);  os_name  == 'nt'",
    "tox;extra==\"dev's kit\" and os_name == 'nt'",
    "mock; python_version < '3' and  extra == 'test'"]

private theorem plainCondition_os : PlainCondition "os_name == 'nt'".toList :=
  ⟨by decide, by decide, by decide, by decide⟩

private theorem plainCondition_version : PlainCondition "python_version < '3'".toList :=
  ⟨by decide, by decide, by decide, by decide⟩

private theorem groupName_tool : ∀ g ∈ toolCollection.groups, GroupName g.1 := by
  have hname : ∀ g ∈ toolCollection.groups,
      g.1 ≠ [] ∧ g.1.all (fun c => isBlank c → c = ' ') ∧ g.1.count ' ' < 2 ∧ 'a' ∉ g.1 := by
    decide
  intro g hg
  obtain ⟨hne, hspace, hcount, hmem⟩ := hname g hg
  exact ⟨hne, List.all_iff_forall_prop.mp hspace,
    fun h => absurd (h.sublist.count_le ' ') (Nat.not_le.mpr hcount),
    fun h => hmem (h.subset (by decide))⟩

theorem toolCollection_wellFormed : toolCollection.WellFormed where
  base d hd := by
    obtain rfl := List.mem_singleton.mp hd
    exact ⟨List.all_iff_forall_prop.mp (by decide), by rintro _ ⟨⟩; exact plainCondition_os⟩
  name := groupName_tool
  ne_nil := by decide
  demand g hg d hd := by
    simp only [toolCollection, List.mem_cons, List.not_mem_nil, or_false] at hg
    obtain rfl | rfl := hg
    · simp only [List.mem_cons, List.not_mem_nil, or_false] at hd
      obtain rfl | rfl := hd
      · exact ⟨List.all_iff_forall_prop.mp (by decide), by rintro _ ⟨⟩⟩
      · exact ⟨List.all_iff_forall_prop.mp (by decide),
          by rintro _ ⟨⟩; exact plainCondition_version⟩
    · obtain rfl := List.mem_singleton.mp hd
      exact ⟨List.all_iff_forall_prop.mp (by decide), by rintro _ ⟨⟩; exact plainCondition_os⟩
  nodup := by decide

theorem toolEntries_interleaving : Interleaving toolCollection toolEntries where
  base := by rfl
  group g hg := by
    simp only [toolCollection, List.mem_cons, List.not_mem_nil, or_false] at hg
    obtain rfl | rfl := hg <;> rfl
  named := by decide

private theorem writtenClause_simple (group blanks : List Char) (quote : Char)
    (hall : blanks.all isBlank) (hquote : isQuote quote) (hgroup : quote ∉ group) :
    WrittenClause group
      (blanks ++ (extraVariable ++ blanks ++ ['=', '='] ++
        (blanks ++ (quote :: group ++ [quote])))) := by
  have hblanks : Blanks blanks := List.all_eq_true.mp hall
  have h := @WrittenClause.intro group blanks blanks blanks [] quote hblanks hblanks hblanks
    (fun _ h => absurd h List.not_mem_nil) hquote hgroup
  rwa [List.append_nil] at h

theorem toolRecords_written :
    List.Forall₂ (fun entry record => Written entry.demand entry.group record.toList)
      toolEntries toolRecords := by
  have hgap : IsGap [' '] := ⟨fun c hc => by rw [List.mem_singleton.mp hc]; rfl, by decide⟩
  refine .cons ?_ (.cons ?_ (.cons ?_ (.cons ?_ .nil)))
  · exact @Written.grouped ⟨"pytest".toList, none⟩ "pytest ".toList _ _ (by decide) rfl
      (writtenClause_simple "test".toList [' '] '\'' (by decide) (by decide) (by decide))
  · exact @Written.marked ⟨"attrs>=21".toList, some "os_name == 'nt'".toList⟩
      "attrs (>=21)".toList "  os_name  == 'nt'".toList (by decide) (by decide)
  · exact @Written.clauseFirst ⟨"tox".toList, some "os_name == 'nt'".toList⟩
      "tox".toList "os_name == 'nt'".toList _ _ _ _ (by decide) (by decide) hgap hgap
      (writtenClause_simple "dev's kit".toList [] '"' (by decide) (by decide) (by decide))
  · exact @Written.clauseLast ⟨"mock".toList, some "python_version < '3'".toList⟩
      "mock".toList " python_version < '3'".toList _ _ _ _ (by decide) (by decide) hgap hgap
      (writtenClause_simple "test".toList [' '] '\'' (by decide) (by decide) (by decide))

theorem partition_of_written_toolRecords :
    toolCollection.WellFormed ∧ Interleaving toolCollection toolEntries ∧
      List.Forall₂ (fun entry record => Written entry.demand entry.group record.toList)
        toolEntries toolRecords ∧
      partition toolRecords = toolCollection.partition :=
  ⟨toolCollection_wellFormed, toolEntries_interleaving, toolRecords_written,
    partition_of_written toolCollection_wellFormed toolEntries_interleaving toolRecords_written⟩

end Descriptor.Requirement
