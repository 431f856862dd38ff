import Descriptor.Proofs.Script.Fields
import Descriptor.Proofs.Script.Visibility

/-!
# Forwarding a whole mapping to a call

A call may pass a mapping as a whole beside its named arguments. Where the mapping that counts is a
bare name whose first visible assignment writes the mapping out, forwarding it is the same as
writing its entries out as further named arguments, behind those that the call has already. In all
other cases it is the same as not forwarding anything.

## Main definitions

* `namedOf` : the arguments that a call passes under names of their own.
* `PassesLast` : the mapping that counts, the last of those that a call passes as a whole.
* `WritesOut` : a mapping whose entries are written out in visible statements, with the named
  arguments that they amount to.
* `CallSite.withKeywords` : the call with other keyword arguments, where it stands.

## Main results

* `value?_of_writesOut`, `value?_of_not_writesOut` : the value under a keyword, case by case.
* `record_forwarded` : forwarding against writing out, for whole records.
-/

namespace Descriptor.Script

/-! ### Named arguments and whole mappings -/

/-- Whether a keyword argument has a name of its own. -/
def Keyword.isNamed : Keyword → Bool
  | .named _ _ => true
  | .bundle _ => false

/-- The keyword arguments that have a name of their own, in order. -/
def namedOf (keywords : List Keyword) : List Keyword := keywords.filter (·.isNamed)

/-- The last mapping that keyword arguments pass as a whole. -/
inductive PassesLast : List Keyword → Expr → Prop
  | intro (before : List Keyword) (mapping : Expr) (after : List Keyword)
      (h : ∀ keyword ∈ after, keyword.isNamed) :
      PassesLast (before ++ .bundle mapping :: after) mapping

theorem bundle?_eq_some_iff {keywords : List Keyword} {mapping : Expr} :
    bundle? keywords = some mapping ↔ PassesLast keywords mapping := by
  have hbundle (keyword : Keyword) : (match keyword with
      | .named _ _ => none
      | .bundle value => some value) = none ↔ keyword.isNamed := by
    cases keyword <;> simp [Keyword.isNamed]
  constructor
  · intro h
    obtain ⟨after, keyword, before, hkeywords, hvalue, hafter⟩ := List.findSome?_eq_some_iff.mp h
    cases keyword with
    | named id value => simp only [reduceCtorEq] at hvalue
    | bundle value =>
      obtain rfl := Option.some.inj hvalue
      have hsplit : keywords = before.reverse ++ .bundle value :: after.reverse := by
        rw [← List.reverse_reverse keywords, hkeywords]
        simp
      rw [hsplit]
      refine .intro _ _ _ fun keyword hmem => ?_
      exact (hbundle keyword).mp (hafter keyword (List.mem_reverse.mp hmem))
  · rintro ⟨before, mapping, after, hafter⟩
    refine List.findSome?_eq_some_iff.mpr
      ⟨after.reverse, .bundle mapping, before.reverse, by simp, rfl, fun keyword hmem => ?_⟩
    exact (hbundle keyword).mpr (hafter keyword (List.mem_reverse.mp hmem))

theorem bundle?_eq_none_of_named {keywords : List Keyword}
    (h : ∀ keyword ∈ keywords, keyword.isNamed) : bundle? keywords = none := by
  refine Option.eq_none_iff_forall_ne_some.mpr fun mapping hmapping => ?_
  obtain ⟨before, mapping, after, -⟩ := bundle?_eq_some_iff.mp hmapping
  have hnamed := h (.bundle mapping) (List.mem_append_right before List.mem_cons_self)
  simp only [Keyword.isNamed, Bool.false_eq_true] at hnamed

theorem keywordValue?_append (keywords more : List Keyword) (id : String) :
    keywordValue? (keywords ++ more) id =
      (keywordValue? keywords id).or (keywordValue? more id) :=
  List.findSome?_append

theorem keywordValue?_namedOf (keywords : List Keyword) (id : String) :
    keywordValue? (namedOf keywords) id = keywordValue? keywords id := by
  induction keywords with
  | nil => rfl
  | cons keyword rest ih =>
    cases keyword with
    | named name value =>
      change keywordValue? (.named name value :: namedOf rest) id = _
      rw [keywordValue?, List.findSome?_cons, ← keywordValue?, ih]
      rfl
    | bundle value => exact ih

/-! ### Mappings that are written out -/

/-- The named argument that an entry of a mapping display amounts to: one under a literal key. -/
def Entry.keyword? : Entry → Option Keyword
  | .pair (.text id) value => some (.named id value)
  | _ => none

/-- The named arguments that a mapping amounts to in visible statements: it has to be a bare name
whose first assignment is a mapping display or a call of `dict`. Entries under other keys, and whole
mappings within, amount to nothing. -/
inductive WritesOut (body : List Stmt) : Expr → List Keyword → Prop
  | display {id : String} {entries : List Entry} (h : FirstAssigned body id (.dict entries)) :
      WritesOut body (.name id) (entries.filterMap (·.keyword?))
  | construction {id : String} {args : List Expr} {keywords : List Keyword}
      (h : FirstAssigned body id (.call (.name "dict") args keywords)) :
      WritesOut body (.name id) (namedOf keywords)

theorem entryValue?_eq (entries : List Entry) (key : String) :
    entryValue? entries key = keywordValue? (entries.filterMap (·.keyword?)) key := by
  induction entries with
  | nil => rfl
  | cons entry rest ih =>
    cases entry with
    | splat value => exact ih
    | pair k value =>
      cases k with
      | text id =>
        simp only [entryValue?, List.findSome?_cons, Expr.text?, Option.some.injEq,
          List.filterMap_cons, Entry.keyword?, keywordValue?]
        split <;> [rfl; exact ih]
      | _ => exact ih

/-- A mapping that is written out gives under a key what its entries, as named arguments, give. -/
theorem WritesOut.exists_mappingValue? {body : List Stmt} {mapping : Expr} {entries : List Keyword}
    (h : WritesOut body mapping entries) :
    ∃ id value, mapping = .name id ∧ lookup? body id = some value ∧
      ∀ key, mappingValue? value key = keywordValue? entries key := by
  cases h with
  | display h => exact ⟨_, _, rfl, lookup?_eq_some_iff.mpr h, entryValue?_eq _⟩
  | construction h =>
    refine ⟨_, _, rfl, lookup?_eq_some_iff.mpr h, fun key => ?_⟩
    rw [keywordValue?_namedOf]
    simp only [mappingValue?, Expr.name?, ite_true]

/-- A value that is neither a mapping display nor a call of `dict` gives nothing under any key. -/
theorem mappingValue?_eq_none {value : Expr} (hdisplay : ∀ entries, value ≠ .dict entries)
    (hconstruction : ∀ args keywords, value ≠ .call (.name "dict") args keywords) (key : String) :
    mappingValue? value key = none := by
  cases value with
  | dict entries => exact absurd rfl (hdisplay entries)
  | call func args keywords =>
    refine if_neg fun hname => ?_
    cases func with
    | name id =>
      obtain rfl := Option.some.inj hname
      exact hconstruction args keywords rfl
    | _ => simp only [Expr.name?, reduceCtorEq] at hname
  | _ => rfl

/-! ### The value under a keyword -/

namespace CallSite

/-- A call with other keyword arguments, in the same visible statements. -/
def withKeywords (site : CallSite) (keywords : List Keyword) : CallSite :=
  { site with call := { site.call with keywords := keywords } }

variable {site : CallSite} {mapping : Expr} {entries : List Keyword}

theorem alike_withKeywords (site : CallSite) (keywords : List Keyword) (value : Expr) :
    Alike site (site.withKeywords keywords) value := by
  refine alike_of_lookup?_eq (fun name => ?_) value
  rfl

/-- A call that passes nothing as a whole gives under a keyword what its arguments give. -/
theorem value?_withKeywords {keywords : List Keyword}
    (h : ∀ keyword ∈ keywords, keyword.isNamed) (id : String) :
    (site.withKeywords keywords).value? id = keywordValue? keywords id := by
  simp only [value?, withKeywords, bundle?_eq_none_of_named h]
  cases keywordValue? keywords id <;> rfl

/-- A named argument hides whatever is passed as a whole. -/
theorem value?_of_named {id : String} {value : Expr}
    (h : keywordValue? site.call.keywords id = some value) : site.value? id = some value := by
  simp only [value?, h]

theorem value?_of_passesLast (h : PassesLast site.call.keywords mapping) (id : String) :
    site.value? id = (keywordValue? site.call.keywords id).or
      (mapping.name?.bind fun name =>
        (lookup? site.body name).bind fun value => mappingValue? value id) := by
  simp only [value?, bundle?_eq_some_iff.mpr h]
  cases keywordValue? site.call.keywords id <;> rfl

/-- Forwarding a mapping that is written out is passing its entries behind the named arguments. -/
theorem value?_of_writesOut (h : PassesLast site.call.keywords mapping)
    (hwrites : WritesOut site.body mapping entries) (id : String) :
    site.value? id = keywordValue? (namedOf site.call.keywords ++ entries) id := by
  obtain ⟨name, value, rfl, hlookup, hvalue⟩ := hwrites.exists_mappingValue?
  rw [value?_of_passesLast h, keywordValue?_append, keywordValue?_namedOf, ← hvalue]
  simp only [Expr.name?, Option.bind_some, hlookup]

/-- Forwarding a mapping that is not written out is passing the named arguments alone. -/
theorem value?_of_not_writesOut (h : PassesLast site.call.keywords mapping)
    (hwrites : ∀ entries, ¬WritesOut site.body mapping entries) (id : String) :
    site.value? id = keywordValue? (namedOf site.call.keywords) id := by
  have hnone : (mapping.name?.bind fun name =>
      (lookup? site.body name).bind fun value => mappingValue? value id) = none := by
    refine Option.bind_eq_none_iff.mpr fun name hname => ?_
    refine Option.bind_eq_none_iff.mpr fun value hlookup => ?_
    obtain rfl : mapping = .name name := by
      cases mapping <;> simp_all [Expr.name?]
    have hfirst := lookup?_eq_some_iff.mp hlookup
    refine mappingValue?_eq_none ?_ ?_ id
    · rintro entries rfl
      exact hwrites _ (.display hfirst)
    · rintro args keywords rfl
      exact hwrites _ (.construction hfirst)
  rw [value?_of_passesLast h, hnone, Option.or_none, keywordValue?_namedOf]

end CallSite

/-! ### Whole records -/

theorem isNamed_of_mem_namedOf {keywords : List Keyword} {keyword : Keyword}
    (h : keyword ∈ namedOf keywords) : keyword.isNamed :=
  (List.mem_filter.mp h).2

theorem WritesOut.isNamed {body : List Stmt} {mapping : Expr} {entries : List Keyword}
    (h : WritesOut body mapping entries) {keyword : Keyword} (hmem : keyword ∈ entries) :
    keyword.isNamed := by
  cases h with
  | display _ =>
    obtain ⟨entry, -, hentry⟩ := List.mem_filterMap.mp hmem
    unfold Entry.keyword? at hentry
    split at hentry
    · obtain rfl := Option.some.inj hentry
      rfl
    · simp only [reduceCtorEq] at hentry
  | construction _ => exact isNamed_of_mem_namedOf hmem

theorem keywordValue?_isSome_of_mem {keywords : List Keyword} {id : String} {value : Expr}
    (h : .named id value ∈ keywords) : ∃ first, keywordValue? keywords id = some first := by
  refine Option.isSome_iff_exists.mp (List.findSome?_isSome_iff.mpr ⟨_, h, ?_⟩)
  simp only [ite_true, Option.isSome_some]

theorem mem_of_keywordValue?_eq_some {keywords : List Keyword} {id : String} {value : Expr}
    (h : keywordValue? keywords id = some value) : .named id value ∈ keywords := by
  obtain ⟨keyword, hmem, hvalue⟩ := List.exists_of_findSome?_eq_some h
  cases keyword with
  | named name given =>
    obtain ⟨rfl, hgiven⟩ := Option.ite_none_right_eq_some.mp hvalue
    exact Option.some.inj hgiven ▸ hmem
  | bundle given => simp only [reduceCtorEq] at hvalue

/-- **Forwarding is writing out.** Let a call pass a mapping as a whole, the last one counting.

* When the mapping is written out, the record of the call is that of the call that passes nothing as
  a whole and has the entries of the mapping behind its named arguments.
* When it is not, the record is that of the call with its named arguments alone.
* An argument that the call names hides the entry of any mapping: the field is what it is with the
  named arguments alone, be it unknown.
* It does not matter how a mapping is written, by a display or by a call of `dict`, nor which whole
  mappings stand within: calls with the same named arguments, whose mappings amount to the same
  entries, have the same record where they take the values alike, as they do when they see the same
  statements. -/
theorem record_forwarded (site : CallSite) :
    (∀ mapping entries, PassesLast site.call.keywords mapping →
      WritesOut site.body mapping entries →
      (∀ keyword ∈ namedOf site.call.keywords ++ entries, keyword.isNamed) ∧
        (site.withKeywords (namedOf site.call.keywords ++ entries)).record = site.record) ∧
    (∀ mapping, PassesLast site.call.keywords mapping →
      (∀ entries, ¬WritesOut site.body mapping entries) →
      (site.withKeywords (namedOf site.call.keywords)).record = site.record) ∧
    (∀ id value, .named id value ∈ site.call.keywords →
      site.text? id = (site.withKeywords (namedOf site.call.keywords)).text? id ∧
      site.texts id = (site.withKeywords (namedOf site.call.keywords)).texts id ∧
      site.groups id = (site.withKeywords (namedOf site.call.keywords)).groups id) ∧
    ∀ (other : CallSite) (mapping mapping' : Expr) (entries : List Keyword),
      namedOf other.call.keywords = namedOf site.call.keywords →
      PassesLast site.call.keywords mapping → WritesOut site.body mapping entries →
      PassesLast other.call.keywords mapping' → WritesOut other.body mapping' entries →
      (other.body = site.body ∨ ∀ id value,
        .named id value ∈ namedOf site.call.keywords ++ entries →
          CallSite.Alike site other value) →
      other.record = site.record := by
  have hplain : ∀ keyword ∈ namedOf site.call.keywords, keyword.isNamed :=
    fun _ => isNamed_of_mem_namedOf
  refine ⟨fun mapping entries hlast hwrites => ?written, fun mapping hlast hwrites => ?other,
    fun id value hmem => ?hidden, fun other mapping mapping' entries hnamed hlast hwrites
      hlast' hwrites' halike => ?same⟩
  case written =>
    have hall : ∀ keyword ∈ namedOf site.call.keywords ++ entries, keyword.isNamed :=
      fun keyword hmem => (List.mem_append.mp hmem).elim (hplain keyword) hwrites.isNamed
    refine ⟨hall, CallSite.record_congr (fun id => ?_) fun _ value _ =>
      CallSite.alike_withKeywords site _ value⟩
    rw [CallSite.value?_withKeywords hall, CallSite.value?_of_writesOut hlast hwrites]
  case other =>
    refine CallSite.record_congr (fun id => ?_) fun _ value _ =>
      CallSite.alike_withKeywords site _ value
    rw [CallSite.value?_withKeywords hplain, CallSite.value?_of_not_writesOut hlast hwrites]
  case hidden =>
    obtain ⟨first, hfirst⟩ := keywordValue?_isSome_of_mem hmem
    have hvalue : site.value? id =
        (site.withKeywords (namedOf site.call.keywords)).value? id := by
      rw [CallSite.value?_withKeywords hplain, keywordValue?_namedOf, hfirst,
        CallSite.value?_of_named hfirst]
    have halike (v : Expr) :
        CallSite.Alike (site.withKeywords (namedOf site.call.keywords)) site v := by
      refine CallSite.alike_of_lookup?_eq (fun name => ?_) v
      rfl
    exact ⟨CallSite.text?_congr hvalue fun v _ => halike v,
      CallSite.texts_congr hvalue fun v _ => halike v,
      CallSite.groups_congr hvalue fun v _ => halike v⟩
  case same =>
    refine CallSite.record_congr (fun id => ?_) fun id value hvalue => ?_
    · rw [CallSite.value?_of_writesOut hlast hwrites, CallSite.value?_of_writesOut hlast' hwrites',
        hnamed]
    · rcases halike with hbody | halike
      · exact CallSite.alike_of_lookup?_eq (fun _ => by rw [hbody]) value
      · rw [CallSite.value?_of_writesOut hlast hwrites] at hvalue
        exact halike id value (mem_of_keywordValue?_eq_some hvalue)

end Descriptor.Script
