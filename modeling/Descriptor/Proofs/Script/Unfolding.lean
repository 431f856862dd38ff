import Descriptor.Proofs.Script.Extras
import Mathlib.Data.List.Forall2

/-!
# Bare names and the values they are given

A bare name is as good as the value of its first visible assignment, unless that value is a bare
name as well. So where a call passes a name under a keyword, by itself or within a mapping, and
where a mapping of groups holds a name, the value can be written out instead, in as many places as
one likes. A name is followed once only: one that is given another name, or none, says nothing where
it stands, and later assignments to a name are never looked at.

## Main definitions

* `Unfolds`, `UnfoldsWithin` : values in which some names are written out, and those which are not
  themselves names written out.
* `CallSite.Unfolded` : call sites in which some names are written out.
* `Unresolved` : a name that says nothing.

## Main results

* `CallSite.Unfolded.record_eq` : writing names out keeps the record.
* `record_unfolded` : the same, with what names say that cannot be written out.
-/

namespace Descriptor.Script

/-! ### Names written out -/

/-- Entries under one key, with related values. -/
inductive Entry.Related (R : Expr → Expr → Prop) : Entry → Entry → Prop
  | pair (key : Expr) {value value' : Expr} (h : R value value') :
      Related R (.pair key value) (.pair key value')
  | splat (value : Expr) : Related R (.splat value) (.splat value)

theorem Entry.Related.of_refl {R : Expr → Expr → Prop} (h : ∀ value, R value value)
    (entry : Entry) : Entry.Related R entry entry := by
  cases entry with
  | pair key value => exact .pair key (h value)
  | splat value => exact .splat value

/-- Keyword arguments under one name, with related values. -/
inductive Keyword.Related (R : Expr → Expr → Prop) : Keyword → Keyword → Prop
  | named (id : String) {value value' : Expr} (h : R value value') :
      Related R (.named id value) (.named id value')
  | bundle (value : Expr) : Related R (.bundle value) (.bundle value)

/-- A value in which some bare names are written out: a name by the value of its first visible
assignment, where that is not a bare name. It may be the value itself, or stand within a mapping
display or a call that writes a mapping out. -/
inductive Unfolds (body : List Stmt) : Expr → Expr → Prop
  | refl (value : Expr) : Unfolds body value value
  | name {id : String} {value value' : Expr} (h : FirstAssigned body id value)
      (hvalue : value.name? = none) (hwithin : Unfolds body value value') :
      Unfolds body (.name id) value'
  | dict {entries entries' : List Entry}
      (h : List.Forall₂ (Entry.Related (Unfolds body)) entries entries') :
      Unfolds body (.dict entries) (.dict entries')
  | call (func : Expr) (args : List Expr) {keywords keywords' : List Keyword}
      (h : List.Forall₂ (Keyword.Related (Unfolds body)) keywords keywords') :
      Unfolds body (.call func args keywords) (.call func args keywords')

/-- A value in which some bare names are written out, but which is not one of them. -/
structure UnfoldsWithin (body : List Stmt) (value value' : Expr) : Prop where
  unfolds : Unfolds body value value'
  name?_eq : value'.name? = value.name?

/-- A statement with some bare names written out in the value that it assigns. What is not an
assignment may be anything else that is none. -/
inductive Stmt.Unfolds (body : List Stmt) : Stmt → Stmt → Prop
  | assign (target : String) {value value' : Expr} (h : UnfoldsWithin body value value') :
      Unfolds body (.assign target value) (.assign target value')
  | other {stmt stmt' : Stmt} (h : ∀ id, stmt.assigned? id = none)
      (h' : ∀ id, stmt'.assigned? id = none) : Unfolds body stmt stmt'

/-- A call site in which some bare names are written out: values under keywords, by themselves or
within, and values within those that visible statements assign. Which value a name has is told from
the statements as they were. -/
structure CallSite.Unfolded (site other : CallSite) : Prop where
  keywords : List.Forall₂ (Keyword.Related (Unfolds site.body)) site.call.keywords
    other.call.keywords
  body : List.Forall₂ (Stmt.Unfolds site.body) site.body other.body

variable {body : List Stmt} {value value' : Expr}

theorem Unfolds.name?_eq_none (h : Unfolds body value value') (hvalue : value.name? = none) :
    value'.name? = none := by
  cases h with
  | refl => exact hvalue
  | name => cases hvalue
  | dict => rfl
  | call => rfl

namespace UnfoldsWithin

theorem refl (value : Expr) : UnfoldsWithin body value value := ⟨.refl value, rfl⟩

/-- What is written out within a value stands in a mapping display or in a call. -/
theorem eq_or_dict_or_call (h : UnfoldsWithin body value value') :
    value' = value ∨
      (∃ entries entries', value = .dict entries ∧ value' = .dict entries' ∧
        List.Forall₂ (Entry.Related (Unfolds body)) entries entries') ∨
      ∃ func args keywords keywords', value = .call func args keywords ∧
        value' = .call func args keywords' ∧
        List.Forall₂ (Keyword.Related (Unfolds body)) keywords keywords' := by
  obtain ⟨h, hname⟩ := h
  cases h with
  | refl => exact .inl rfl
  | name _ hvalue hwithin =>
    rw [hwithin.name?_eq_none hvalue] at hname
    cases hname
  | dict h => exact .inr (.inl ⟨_, _, rfl, rfl, h⟩)
  | call func args h => exact .inr (.inr ⟨_, _, _, _, rfl, rfl, h⟩)

theorem text?_eq (h : UnfoldsWithin body value value') : value'.text? = value.text? := by
  obtain rfl | ⟨_, _, rfl, rfl, -⟩ | ⟨_, _, _, _, rfl, rfl, -⟩ := h.eq_or_dict_or_call <;> rfl

theorem elements?_eq (h : UnfoldsWithin body value value') :
    value'.elements? = value.elements? := by
  obtain rfl | ⟨_, _, rfl, rfl, -⟩ | ⟨_, _, _, _, rfl, rfl, -⟩ := h.eq_or_dict_or_call <;> rfl

end UnfoldsWithin

/-! ### Look-ups in related lists -/

section Related

variable {α β γ δ : Type} {R : α → β → Prop} {S : γ → δ → Prop}

theorem none_or_some_of_rel {a : Option α} {b : Option β} (h : Option.Rel R a b) :
    (a = none ∧ b = none) ∨ ∃ x y, a = some x ∧ b = some y ∧ R x y := by
  cases h with
  | some h => exact .inr ⟨_, _, rfl, rfl, h⟩
  | none => exact .inl ⟨rfl, rfl⟩

theorem rel_bind {a : Option α} {b : Option β} (h : Option.Rel R a b) {f : α → Option γ}
    {g : β → Option δ} (hfg : ∀ {x y}, R x y → Option.Rel S (f x) (g y)) :
    Option.Rel S (a.bind f) (b.bind g) := by
  obtain ⟨rfl, rfl⟩ | ⟨x, y, rfl, rfl, hxy⟩ := none_or_some_of_rel h
  · exact .none
  · exact hfg hxy

theorem bind_eq_of_rel {a : Option α} {b : Option β} (h : Option.Rel R a b) {f : α → Option γ}
    {g : β → Option γ} (hfg : ∀ {x y}, R x y → g y = f x) : b.bind g = a.bind f := by
  obtain ⟨rfl, rfl⟩ | ⟨x, y, rfl, rfl, hxy⟩ := none_or_some_of_rel h
  · rfl
  · exact hfg hxy

/-- First hits in related lists are related. -/
theorem rel_findSome? {xs : List α} {ys : List β} (h : List.Forall₂ R xs ys) {f : α → Option γ}
    {g : β → Option δ} (hfg : ∀ {x y}, R x y → Option.Rel S (f x) (g y)) :
    Option.Rel S (xs.findSome? f) (ys.findSome? g) := by
  induction h with
  | nil => exact .none
  | cons hhead _ ih =>
    rw [List.findSome?_cons, List.findSome?_cons]
    obtain ⟨hx, hy⟩ | ⟨x, y, hx, hy, hxy⟩ := none_or_some_of_rel (hfg hhead)
    · rw [hx, hy]
      exact ih
    · rw [hx, hy]
      exact .some hxy

theorem filterMap_eq_of_forall₂ {xs : List α} {ys : List β} (h : List.Forall₂ R xs ys)
    {f : α → Option γ} {g : β → Option γ} (hfg : ∀ {x y}, R x y → g y = f x) :
    ys.filterMap g = xs.filterMap f := by
  induction h with
  | nil => rfl
  | cons hhead _ ih => rw [List.filterMap_cons, List.filterMap_cons, hfg hhead, ih]

end Related

/-- The values under a keyword. -/
theorem rel_keywordValue? {R : Expr → Expr → Prop} {keywords keywords' : List Keyword}
    (h : List.Forall₂ (Keyword.Related R) keywords keywords') (id : String) :
    Option.Rel R (keywordValue? keywords id) (keywordValue? keywords' id) := by
  refine rel_findSome? h fun hkeyword => ?_
  cases hkeyword with
  | named name h =>
    dsimp only
    split_ifs
    · exact .some h
    · exact .none
  | bundle => exact .none

theorem bundle?_eq_of_related {R : Expr → Expr → Prop} {keywords keywords' : List Keyword}
    (h : List.Forall₂ (Keyword.Related R) keywords keywords') :
    bundle? keywords' = bundle? keywords := by
  have hrel : Option.Rel Eq (bundle? keywords) (bundle? keywords') := by
    refine rel_findSome? (List.forall₂_reverse_iff.mpr h) fun hkeyword => ?_
    cases hkeyword with
    | named => exact .none
    | bundle value => exact .some rfl
  obtain ⟨hx, hy⟩ | ⟨x, y, hx, hy, rfl⟩ := none_or_some_of_rel hrel <;> rw [hx, hy]

/-- The values under a key of a mapping display. -/
theorem rel_entryValue? {R : Expr → Expr → Prop} {entries entries' : List Entry}
    (h : List.Forall₂ (Entry.Related R) entries entries') (key : String) :
    Option.Rel R (entryValue? entries key) (entryValue? entries' key) := by
  refine rel_findSome? h fun hentry => ?_
  cases hentry with
  | pair k h =>
    dsimp only
    split_ifs
    · exact .some h
    · exact .none
  | splat => exact .none

/-- The values under a key of a mapping that is written out. -/
theorem UnfoldsWithin.rel_mappingValue? (h : UnfoldsWithin body value value') (key : String) :
    Option.Rel (Unfolds body) (mappingValue? value key) (mappingValue? value' key) := by
  obtain rfl | ⟨entries, entries', rfl, rfl, hentries⟩ |
    ⟨func, args, keywords, keywords', rfl, rfl, hkeywords⟩ := h.eq_or_dict_or_call
  · cases mappingValue? value' key with
    | some v => exact .some (.refl v)
    | none => exact .none
  · exact rel_entryValue? hentries key
  · rw [mappingValue?, mappingValue?]
    split_ifs
    · exact rel_keywordValue? hkeywords key
    · exact .none

/-! ### Call sites with names written out -/

namespace CallSite.Unfolded

variable {site other : CallSite} (h : site.Unfolded other)

include h

theorem rel_lookup? (id : String) :
    Option.Rel (UnfoldsWithin site.body) (lookup? site.body id) (lookup? other.body id) := by
  refine rel_findSome? h.body fun hstmt => ?_
  cases hstmt with
  | assign target h =>
    dsimp only [Stmt.assigned?]
    split_ifs
    · exact .some h
    · exact .none
  | other h h' =>
    rw [h, h']
    exact .none

/-- A value and one in which names are written out resolve to values of which neither is written
out itself. -/
theorem rel_resolve? (hvalue : Unfolds site.body value value') :
    Option.Rel (UnfoldsWithin site.body) (site.resolve? value) (other.resolve? value') := by
  cases hvalue with
  | refl =>
    cases value with
    | name id => exact h.rel_lookup? id
    | _ => exact .some (.refl _)
  | name hfirst hnone hwithin =>
    have hnone' := hwithin.name?_eq_none hnone
    rw [resolve?_eq_some_iff.mpr (.named hfirst), resolve?_eq_some_iff.mpr (.itself hnone')]
    exact .some ⟨hwithin, hnone'.trans hnone.symm⟩
  | dict h => exact .some ⟨.dict h, rfl⟩
  | call func args h => exact .some ⟨.call func args h, rfl⟩

theorem rel_value? (keyword : String) :
    Option.Rel (Unfolds site.body) (site.value? keyword) (other.value? keyword) := by
  unfold value?
  obtain ⟨hx, hy⟩ | ⟨x, y, hx, hy, hxy⟩ :=
    none_or_some_of_rel (rel_keywordValue? h.keywords keyword)
  · rw [hx, hy, bundle?_eq_of_related h.keywords]
    simp only [Option.bind_eq_bind, ← Option.bind_assoc]
    cases (bundle? site.call.keywords).bind Expr.name? with
    | none => exact .none
    | some id => exact rel_bind (h.rel_lookup? id) fun hmap => hmap.rel_mappingValue? keyword
  · rw [hx, hy]
    exact .some hxy

/-- What is found under a keyword, names resolved. -/
theorem rel_resolved (keyword : String) :
    Option.Rel (UnfoldsWithin site.body) ((site.value? keyword).bind site.resolve?)
      ((other.value? keyword).bind other.resolve?) :=
  rel_bind (h.rel_value? keyword) h.rel_resolve?

theorem text?_eq (keyword : String) : other.text? keyword = site.text? keyword := by
  rw [text?_eq_bind, text?_eq_bind]
  exact bind_eq_of_rel (h.rel_resolved keyword) UnfoldsWithin.text?_eq

theorem texts_eq (keyword : String) : other.texts keyword = site.texts keyword := by
  rw [texts_eq_bind, texts_eq_bind,
    bind_eq_of_rel (h.rel_resolved keyword) UnfoldsWithin.elements?_eq]

theorem elements?_eq (hvalue : Unfolds site.body value value') :
    other.elements? value' = site.elements? value :=
  bind_eq_of_rel (h.rel_resolve? hvalue) UnfoldsWithin.elements?_eq

theorem group?_eq {entry entry' : Entry} (hentry : entry.Related (Unfolds site.body) entry') :
    other.group? entry' = site.group? entry := by
  cases hentry with
  | splat => rfl
  | pair key hvalue => cases key <;> simp only [group?, h.elements?_eq hvalue]

theorem groups_eq (keyword : String) : other.groups keyword = site.groups keyword := by
  unfold groups
  obtain ⟨hx, hy⟩ | ⟨x, y, hx, hy, hxy⟩ := none_or_some_of_rel (h.rel_resolved keyword)
  · rw [hx, hy]
  rw [hx, hy]
  obtain rfl | ⟨entries, entries', rfl, rfl, hentries⟩ | ⟨func, args, _, _, rfl, rfl, -⟩ :=
    hxy.eq_or_dict_or_call
  · have hgroup : other.group? = site.group? :=
      funext fun entry => h.group?_eq (.of_refl .refl entry)
    rw [hgroup]
  · dsimp only
    rw [filterMap_eq_of_forall₂ hentries h.group?_eq]
  · rfl

/-- Writing names out keeps the record. -/
theorem record_eq : other.record = site.record := by
  simp only [record, h.text?_eq, h.texts_eq, h.groups_eq]

end CallSite.Unfolded

/-! ### Names that say nothing -/

/-- A name that says nothing: it is not assigned, or is first given a bare name. -/
inductive Unresolved (body : List Stmt) (id : String) : Prop
  | unassigned (h : Unassigned body id)
  | renamed {other : String} (h : FirstAssigned body id (.name other))

theorem Unresolved.exists_eq_name {id : String} {value : Expr} (h : Unresolved body id)
    (hvalue : StandsFor body (.name id) value) : ∃ other, value = .name other := by
  have hlookup : lookup? body id = some value := by
    cases hvalue with
    | itself h => cases h
    | named h => exact lookup?_eq_some_iff.mpr h
  cases h with
  | unassigned h =>
    rw [lookup?_eq_none_iff.mpr h] at hlookup
    cases hlookup
  | @renamed other h =>
    rw [lookup?_eq_some_iff.mpr h] at hlookup
    exact ⟨other, (Option.some.inj hlookup).symm⟩

/-- A group whose value is a name that says nothing is left out. -/
theorem Unresolved.not_gives {id : String} (h : Unresolved body id) (key : Expr) (name : String)
    (texts : List String) : ¬(Entry.pair key (.name id)).Gives body name texts := by
  rintro ⟨-, hlists | hlists⟩
  all_goals
    obtain ⟨other, hother⟩ := h.exists_eq_name hlists
    cases hother

namespace CallSite

variable {site : CallSite} {keyword id : String}

/-- A field whose value is a name that says nothing is unknown. -/
theorem unknown_of_unresolved (hvalue : site.value? keyword = some (.name id))
    (h : Unresolved site.body id) :
    site.text? keyword = none ∧ site.texts keyword = [] ∧ site.groups keyword = .empty := by
  have hresolved : (site.value? keyword).bind site.resolve? = none ∨
      ∃ other, (site.value? keyword).bind site.resolve? = some (.name other) := by
    rw [hvalue, Option.bind_some]
    cases hresolve : site.resolve? (.name id) with
    | none => exact .inl rfl
    | some value =>
      obtain ⟨other, rfl⟩ := h.exists_eq_name (resolve?_eq_some_iff.mp hresolve)
      exact .inr ⟨other, rfl⟩
  rw [text?_eq_bind, texts_eq_bind, groups]
  obtain hnone | ⟨other, hother⟩ := hresolved
  · rw [hnone]
    exact ⟨rfl, rfl, rfl⟩
  · rw [hother]
    exact ⟨rfl, rfl, rfl⟩

end CallSite

/-! ### Later assignments -/

/-- An assignment to a name that is assigned before gives no name a value. -/
theorem lookup?_assign_of_assigned {before : List Stmt} {id : String}
    (h : ¬Unassigned before id) (value : Expr) (after : List Stmt) (name : String) :
    lookup? (before ++ .assign id value :: after) name = lookup? (before ++ after) name := by
  rw [lookup?_assign, lookup?_append]
  split_ifs with hname
  · subst hname
    obtain ⟨first, hfirst⟩ := Option.ne_none_iff_exists'.mp fun hnone =>
      h (lookup?_eq_none_iff.mp hnone)
    rw [hfirst, Option.some_or, Option.some_or]
  · rfl

/-! ### Names in whole records -/

/-- **A name is followed once.** A call says the same with its bare names as with their values.

* Where names are written out, under keywords, within mappings, and within the mappings that visible
  statements assign, the record is the same.
* A keyword with a name that says nothing leaves its field unknown, whatever kind of field it is.
* An entry of the mapping of groups whose value is a name that says nothing might as well not be
  there.
* An assignment to a name behind another one might as well not be there. -/
theorem record_unfolded (site : CallSite) :
    (∀ other, site.Unfolded other → other.record = site.record) ∧
    (∀ keyword id, site.value? keyword = some (.name id) → Unresolved site.body id →
      site.text? keyword = none ∧ site.texts keyword = [] ∧ site.groups keyword = .empty) ∧
    (∀ before key id after, site.TakesGroups (before ++ .pair key (.name id) :: after) →
      Unresolved site.body id → ∀ other : CallSite, other.TakesGroups (before ++ after) →
        SameLists site.body other.body →
        other.record.extrasRequire = site.record.extrasRequire) ∧
    ∀ before id value after, site.body = before ++ .assign id value :: after →
      ¬Unassigned before id →
      ({ site with body := before ++ after } : CallSite).record = site.record := by
  refine ⟨fun other h => h.record_eq, fun keyword id => CallSite.unknown_of_unresolved,
    fun before key id after hsite h other hother hlists => ?_,
    fun before id value after hbody h => ?_⟩
  · exact CallSite.extrasRequire_eq_of_rearranged hlists hsite hother
      (.delete .refl (h.not_gives key))
  · refine SameView.record_eq ⟨rfl, fun name => ?_⟩
    rw [hbody, lookup?_assign_of_assigned h]

private def namedBody (test version extras : Expr) : List Stmt :=
  [.assign "VERSION" (.text "1.0"), .assign "TEST" (.list [.text "pytest"]),
    .assign "EXTRAS" (.dict [.pair (.text "test") test, .pair (.text "docs") (.name "OTHER")]),
    .assign "ARGUMENTS" (.call (.name "dict") []
      [.named "version" version, .named "extras_require" extras]),
    .assign "NAME" (.text "foo"), .assign "OTHER" (.name "TEST")]

private def namedCall (name : Expr) : Call :=
  ⟨.name "setup", [], [.named "name" name, .named "install_requires" (.name "OTHER"),
    .bundle (.name "ARGUMENTS")]⟩

/-- A call that passes names only. -/
def namedSite : CallSite :=
  ⟨namedCall (.name "NAME"), namedBody (.name "TEST") (.name "VERSION") (.name "EXTRAS")⟩

/-- `namedSite` with a further assignment to one of its names. -/
def reassignedSite : CallSite :=
  { namedSite with body := namedSite.body ++ [.assign "VERSION" (.text "2.0")] }

private def writtenExtras : Expr :=
  .dict [.pair (.text "test") (.list [.text "pytest"]), .pair (.text "docs") (.name "OTHER")]

/-- `namedSite` with its names written out, save for one that is given another name. -/
def writtenSite : CallSite :=
  ⟨namedCall (.text "foo"), namedBody (.list [.text "pytest"]) (.text "1.0") writtenExtras⟩

private theorem namedSite_unfolded : namedSite.Unfolded writtenSite := by
  have hname {id : String} {value : Expr} (h : lookup? namedSite.body id = some value)
      (hvalue : value.name? = none) : Unfolds namedSite.body (.name id) value :=
    .name (lookup?_eq_some_iff.mp h) hvalue (.refl value)
  have hextras : Unfolds namedSite.body
      (.dict [.pair (.text "test") (.name "TEST"), .pair (.text "docs") (.name "OTHER")])
      writtenExtras :=
    .dict (.cons (.pair _ (hname rfl rfl)) (.cons (.pair _ (.refl _)) .nil))
  have hkeep (target : String) (value : Expr) : Stmt.Unfolds namedSite.body
      (.assign target value) (.assign target value) := .assign target (.refl value)
  constructor
  · exact .cons (.named "name" (hname rfl rfl)) (.cons (.named _ (.refl _))
      (.cons (.bundle _) .nil))
  · refine .cons (hkeep _ _) (.cons (hkeep _ _) (.cons (.assign _ ⟨hextras, rfl⟩)
      (.cons (.assign _ ⟨?_, rfl⟩)
        (.cons (hkeep _ _) (.cons (hkeep _ _) .nil)))))
    exact .call _ _ (.cons (.named "version" (hname rfl rfl))
      (.cons (.named "extras_require" (.name (lookup?_eq_some_iff.mp rfl) rfl hextras)) .nil))

theorem record_unfolded_namedSite :
    namedSite.Unfolded writtenSite ∧ writtenSite.record = namedSite.record ∧
      namedSite.record.version = some "1.0" ∧
      namedSite.record.extrasRequire.get? "test" = some ["pytest"] ∧
      namedSite.record.extrasRequire.get? "docs" = none ∧
      Unresolved namedSite.body "OTHER" ∧ namedSite.texts "install_requires" = [] ∧
      namedSite.record = reassignedSite.record := by
  have hother : Unresolved namedSite.body "OTHER" := .renamed (lookup?_eq_some_iff.mp rfl)
  have hassigned : ¬Unassigned namedSite.body "VERSION" := fun h =>
    Option.some_ne_none (Expr.text "1.0") (lookup?_eq_none_iff.mpr h)
  obtain ⟨hwritten, hunknown, -⟩ := record_unfolded namedSite
  obtain ⟨-, -, -, hlater⟩ := record_unfolded reassignedSite
  refine ⟨namedSite_unfolded, hwritten _ namedSite_unfolded, rfl, rfl, rfl, hother,
    (hunknown "install_requires" "OTHER" rfl hother).2.1, ?_⟩
  exact hlater namedSite.body "VERSION" (.text "2.0") [] rfl hassigned

end Descriptor.Script
