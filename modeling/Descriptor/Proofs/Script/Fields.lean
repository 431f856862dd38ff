import Descriptor.Script.Fields
import Mathlib.Data.List.Basic

/-!
# What the fields of a call depend on

The record of a call site depends on the values under its keywords, and on what these values resolve
to in the visible statements. So two call sites that take the same values under all keywords, and
take each of them alike, have the same record, whatever else tells them apart.

## Main definitions

* `CallSite.Alike` : a value that two call sites take alike.

## Main results

* `CallSite.record_congr` : the values under the keywords, taken alike, determine a record.
-/

namespace Descriptor.Script.CallSite

variable {site other : CallSite}

/-- A value that two call sites take alike: it resolves to the same in both, and so does every value
in a mapping display that it resolves to. -/
structure Alike (site other : CallSite) (value : Expr) : Prop where
  resolve?_eq : other.resolve? value = site.resolve? value
  entry_eq : ∀ {entries : List Entry} {key v : Expr},
    site.resolve? value = some (.dict entries) → .pair key v ∈ entries →
      other.resolve? v = site.resolve? v

/-- Call sites in which every name has the same value take every value alike. -/
theorem alike_of_lookup?_eq
    (h : ∀ name, lookup? other.body name = lookup? site.body name) (value : Expr) :
    Alike site other value := by
  have hresolve (v : Expr) : other.resolve? v = site.resolve? v := by
    cases v <;> simp only [resolve?, h]
  exact ⟨hresolve value, fun _ _ => hresolve _⟩

/-! ### Fields from what a value resolves to -/

theorem text?_eq_bind (site : CallSite) (keyword : String) :
    site.text? keyword = ((site.value? keyword).bind site.resolve?).bind (·.text?) := by
  rw [Option.bind_assoc]
  rfl

theorem texts_eq_bind (site : CallSite) (keyword : String) :
    site.texts keyword =
      (((site.value? keyword).bind site.resolve?).bind (·.elements?)).elim [] literalsOf := by
  rw [Option.bind_assoc]
  rfl

section Field

variable {keyword : String} (hvalue : other.value? keyword = site.value? keyword)
  (halike : ∀ value, site.value? keyword = some value → Alike site other value)

include hvalue halike

theorem bind_resolve?_congr :
    (other.value? keyword).bind other.resolve? = (site.value? keyword).bind site.resolve? := by
  rw [hvalue]
  exact Option.bind_congr fun value h => (halike value h).resolve?_eq

theorem text?_congr : other.text? keyword = site.text? keyword := by
  rw [text?_eq_bind, text?_eq_bind, bind_resolve?_congr hvalue halike]

theorem texts_congr : other.texts keyword = site.texts keyword := by
  rw [texts_eq_bind, texts_eq_bind, bind_resolve?_congr hvalue halike]

theorem groups_congr : other.groups keyword = site.groups keyword := by
  unfold groups
  rw [bind_resolve?_congr hvalue halike]
  split
  · next entries hentries =>
    obtain ⟨value, hsite, hresolve⟩ := Option.bind_eq_some_iff.mp hentries
    have hgroup : ∀ entry ∈ entries, other.group? entry = site.group? entry := by
      intro entry hmem
      cases entry with
      | splat v => rfl
      | pair key v =>
        have hv := (halike value hsite).entry_eq hresolve hmem
        cases key <;> simp only [group?, elements?, hv]
    rw [List.filterMap_congr hgroup]
  · rfl

end Field

/-- A record depends on the values under the keywords and on what they resolve to. -/
theorem record_congr (hvalue : ∀ keyword, other.value? keyword = site.value? keyword)
    (halike : ∀ keyword value, site.value? keyword = some value → Alike site other value) :
    other.record = site.record := by
  simp only [record, text?_congr (hvalue _) (halike _), texts_congr (hvalue _) (halike _),
    groups_congr (hvalue _) (halike _)]

end Descriptor.Script.CallSite
