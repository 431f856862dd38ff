import Descriptor.Proofs.Json.Writing
import Descriptor.Proofs.Record.Groups
import Descriptor.Record.Json

/-!
# Records written as JSON and read again

The text of a record gives the record back, whatever characters its texts and the names of its
groups have. A scalar that is not known is told apart from one that is empty, and a group without
requirements from one that is not there.

## Main results

* `plain_toValue` : the value of a record has a text that spells it.
* `ofValue?_toValue` : the value of a record gives the record.
* `readJson?_writeJson` : so does its text.
-/

namespace Descriptor.Record

open Json (Plain Value)

/-! ### The value of a record -/

theorem plain_optionValue (value : Option String) : Plain (optionValue value) := by
  cases value with
  | none => exact .null
  | some s => exact .text s

theorem plain_textsValue (texts : List String) : Plain (textsValue texts) := by
  refine .array fun v hv => ?_
  obtain ⟨s, -, rfl⟩ := List.mem_map.mp hv
  exact .text s

theorem plain_groupsValue (groups : Groups) : Plain (groupsValue groups) := by
  refine .object (fun m hm => ?_) fun m hm => ?_
  · obtain ⟨g, -, rfl⟩ := List.mem_map.mp hm
    rfl
  · obtain ⟨g, -, rfl⟩ := List.mem_map.mp hm
    exact plain_textsValue g.2

theorem plain_toValue (r : Record) : Plain r.toValue := by
  refine .object (fun m hm => ?_) fun m hm => ?_
  · obtain ⟨name, -, hname⟩ := List.mem_map.mp (List.of_mem_zip hm).1
    rw [← hname]
    rfl
  · have hvalue : m.2 ∈ r.fieldValues := (List.of_mem_zip hm).2
    simp only [fieldValues, List.mem_cons, List.not_mem_nil, or_false] at hvalue
    rcases hvalue with h | h | h | h | h <;> rw [h]
    · exact plain_optionValue _
    · exact plain_optionValue _
    · exact plain_optionValue _
    · exact plain_textsValue _
    · exact plain_groupsValue _

/-! ### The fields of a value -/

theorem jsonOption?_optionValue (value : Option String) :
    jsonOption? (optionValue value) = some value := by
  cases value <;> rfl

theorem jsonTexts?_textsValue (texts : List String) :
    jsonTexts? (textsValue texts) = some texts := by
  rw [textsValue, jsonTexts?]
  induction texts with
  | nil => rfl
  | cons s texts ih =>
    rw [List.map_cons, List.mapM_cons, ih]
    rfl

theorem jsonGroups?_groupsValue (groups : Groups) :
    jsonGroups? (groupsValue groups) = some groups := by
  have hentries (entries : List Group) :
      (entries.map fun g => (some g.1, textsValue g.2)).mapM jsonGroup? = some entries := by
    induction entries with
    | nil => rfl
    | cons g entries ih =>
      have hgroup : jsonGroup? (some g.1, textsValue g.2) = some g := by
        simp only [jsonGroup?, jsonTexts?_textsValue]
        rfl
      rw [List.map_cons, List.mapM_cons, ih, hgroup]
      rfl
  rw [groupsValue, jsonGroups?, hentries, Option.map_some, Groups.ofList_of_perm (.refl _)]

/-- The value of a record gives the record: every field is found once, under its own name. -/
theorem ofValue?_toValue (r : Record) : ofValue? r.toValue = some r := by
  obtain ⟨name, version, pythonRequires, installRequires, extrasRequire⟩ := r
  have hfields : ofFields? (some (optionValue name)) (some (optionValue version))
      (some (optionValue pythonRequires)) (some (textsValue installRequires))
      (some (groupsValue extrasRequire)) =
        some ⟨name, version, pythonRequires, installRequires, extrasRequire⟩ := by
    simp only [ofFields?, Option.elim_some, jsonOption?_optionValue, jsonTexts?_textsValue,
      jsonGroups?_groupsValue]
    rfl
  exact hfields

/-- **A record written as JSON is read back unchanged**, whatever its texts and the names of its
groups are. -/
theorem readJson?_writeJson (r : Record) : readJson? r.writeJson = some r := by
  rw [readJson?, writeJson, Json.read?_write (plain_toValue r)]
  exact ofValue?_toValue r

end Descriptor.Record
