import Descriptor.Proofs.Record.Groups
import Descriptor.Proofs.Toml.Document
import Descriptor.Record.Toml

/-!
# Records written as configuration files and read again

The text of a record is a file whose root table has the scalars that are known and the requirements,
and behind them the table of groups. Whatever characters the texts and the names of groups have,
each stands there under its own key, so the text gives the record back: a scalar that is not known
is told apart from one that is empty, and a group without requirements from one that is not there.

## Main definitions

* `rootEntries` : the root table that a record stands for.
* `tomlFields` : the fields at the root, as far as they are known.

## Main results

* `ofEntries?_rootEntries` : the root table of a record gives the record.
* `readToml?_writeToml` : the text of a record spells its root table, and gives the record.
-/

namespace Descriptor.Record

open Toml (Entries Leaf Value entriesOf fieldLines get?_fieldLines linesText linesText_fieldLines
  map_fst_entriesOf map_fst_fieldLines_sublist)

/-! ### The table of a record -/

/-- A list of texts as a value. -/
def arrayOf (texts : List String) : Value := .array (texts.map .text)

/-- The entry of a scalar, if it is known. -/
def knownEntry (key : String) (value : Option String) : Entries :=
  (value.map fun s => (key, .text s)).toList

/-- The entries of groups, each under its name. -/
def groupEntries (groups : Groups) : Entries := groups.entries.map fun g => (g.1, arrayOf g.2)

/-- The root table that a record stands for: the scalars that are known and the requirements, and
behind them a table of the groups. -/
def rootEntries (r : Record) : Entries :=
  knownEntry "name" r.name ++ knownEntry "version" r.version ++
    knownEntry "python_requires" r.pythonRequires ++
    [("install_requires", arrayOf r.installRequires),
      ("extras_require", .table .header (groupEntries r.extrasRequire))]

/-- The fields at the root, as far as they are known. -/
def tomlFields (r : Record) : List (String × Option Leaf) :=
  [("name", r.name.map .text), ("version", r.version.map .text),
    ("python_requires", r.pythonRequires.map .text),
    ("install_requires", some (.texts r.installRequires))]

/-- The lines of groups. -/
def groupLines (groups : Groups) : List (String × Leaf) :=
  groups.entries.map fun g => (g.1, .texts g.2)

theorem map_fst_tomlFields (r : Record) :
    r.tomlFields.map (·.1) = ["name", "version", "python_requires", "install_requires"] :=
  rfl

theorem nodup_tomlFields (r : Record) : (r.tomlFields.map (·.1)).Nodup := by
  rw [map_fst_tomlFields]
  decide

theorem groupsKey_notMem_tomlFields (r : Record) : "extras_require" ∉ r.tomlFields.map (·.1) := by
  rw [map_fst_tomlFields]
  decide

theorem groupsKey_notMem_fieldLines (r : Record) :
    "extras_require" ∉ (fieldLines r.tomlFields).map (·.1) :=
  fun hmem => r.groupsKey_notMem_tomlFields ((map_fst_fieldLines_sublist _).mem hmem)

theorem entriesOf_groupLines (groups : Groups) :
    entriesOf (groupLines groups) = groupEntries groups := by
  rw [entriesOf, groupLines, List.map_map]
  rfl

theorem rootEntries_eq (r : Record) :
    r.rootEntries = entriesOf (fieldLines r.tomlFields) ++
      [("extras_require", .table .header (entriesOf (groupLines r.extrasRequire)))] := by
  obtain ⟨name, version, pythonRequires, installRequires, extrasRequire⟩ := r
  rw [entriesOf_groupLines]
  cases name <;> cases version <;> cases pythonRequires <;> rfl

theorem writeToml_eq (r : Record) :
    r.writeToml = String.ofList (linesText (fieldLines r.tomlFields) ++
      (Toml.headerText "extras_require" ++ linesText (groupLines r.extrasRequire))) := by
  have hoption (key : String) (value : Option String) :
      writeOption key value =
        (value.map Leaf.text).elim [] fun leaf => Toml.writeEntry key leaf.written := by
    cases value <;> rfl
  have hheader : groupsHeader = Toml.headerText "extras_require" := by decide
  have hgroups : linesText (groupLines r.extrasRequire) =
      r.extrasRequire.entries.flatMap fun g => Toml.writeEntry g.1 (Toml.writeTexts g.2) := by
    rw [linesText, groupLines, List.flatMap_map]
    rfl
  rw [writeToml, linesText_fieldLines, hheader, hgroups]
  simp only [tomlFields, List.flatMap_cons, List.flatMap_nil, hoption, Option.elim_some,
    Leaf.written, List.append_assoc, List.nil_append]

/-! ### The fields of a table -/

theorem tomlTexts?_arrayOf (texts : List String) : tomlTexts? (arrayOf texts) = some texts := by
  rw [arrayOf, tomlTexts?]
  induction texts with
  | nil => rfl
  | cons s texts ih =>
    rw [List.map_cons, List.mapM_cons, ih]
    rfl

theorem tomlOption?_text (value : Option String) :
    tomlOption? ((value.map Leaf.text).map Leaf.value) = some value := by
  cases value <;> rfl

theorem tomlGroups?_groupEntries (groups : Groups) :
    tomlGroups? (.table .header (groupEntries groups)) = some groups := by
  have hentries (entries : List Group) :
      ((entries.map fun g => (g.1, arrayOf g.2)).mapM fun e =>
        (tomlTexts? e.2).map fun texts => (e.1, texts)) = some entries := by
    induction entries with
    | nil => rfl
    | cons g entries ih =>
      rw [List.map_cons, List.mapM_cons, tomlTexts?_arrayOf, ih]
      rfl
  rw [groupEntries, tomlGroups?, hentries, Option.map_some, Groups.ofList_of_perm (.refl _)]

/-- The root table of a record gives the record. -/
theorem ofEntries?_rootEntries (r : Record) : ofEntries? r.rootEntries = some r := by
  have hfield (key : String) (value : Option Leaf) (hmem : (key, value) ∈ r.tomlFields) :
      r.rootEntries.get? key = value.map Leaf.value := by
    have hne : key ≠ "extras_require" :=
      ne_of_mem_of_not_mem (List.mem_map_of_mem (f := (·.1)) hmem) r.groupsKey_notMem_tomlFields
    rw [rootEntries_eq, Entries.get?_concat_of_ne hne, get?_fieldLines r.nodup_tomlFields hmem]
  have hgroups : r.rootEntries.get? "extras_require" =
      some (.table .header (groupEntries r.extrasRequire)) := by
    rw [rootEntries_eq, Entries.get?_concat, entriesOf_groupLines]
    rw [map_fst_entriesOf]
    exact r.groupsKey_notMem_fieldLines
  have hname := hfield "name" (r.name.map .text) (by simp [tomlFields])
  have hversion := hfield "version" (r.version.map .text) (by simp [tomlFields])
  have hpython := hfield "python_requires" (r.pythonRequires.map .text)
    (by simp [tomlFields])
  have hinstall := hfield "install_requires" (some (.texts r.installRequires))
    (by simp [tomlFields])
  have harray : (Leaf.texts r.installRequires).value = arrayOf r.installRequires := rfl
  simp only [ofEntries?, hname, hversion, hpython, hinstall, hgroups, tomlOption?_text,
    Option.map_some, Option.elim_some, harray, tomlTexts?_arrayOf, tomlGroups?_groupEntries]
  rfl

/-- **The text of a record is a file that says exactly what the record does**: at the root stand the
scalars that are known and the requirements, and the table behind them has exactly the groups, of
which no two have one key. So the record is read back unchanged. -/
theorem readToml?_writeToml (r : Record) :
    Toml.readDocument? r.writeToml = some r.rootEntries ∧
      ((groupEntries r.extrasRequire).map (·.1)).Nodup ∧ readToml? r.writeToml = some r := by
  have hgroups : (groupEntries r.extrasRequire).map (·.1) =
      (groupLines r.extrasRequire).map (·.1) := by
    rw [← entriesOf_groupLines, map_fst_entriesOf]
  have hnodup : ((groupLines r.extrasRequire).map (·.1)).Nodup := by
    rw [groupLines, List.map_map]
    exact r.extrasRequire.nodup_names
  have hread : Toml.readDocument? r.writeToml = some r.rootEntries := by
    rw [writeToml_eq, rootEntries_eq]
    exact Toml.readDocument?_table (r.nodup_tomlFields.sublist (map_fst_fieldLines_sublist _))
      r.groupsKey_notMem_fieldLines hnodup
  refine ⟨hread, hgroups ▸ hnodup, ?_⟩
  rw [readToml?, hread]
  exact ofEntries?_rootEntries r

end Descriptor.Record
