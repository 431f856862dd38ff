import Descriptor.Ini.SetupCfg
import Descriptor.Proofs.Ini.Layout
import Descriptor.Proofs.Ini.Lookup
import Descriptor.Proofs.Record.Groups
import Mathlib.Data.List.Forall2
import Mathlib.Data.List.Perm.Subperm

/-!
# Records as they are written

The configuration documents that describe a record: its texts and lists of requirements as the
options of three sections, in any order and any layout. A list takes one line for each requirement,
of which the first may stand on the line of the key. Reading such a document gives the record, with
no requirement lost, doubled, merged or out of order.

## Main definitions

* `Field` : an option of a record, with `Field.SpelledBy`, how it is written.
* `Block.Spells` : the sections that hold given options in any order.
* `metadataFields`, `optionsFields`, `extrasFields` : the options of a record.
* `Writable` : the records that can be written.

## Main results

* `requirementLines_of_filter` : a list is read as the requirements on its lines.
* `readRecord_of_written` : reading gives back the record that was written.
-/

namespace Descriptor.Ini

open Text

/-! ### The options of a record -/

/-- An option of a record: a text, or a list of requirements. -/
inductive Field where
  | text (key value : String)
  | list (key : String) (requirements : List String)

/-- The key of the option. -/
def Field.key : Field → String
  | text key _ => key
  | list key _ => key

/-- What is written for an option: a text on the line of its key; of a list every requirement on a
line of its own, the first on the line of the key or not, with blank lines between them. -/
inductive Field.SpelledBy : Field → Parts → Prop
  | text {key value : String} : SpelledBy (.text key value) ⟨key.toList, value.toList, []⟩
  | list {key : String} {requirements : List String} {first : List Char}
      {more : List (List Char)}
      (hlines : (first :: more).filter (!·.isEmpty) = requirements.map String.toList)
      (hlast : ∀ piece ∈ more.getLast?, piece ≠ []) :
      SpelledBy (.list key requirements) ⟨key.toList, first, more⟩

/-- The group that the option amounts to, if it is read as a list. -/
def Field.group : Field → Group
  | text key value => (key, requirementLines value)
  | list key requirements => (key, requirements)

/-- A section that holds the given options in some order. -/
structure Block.Spells (b : Block) (name : String) (fields : List Field) : Prop where
  name : b.name = name.toList
  entries : ∃ arranged, arranged.Perm fields ∧ List.Forall₂ Field.SpelledBy arranged b.entries

/-- The option for a text, if it is present. -/
def textField (key : String) (value : Option String) : List Field := (value.map (.text key)).toList

/-- The option for a list of requirements, if there are any. -/
def listField (key : String) (requirements : List String) : List Field :=
  if requirements = [] then [] else [.list key requirements]

/-- The options of the section about what a package is. -/
def metadataFields (r : Record) : List Field :=
  textField "name" r.name ++ textField "version" r.version

/-- The options of the section about what a package requires. -/
def optionsFields (r : Record) : List Field :=
  textField "python_requires" r.pythonRequires ++ listField "install_requires" r.installRequires

/-- The options of the section about the groups of extras. -/
def extrasFields (r : Record) : List Field :=
  r.extrasRequire.entries.map fun g => .list g.1 g.2

/-- The sections that hold the options of a record, in any order. A section without options may be
left out. -/
inductive RecordBlocks (r : Record) (bs : List Block) : Prop
  | intro {metadata options extras : Block}
      (hmetadata : metadata.Spells "metadata" (metadataFields r))
      (hoptions : options.Spells "options" (optionsFields r))
      (hextras : extras.Spells "options.extras_require" (extrasFields r))
      (hbs : bs.Subperm [metadata, options, extras])
      (hkept : ∀ b ∈ [metadata, options, extras], b.entries ≠ [] → b ∈ bs) : RecordBlocks r bs

/-- A requirement that fills a line and is no comment. -/
@[mk_iff]
structure IsRequirement (requirement : String) : Prop where
  ne_nil : requirement.toList ≠ []
  trimmed : trim requirement.toList = requirement.toList
  newline : '\n' ∉ requirement.toList
  not_startsComment : startsComment requirement.toList = false

instance (requirement : String) : Decidable (IsRequirement requirement) :=
  decidable_of_iff _ (isRequirement_iff requirement).symm

/-- An option whose key and texts can be told from everything else on a line. -/
def Field.Valid : Field → Prop
  | text key value => IsKey key.toList ∧ trim value.toList = value.toList
  | list key requirements => IsKey key.toList ∧ ∀ q ∈ requirements, IsRequirement q

/-- A record that can be written: its texts have no outer blanks, its requirements each fill a line,
and the names of its groups are keys. -/
structure Writable (r : Record) : Prop where
  name : ∀ s ∈ r.name, trim s.toList = s.toList
  version : ∀ s ∈ r.version, trim s.toList = s.toList
  pythonRequires : ∀ s ∈ r.pythonRequires, trim s.toList = s.toList
  installRequires : ∀ q ∈ r.installRequires, IsRequirement q
  extrasRequire : ∀ g ∈ r.extrasRequire.entries,
    IsKey g.1.toList ∧ ∀ q ∈ g.2, IsRequirement q

/-! ### Requirements on their lines -/

/-- The lines of pieces joined by line feeds, blank ones left out. -/
private theorem filter_lines_intercalate {pieces : List (List Char)}
    (h : ∀ piece ∈ pieces, trim piece = piece ∧ '\n' ∉ piece) :
    ((lines (['\n'].intercalate pieces)).map trim).filter (!·.isEmpty) =
      pieces.filter (!·.isEmpty) := by
  induction pieces with
  | nil => rfl
  | cons piece pieces ih =>
    obtain ⟨htrim, hnewline⟩ := h piece List.mem_cons_self
    have ih := ih fun p hp => h p (List.mem_cons_of_mem piece hp)
    cases pieces with
    | nil =>
      by_cases hne : piece = []
      · subst hne
        rfl
      · rw [List.intercalate_singleton, lines_of_not_mem hnewline hne, List.map_singleton, htrim]
    | cons next pieces =>
      have hreturn : trim (dropReturn piece) = piece := by
        rw [apply_dropReturn trim_append_blanks, htrim]
      have hjoin : ['\n'].intercalate (piece :: next :: pieces) =
          piece ++ '\n' :: ['\n'].intercalate (next :: pieces) := by
        rw [List.intercalate_cons_cons, List.append_assoc, List.singleton_append]
      rw [hjoin, lines_append_newline hnewline, List.map_cons, hreturn, List.filter_cons, ih]
      simp only [List.filter_cons]

/-- The pieces of a written list are empty, or requirements of it. -/
private theorem eq_nil_or_mem_of_filter {pieces : List (List Char)} {requirements : List String}
    (h : pieces.filter (!·.isEmpty) = requirements.map String.toList) {piece : List Char}
    (hpiece : piece ∈ pieces) : piece = [] ∨ ∃ q ∈ requirements, q.toList = piece := by
  by_cases hne : piece = []
  · exact .inl hne
  · have hmem : piece ∈ pieces.filter (!·.isEmpty) :=
      List.mem_filter.mpr ⟨hpiece, by simpa using hne⟩
    rw [h] at hmem
    exact .inr (List.mem_map.mp hmem)

/-- A list is read as the requirements on its lines. -/
theorem requirementLines_of_filter {pieces : List (List Char)} {requirements : List String}
    (h : pieces.filter (!·.isEmpty) = requirements.map String.toList)
    (hrequirements : ∀ q ∈ requirements, IsRequirement q) :
    requirementLines (String.ofList (['\n'].intercalate pieces)) = requirements := by
  have hpieces : ∀ piece ∈ pieces, trim piece = piece ∧ '\n' ∉ piece := by
    intro piece hpiece
    rcases eq_nil_or_mem_of_filter h hpiece with rfl | ⟨q, hq, rfl⟩
    · exact ⟨rfl, List.not_mem_nil⟩
    · exact ⟨(hrequirements q hq).trimmed, (hrequirements q hq).newline⟩
  rw [requirementLines, String.toList_ofList, filter_lines_intercalate hpieces, h, List.map_map]
  simp [Function.comp_def]

/-! ### Written options -/

namespace Field

variable {f : Field} {e : Parts}

theorem SpelledBy.key_eq (h : f.SpelledBy e) : String.ofList e.key = f.key := by
  cases h <;> exact String.ofList_toList

theorem SpelledBy.wellFormed (h : f.SpelledBy e) (hf : f.Valid) : e.WellFormed := by
  cases h with
  | text => exact ⟨hf.1, hf.2, by simp, by simp⟩
  | @list key requirements first more hlines hlast =>
    have hpieces : ∀ piece ∈ first :: more, trim piece = piece ∧ startsComment piece = false := by
      intro piece hpiece
      rcases eq_nil_or_mem_of_filter hlines hpiece with rfl | ⟨q, hq, rfl⟩
      · exact ⟨rfl, rfl⟩
      · exact ⟨(hf.2 q hq).trimmed, (hf.2 q hq).not_startsComment⟩
    exact ⟨hf.1, (hpieces first List.mem_cons_self).1,
      fun piece hpiece => hpieces piece (List.mem_cons_of_mem first hpiece), hlast⟩

theorem SpelledBy.text_value {key value : String} (h : (Field.text key value).SpelledBy e) :
    e.entry.value = value := by
  cases h
  simp [Parts.entry, Parts.value]

theorem SpelledBy.requirementLines_value {key : String} {requirements : List String}
    (h : (Field.list key requirements).SpelledBy e) (hf : (Field.list key requirements).Valid) :
    requirementLines e.entry.value = requirements := by
  cases h with
  | list hlines _ => exact requirementLines_of_filter hlines hf.2

theorem SpelledBy.group_eq (h : f.SpelledBy e) (hf : f.Valid) :
    f.group = (e.entry.key, requirementLines e.entry.value) := by
  cases f with
  | text key value => exact Prod.ext h.key_eq.symm (congrArg requirementLines h.text_value.symm)
  | list key requirements => exact Prod.ext h.key_eq.symm (h.requirementLines_value hf).symm

end Field

namespace Block.Spells

variable {b : Block} {name : String} {fields : List Field}

private theorem exists_of_mem_right {α β : Type} {R : α → β → Prop} {xs : List α} {ys : List β}
    (h : List.Forall₂ R xs ys) {y : β} (hy : y ∈ ys) : ∃ x ∈ xs, R x y := by
  induction h with
  | nil => exact absurd hy List.not_mem_nil
  | @cons x y' xs ys hxy _ ih =>
    rcases List.mem_cons.mp hy with rfl | hy
    · exact ⟨x, List.mem_cons_self, hxy⟩
    · obtain ⟨x', hx', hR⟩ := ih hy
      exact ⟨x', List.mem_cons_of_mem x hx', hR⟩

private theorem map_eq_map {α β γ : Type} {R : α → β → Prop} {f : α → γ} {g : β → γ}
    (hR : ∀ x y, R x y → f x = g y) {xs : List α} {ys : List β} (h : List.Forall₂ R xs ys) :
    xs.map f = ys.map g :=
  List.forall₂_eq_eq_eq ▸ List.rel_map hR h

theorem exists_field (h : b.Spells name fields) {e : Parts} (he : e ∈ b.entries) :
    ∃ f ∈ fields, f.SpelledBy e := by
  obtain ⟨arranged, hperm, hspelled⟩ := h.entries
  obtain ⟨f, hf, hfe⟩ := exists_of_mem_right hspelled he
  exact ⟨f, hperm.subset hf, hfe⟩

theorem exists_parts (h : b.Spells name fields) {f : Field} (hf : f ∈ fields) :
    ∃ e ∈ b.entries, f.SpelledBy e := by
  obtain ⟨arranged, hperm, hspelled⟩ := h.entries
  exact exists_of_mem_right hspelled.flip (hperm.symm.subset hf)

/-- The keys of the options are those of the section, in some order. -/
theorem keys_perm (h : b.Spells name fields) :
    (b.entries.map fun e => String.ofList e.key).Perm (fields.map Field.key) := by
  obtain ⟨arranged, hperm, hspelled⟩ := h.entries
  rw [← map_eq_map (fun f e hfe => hfe.key_eq.symm) hspelled]
  exact hperm.map _

theorem wellFormed (h : b.Spells name fields) (hname : name ≠ "")
    (hvalid : ∀ f ∈ fields, f.Valid) (hnodup : (fields.map Field.key).Nodup) : b.WellFormed where
  name := by
    rw [h.name]
    simpa using hname
  entries e he := by
    obtain ⟨f, hf, hfe⟩ := h.exists_field he
    exact hfe.wellFormed (hvalid f hf)
  nodup := by
    have hkeys := h.keys_perm.nodup_iff.mpr hnodup
    exact List.Nodup.of_map String.ofList (by simpa [Function.comp_def] using hkeys)

/-- An option of the section is found under its key. -/
theorem lookup?_of_mem (h : b.Spells name fields) (hnodup : (fields.map Field.key).Nodup)
    {f : Field} (hf : f ∈ fields) :
    ∃ e, f.SpelledBy e ∧
      Document.lookup? (b.entries.map Parts.entry) f.key = some e.entry.value := by
  obtain ⟨e, he, hfe⟩ := h.exists_parts hf
  have hkeys : ((b.entries.map Parts.entry).map (·.key)).Nodup := by
    rw [List.map_map]
    exact h.keys_perm.nodup_iff.mpr hnodup
  refine ⟨e, hfe, ?_⟩
  rw [← hfe.key_eq]
  exact Document.lookup?_of_mem hkeys (List.mem_map_of_mem he)

theorem lookup?_eq_none (h : b.Spells name fields) {key : String}
    (hkey : key ∉ fields.map Field.key) :
    Document.lookup? (b.entries.map Parts.entry) key = none := by
  refine Document.lookup?_eq_none fun entry hentry hsame => hkey ?_
  obtain ⟨e, he, rfl⟩ := List.mem_map.mp hentry
  rw [← hsame]
  exact h.keys_perm.subset (List.mem_map_of_mem he)

/-- A text that is present or not is found as it is. -/
theorem lookup?_text (h : b.Spells name fields) (hnodup : (fields.map Field.key).Nodup)
    {key : String} {value : Option String} (hsome : ∀ s ∈ value, .text key s ∈ fields)
    (hnone : value = none → key ∉ fields.map Field.key) :
    Document.lookup? (b.entries.map Parts.entry) key = value := by
  cases value with
  | none => exact h.lookup?_eq_none (hnone rfl)
  | some s =>
    obtain ⟨e, hfe, hlookup⟩ := h.lookup?_of_mem hnodup (hsome s rfl)
    rw [hfe.text_value] at hlookup
    exact hlookup

/-- A list that is empty or not is found as it is. -/
theorem lookup?_list (h : b.Spells name fields) (hnodup : (fields.map Field.key).Nodup)
    (hvalid : ∀ f ∈ fields, f.Valid) {key : String} {requirements : List String}
    (hne : requirements ≠ [] → .list key requirements ∈ fields)
    (hnil : requirements = [] → key ∉ fields.map Field.key) :
    ((Document.lookup? (b.entries.map Parts.entry) key).map requirementLines).getD [] =
      requirements := by
  by_cases hempty : requirements = []
  · rw [h.lookup?_eq_none (hnil hempty), hempty]
    rfl
  · obtain ⟨e, hfe, hlookup⟩ := h.lookup?_of_mem hnodup (hne hempty)
    rw [Field.key] at hlookup
    rw [hlookup, Option.map_some, Option.getD_some]
    exact hfe.requirementLines_value (hvalid _ (hne hempty))

/-- The options of a section of lists amount to groups, in some order. -/
theorem groups_perm {groups : List Group}
    (h : b.Spells name (groups.map fun g => .list g.1 g.2))
    (hvalid : ∀ g ∈ groups, (Field.list g.1 g.2).Valid) :
    ((b.entries.map Parts.entry).map fun e => (e.key, requirementLines e.value)).Perm groups := by
  obtain ⟨arranged, hperm, hspelled⟩ := h.entries
  have harranged : ∀ f ∈ arranged, f.Valid := by
    intro f hf
    obtain ⟨g, hg, rfl⟩ := List.mem_map.mp (hperm.subset hf)
    exact hvalid g hg
  have hgroups : arranged.map Field.group =
      (b.entries.map Parts.entry).map fun e => (e.key, requirementLines e.value) := by
    rw [List.map_map]
    refine map_eq_map (R := fun f e => f.Valid ∧ f.SpelledBy e) (fun f e hfe => ?_)
      (List.forall₂_and_left arranged b.entries |>.mpr ⟨harranged, hspelled⟩)
    exact hfe.2.group_eq hfe.1
  have hback : (groups.map fun g => Field.list g.1 g.2).map Field.group = groups := by
    rw [List.map_map]
    exact List.map_id groups
  rw [← hgroups, ← hback]
  exact hperm.map _

end Block.Spells

/-! ### Records -/

private theorem nodup_map_of_subperm {all bs : List Block} (hbs : bs.Subperm all)
    (hnodup : (all.map Block.name).Nodup) : (bs.map Block.name).Nodup := by
  obtain ⟨kept, hperm, hsublist⟩ := hbs
  exact (hperm.map _).nodup_iff.mp (hnodup.sublist (hsublist.map _))

/-- The options found for a section are its own, also where it is left out for having none. -/
theorem entries?_getD {all bs : List Block} (hnodup : (all.map Block.name).Nodup)
    (hbs : bs.Subperm all) (hkept : ∀ b ∈ all, b.entries ≠ [] → b ∈ bs) {b : Block} (hb : b ∈ all) :
    ((Document.mk (bs.map Block.toSection)).entries? (String.ofList b.name)).getD [] =
      b.entries.map Parts.entry := by
  have hbsnodup := nodup_map_of_subperm hbs hnodup
  by_cases hmem : b ∈ bs
  · have hnames : ((bs.map Block.toSection).map (·.name)).Nodup := by
      have := hbsnodup.map fun _ _ => String.ofList_inj.mp
      simpa [Block.toSection, Function.comp_def] using this
    have := Document.entries?_of_mem (d := ⟨bs.map Block.toSection⟩) hnames
      (List.mem_map_of_mem hmem)
    rw [Block.toSection] at this
    rw [this, Option.getD_some]
  · have hempty : b.entries = [] := by
      by_contra hne
      exact hmem (hkept b hb hne)
    rw [Document.entries?_eq_none, hempty]
    · rfl
    · intro s hs hsame
      obtain ⟨b', hb', rfl⟩ := List.mem_map.mp hs
      have hname : b'.name = b.name := String.ofList_inj.mp hsame
      exact hmem (List.inj_on_of_nodup_map hnodup (hbs.subset hb') hb hname ▸ hb')

/-! #### The options of a record -/

private theorem mem_textField {key : String} {value : Option String} {f : Field} :
    f ∈ textField key value ↔ ∃ s ∈ value, f = .text key s := by
  cases value <;> simp [textField]

private theorem mem_listField {key : String} {requirements : List String} {f : Field} :
    f ∈ listField key requirements ↔ requirements ≠ [] ∧ f = .list key requirements := by
  unfold listField
  split_ifs with h <;> simp [h]

private theorem textField_none (key : String) : textField key none = [] := rfl

private theorem listField_nil (key : String) : listField key [] = [] := rfl

private theorem keys_textField (key : String) (value : Option String) :
    ((textField key value).map Field.key).Sublist [key] := by
  cases value with
  | none => exact List.nil_sublist _
  | some s => exact List.Sublist.refl _

private theorem keys_listField (key : String) (requirements : List String) :
    ((listField key requirements).map Field.key).Sublist [key] := by
  unfold listField
  split
  · exact List.nil_sublist _
  · exact List.Sublist.refl _

private theorem not_mem_keys {keys : List String} {key other : String}
    (h : keys.Sublist [other]) (hne : key ≠ other) : key ∉ keys :=
  fun hmem => hne (List.mem_singleton.mp (h.subset hmem))

private theorem nodup_metadataFields (r : Record) : ((metadataFields r).map Field.key).Nodup := by
  rw [metadataFields, List.map_append]
  exact List.Nodup.sublist ((keys_textField _ _).append (keys_textField _ _)) (by decide)

private theorem nodup_optionsFields (r : Record) : ((optionsFields r).map Field.key).Nodup := by
  rw [optionsFields, List.map_append]
  exact List.Nodup.sublist ((keys_textField _ _).append (keys_listField _ _)) (by decide)

private theorem nodup_extrasFields (r : Record) : ((extrasFields r).map Field.key).Nodup := by
  rw [extrasFields, List.map_map]
  exact r.extrasRequire.nodup_names

section Validity

variable {r : Record} (hr : Writable r)

include hr

private theorem valid_metadataFields : ∀ f ∈ metadataFields r, f.Valid := by
  have hname : IsKey "name".toList := by decide
  have hversion : IsKey "version".toList := by decide
  intro f hf
  rcases List.mem_append.mp hf with hf | hf
  · obtain ⟨s, hs, rfl⟩ := mem_textField.mp hf
    exact ⟨hname, hr.name s hs⟩
  · obtain ⟨s, hs, rfl⟩ := mem_textField.mp hf
    exact ⟨hversion, hr.version s hs⟩

private theorem valid_optionsFields : ∀ f ∈ optionsFields r, f.Valid := by
  have hpython : IsKey "python_requires".toList := by decide
  have hinstall : IsKey "install_requires".toList := by decide
  intro f hf
  rcases List.mem_append.mp hf with hf | hf
  · obtain ⟨s, hs, rfl⟩ := mem_textField.mp hf
    exact ⟨hpython, hr.pythonRequires s hs⟩
  · obtain ⟨-, rfl⟩ := mem_listField.mp hf
    exact ⟨hinstall, hr.installRequires⟩

private theorem valid_extrasFields : ∀ g ∈ r.extrasRequire.entries, (Field.list g.1 g.2).Valid :=
  hr.extrasRequire

end Validity

/-- A record is put together from what is found for each of its options. -/
theorem record_of_lookups {d : Document} {r : Record} {metadata options extras : Block}
    (hr : Writable r) (hmetadata : metadata.Spells "metadata" (metadataFields r))
    (hoptions : options.Spells "options" (optionsFields r))
    (hextras : extras.Spells "options.extras_require" (extrasFields r))
    (hdefault : d.entries? Document.defaultSection = none)
    (hentries : ∀ b ∈ [metadata, options, extras],
      (d.entries? (String.ofList b.name)).getD [] = b.entries.map Parts.entry) :
    d.record = r := by
  have hfound : ∀ {b : Block} {name : String} {fields : List Field}, b.Spells name fields →
      b ∈ [metadata, options, extras] → ∀ key,
        d.get? name key = Document.lookup? (b.entries.map Parts.entry) key := by
    intro b name fields hb hmem key
    rw [Document.get?_of_no_defaults hdefault, ← hentries b hmem, hb.name, String.ofList_toList]
  have hname : d.get? "metadata" "name" = r.name := by
    rw [hfound hmetadata (by simp)]
    refine hmetadata.lookup?_text (nodup_metadataFields r)
      (fun s hs => List.mem_append_left _ (mem_textField.mpr ⟨s, hs, rfl⟩)) fun hnone => ?_
    rw [metadataFields, hnone, textField_none, List.nil_append]
    exact not_mem_keys (keys_textField _ _) (by decide)
  have hversion : d.get? "metadata" "version" = r.version := by
    rw [hfound hmetadata (by simp)]
    refine hmetadata.lookup?_text (nodup_metadataFields r)
      (fun s hs => List.mem_append_right _ (mem_textField.mpr ⟨s, hs, rfl⟩)) fun hnone => ?_
    rw [metadataFields, hnone, textField_none, List.append_nil]
    exact not_mem_keys (keys_textField _ _) (by decide)
  have hpython : d.get? "options" "python_requires" = r.pythonRequires := by
    rw [hfound hoptions (by simp)]
    refine hoptions.lookup?_text (nodup_optionsFields r)
      (fun s hs => List.mem_append_left _ (mem_textField.mpr ⟨s, hs, rfl⟩)) fun hnone => ?_
    rw [optionsFields, hnone, textField_none, List.nil_append]
    exact not_mem_keys (keys_listField _ _) (by decide)
  have hinstall : ((d.get? "options" "install_requires").map requirementLines).getD [] =
      r.installRequires := by
    rw [hfound hoptions (by simp)]
    refine hoptions.lookup?_list (nodup_optionsFields r) (valid_optionsFields hr)
      (fun hne => List.mem_append_right _ (mem_listField.mpr ⟨hne, rfl⟩)) fun hnil => ?_
    rw [optionsFields, hnil, listField_nil, List.append_nil]
    exact not_mem_keys (keys_textField _ _) (by decide)
  have hgroups : Groups.ofList (((d.items? "options.extras_require").getD []).map fun e =>
      (e.key, requirementLines e.value)) = r.extrasRequire := by
    have hown := hentries extras (by simp)
    rw [hextras.name, String.ofList_toList] at hown
    rw [Document.items?_of_no_defaults hdefault, hown]
    exact Groups.ofList_of_perm (hextras.groups_perm (valid_extrasFields hr))
  rw [Document.record, hname, hversion, hpython, hinstall, hgroups]

section Blocks

variable {r : Record} {metadata options extras : Block}
  (hmetadata : metadata.Spells "metadata" (metadataFields r))
  (hoptions : options.Spells "options" (optionsFields r))
  (hextras : extras.Spells "options.extras_require" (extrasFields r))

include hmetadata hoptions hextras

private theorem nodup_sectionNames : ([metadata, options, extras].map Block.name).Nodup := by
  rw [List.map_cons, List.map_cons, List.map_singleton, hmetadata.name, hoptions.name, hextras.name]
  decide

private theorem sectionName_ne_default {b : Block} (hb : b ∈ [metadata, options, extras]) :
    String.ofList b.name ≠ Document.defaultSection := by
  simp only [List.mem_cons, List.not_mem_nil, or_false] at hb
  rcases hb with rfl | rfl | rfl
  · rw [hmetadata.name]
    decide
  · rw [hoptions.name]
    decide
  · rw [hextras.name]
    decide

private theorem sections_wellFormed (hr : Writable r) :
    ∀ b ∈ [metadata, options, extras], b.WellFormed := by
  intro b hb
  simp only [List.mem_cons, List.not_mem_nil, or_false] at hb
  rcases hb with rfl | rfl | rfl
  · exact hmetadata.wellFormed (by decide) (valid_metadataFields hr) (nodup_metadataFields r)
  · exact hoptions.wellFormed (by decide) (valid_optionsFields hr) (nodup_optionsFields r)
  · exact hextras.wellFormed (by decide)
      (List.forall_mem_map.mpr (valid_extrasFields hr)) (nodup_extrasFields r)

end Blocks

/-- The record of a document that holds the options of a record is that record. -/
theorem record_of_blocks {r : Record} (hr : Writable r) {bs : List Block} (h : RecordBlocks r bs) :
    (Document.mk (bs.map Block.toSection)).record = r := by
  obtain ⟨hmetadata, hoptions, hextras, hbs, hkept⟩ := h
  have hnodup := nodup_sectionNames hmetadata hoptions hextras
  refine record_of_lookups hr hmetadata hoptions hextras (Document.entries?_eq_none ?_)
    fun b hb => entries?_getD hnodup hbs hkept hb
  intro s hs
  obtain ⟨b, hb, rfl⟩ := List.mem_map.mp hs
  exact sectionName_ne_default hmetadata hoptions hextras (hbs.subset hb)

/-- **Reading undoes writing, for records.** A text whose lines spell the options of a record, in
any order and any layout, is read as that record. -/
theorem readRecord_of_written {r : Record} (hr : Writable r) {bs : List Block}
    (hbs : RecordBlocks r bs) {lines : List (List Char)} (hlines : DocumentLines bs lines)
    {text : String} (htext : HasLines lines text.toList) : readRecord text = .ok r := by
  obtain ⟨hwellFormed, hnodup⟩ : (∀ b ∈ bs, b.WellFormed) ∧ (bs.map Block.name).Nodup := by
    obtain ⟨hmetadata, hoptions, hextras, hsubperm, -⟩ := hbs
    exact ⟨fun b hb =>
        sections_wellFormed hmetadata hoptions hextras hr b (hsubperm.subset hb),
      nodup_map_of_subperm hsubperm (nodup_sectionNames hmetadata hoptions hextras)⟩
  rw [readRecord, read_eq_ofLines htext, ofLines_of_documentLines hlines hwellFormed hnodup,
    Except.map, record_of_blocks hr hbs]

/-- A record with a list of requirements, and with groups of which one has none. -/
def sampleRecord : Record where
  name := some "foo"
  version := none
  pythonRequires := some ">=3.8"
  installRequires := ["a=1", "[b]"]
  extrasRequire := ⟨[("docs", []), ("test]", ["x[y]"])], List.pairwise_pair.mpr (by decide)⟩

private def testParts : Parts := ⟨"test]".toList, "x[y]".toList, []⟩

private def docsParts : Parts := ⟨"docs".toList, [], []⟩

private def installParts : Parts :=
  ⟨"install_requires".toList, [], [[], "a=1".toList, [], "[b]".toList]⟩

private def pythonParts : Parts := ⟨"python_requires".toList, ">=3.8".toList, []⟩

private def nameParts : Parts := ⟨"name".toList, "foo".toList, []⟩

private def extrasBlock : Block := ⟨"options.extras_require".toList, [testParts, docsParts]⟩

private def optionsBlock : Block := ⟨"options".toList, [installParts, pythonParts]⟩

private def metadataBlock : Block := ⟨"metadata".toList, [nameParts]⟩

private def sampleRecordBlocks : List Block := [extrasBlock, optionsBlock, metadataBlock]

/-- Lines for `sampleRecord`, with the sections and the groups in another order. -/
def sampleRecordLines : List (List Char) :=
  ["[options.extras_require]".toList, "TEST] = x[y]".toList, "Docs:".toList, [],
    "[options]".toList, " install_requires =".toList, [], "  a=1".toList, "  # note".toList, [],
    "  [b]".toList, " Python_Requires: >=3.8".toList, "[metadata]".toList, "name = foo".toList]

private theorem sampleRecord_writable : Writable sampleRecord where
  name := by decide
  version := by decide
  pythonRequires := by decide
  installRequires := by decide
  extrasRequire := by decide

private theorem sampleRecord_blocks : RecordBlocks sampleRecord sampleRecordBlocks := by
  have hmetadata : metadataBlock.Spells "metadata" (metadataFields sampleRecord) :=
    ⟨rfl, _, .refl _, .cons .text .nil⟩
  have hoptions : optionsBlock.Spells "options" (optionsFields sampleRecord) :=
    ⟨rfl, _, .swap _ _ _, .cons (.list (by decide) (by decide)) (.cons .text .nil)⟩
  have hextras : extrasBlock.Spells "options.extras_require" (extrasFields sampleRecord) :=
    ⟨rfl, _, .swap _ _ _,
      .cons (.list (by decide) (by decide)) (.cons (.list (by decide) (by decide)) .nil)⟩
  have hperm : sampleRecordBlocks.Perm sampleRecordBlocks.reverse := (List.reverse_perm _).symm
  exact .intro hmetadata hoptions hextras hperm.subperm fun b hb _ => hperm.symm.subset hb

private theorem extras_lines : EntriesLines none [testParts, docsParts]
    ["TEST] = x[y]".toList, "Docs:".toList, []] := by
  have htest : KeyLine 0 "test]".toList "x[y]".toList "TEST] = x[y]".toList :=
    @KeyLine.intro 0 _ _ [] "TEST]".toList " ".toList " ".toList '=' (by decide) (by decide)
      (by decide) (by decide) (by decide) (by decide)
  have hdocs : KeyLine 0 "docs".toList [] "Docs:".toList :=
    @KeyLine.intro 0 _ _ [] "Docs".toList [] [] ':' (by decide) (by decide) (by decide)
      (by decide) (by decide) (by decide)
  have hblank : ∀ l ∈ ([[]] : List (List Char)), IsTrivia l := fun l hl =>
    .inl (by rw [List.mem_singleton.mp hl]; decide)
  exact .cons (by simp) (@EntryLines.intro 0 testParts _ _ [] htest .nil (by simp)) <|
    .cons (by simp) (@EntryLines.intro 0 docsParts _ _ [[]] hdocs .nil hblank) .nil

private theorem options_lines : EntriesLines none [installParts, pythonParts]
    [" install_requires =".toList, [], "  a=1".toList, "  # note".toList, [], "  [b]".toList,
      " Python_Requires: >=3.8".toList] := by
  have hinstall : KeyLine 1 "install_requires".toList [] " install_requires =".toList :=
    @KeyLine.intro 1 _ _ " ".toList "install_requires".toList " ".toList [] '=' (by decide)
      (by decide) (by decide) (by decide) (by decide) (by decide)
  have hlast : MoreLines 1 ["[b]".toList] ["  [b]".toList] :=
    @MoreLines.piece 1 "  ".toList _ _ _ (by decide) (by decide) (by decide) .nil
  have hnote : IsComment "  # note".toList := ⟨"  ".toList, _, by decide, by decide, rfl⟩
  have hmore : MoreLines 1 installParts.more
      [[], "  a=1".toList, "  # note".toList, [], "  [b]".toList] :=
    .blank (by decide) <| @MoreLines.piece 1 "  ".toList _ _ _ (by decide) (by decide)
      (by decide) <| .comment hnote <| .blank (by decide) hlast
  have hpython : KeyLine 1 "python_requires".toList ">=3.8".toList
      " Python_Requires: >=3.8".toList :=
    @KeyLine.intro 1 _ _ " ".toList "Python_Requires".toList [] " ".toList ':' (by decide)
      (by decide) (by decide) (by decide) (by decide) (by decide)
  exact .cons (by simp) (@EntryLines.intro 1 installParts _ _ [] hinstall hmore (by simp)) <|
    .cons (by simp) (@EntryLines.intro 1 pythonParts _ _ [] hpython .nil (by simp)) .nil

private theorem metadata_lines : EntriesLines none [nameParts] ["name = foo".toList] := by
  have hname : KeyLine 0 "name".toList "foo".toList "name = foo".toList :=
    @KeyLine.intro 0 _ _ [] "name".toList " ".toList " ".toList '=' (by decide) (by decide)
      (by decide) (by decide) (by decide) (by decide)
  exact .cons (by simp) (@EntryLines.intro 0 nameParts _ _ [] hname .nil (by simp)) .nil

private theorem sampleRecord_lines : DocumentLines sampleRecordBlocks sampleRecordLines := by
  have hnone : ∀ l ∈ ([] : List (List Char)), IsTrivia l := fun l hl => absurd hl List.not_mem_nil
  have hmetadata : BlockLines [metadataBlock] ["[metadata]".toList, "name = foo".toList] :=
    @BlockLines.cons metadataBlock [] [] _ [] hnone metadata_lines .nil
  have hoptions := @BlockLines.cons optionsBlock _ [] _ _ hnone options_lines hmetadata
  have hextras := @BlockLines.cons extrasBlock _ [] _ _ hnone extras_lines hoptions
  exact @DocumentLines.intro sampleRecordBlocks [] sampleRecordLines hnone hextras

/-- The text of `sampleRecordLines`. -/
def sampleRecordText : String := String.ofList (sampleRecordLines.flatMap (· ++ ['\n']))

private theorem sampleRecordText_hasLines : HasLines sampleRecordLines sampleRecordText.toList := by
  rw [sampleRecordText, String.toList_ofList]
  exact .of_flatMap (by decide)

theorem readRecord_of_written_sampleRecord :
    Writable sampleRecord ∧ RecordBlocks sampleRecord sampleRecordBlocks ∧
      DocumentLines sampleRecordBlocks sampleRecordLines ∧
      HasLines sampleRecordLines sampleRecordText.toList ∧
      readRecord sampleRecordText = .ok sampleRecord :=
  ⟨sampleRecord_writable, sampleRecord_blocks, sampleRecord_lines, sampleRecordText_hasLines,
    readRecord_of_written sampleRecord_writable sampleRecord_blocks sampleRecord_lines
      sampleRecordText_hasLines⟩

end Descriptor.Ini
