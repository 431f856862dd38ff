import Descriptor.Proofs.Files.Storage
import Descriptor.Proofs.Toml.Document
import Descriptor.Settings.File

/-!
# Settings saved and loaded again

The text of settings has a line for each that is set, and gives the settings back: one that is not
set stays so, and an empty list of requirements is told apart from none at all. What is saved in a
file is loaded from it, in whatever form the values had to be written.

## Main definitions

* `Settings.fields` : the settings with what is written of them.

## Main results

* `read?_write` : the text of settings gives the settings.
* `saveTo_eq_ok_iff` : what saving does to the files.
* `loadFrom_of_saveTo` : settings that were saved are loaded unchanged.
-/

namespace Descriptor

open Files (FileTree)

namespace Settings

open Toml (Entries Leaf entriesOf fieldLines get?_fieldLines linesText linesText_fieldLines
  map_fst_fieldLines_sublist writeEntry)

/-! ### Text -/

/-- The settings with what is written of them. -/
def fields (s : Settings) : List (String × Option Leaf) :=
  [(Key.uvPath.name, s.uvPath.map .text), (Key.pythonVersion.name, s.pythonVersion.map .text),
    (Key.buildBackend.name, s.buildBackend.map .text),
    (Key.buildRequires.name, s.buildRequires.map .texts)]

theorem nodup_fields (s : Settings) : (s.fields.map (·.1)).Nodup := by
  change (Key.all.map Key.name).Nodup
  decide

theorem write_eq (s : Settings) : s.write = String.ofList (linesText (fieldLines s.fields)) := by
  have hsetting {α : Type} (key : Key) (value : Option α) (leaf : α → Leaf) :
      writeSetting key (value.map fun a => (leaf a).written) =
        (value.map leaf).elim [] fun leaf => writeEntry key.name leaf.written := by
    cases value <;> rfl
  rw [write, linesText_fieldLines]
  simp only [fields, List.flatMap_cons, List.flatMap_nil, ← hsetting, List.append_assoc,
    List.append_nil]
  rfl

theorem textOf?_value (value : String) : textOf? (Leaf.text value).value = some value := rfl

theorem textsOf?_value (values : List String) :
    textsOf? (Leaf.texts values).value = some values := by
  rw [Leaf.value, textsOf?]
  induction values with
  | nil => rfl
  | cons s values ih =>
    rw [List.map_cons, List.mapM_cons, ih]
    rfl

/-- A setting is found as it was written, set or not. -/
theorem field?_fieldLines {α : Type} {s : Settings} {key : Key} {value : Option α}
    {leaf : α → Leaf} {decode : Toml.Value → Option α}
    (hmem : (key.name, value.map leaf) ∈ s.fields)
    (hdecode : ∀ a, decode (leaf a).value = some a) :
    field? (entriesOf (fieldLines s.fields)) key decode = some value := by
  rw [field?, get?_fieldLines s.nodup_fields hmem]
  cases value with
  | none => rfl
  | some a =>
    simp only [Option.map_some, hdecode]

/-- **The text of settings gives the settings**, whatever characters their values have. -/
theorem read?_write (s : Settings) : read? s.write = some s := by
  have hread := Toml.readDocument?_lines
    (s.nodup_fields.sublist (map_fst_fieldLines_sublist s.fields))
  have huv : field? (entriesOf (fieldLines s.fields)) .uvPath textOf? = some s.uvPath :=
    field?_fieldLines (by simp [fields]) textOf?_value
  have hversion : field? (entriesOf (fieldLines s.fields)) .pythonVersion textOf? =
      some s.pythonVersion :=
    field?_fieldLines (by simp [fields]) textOf?_value
  have hbackend : field? (entriesOf (fieldLines s.fields)) .buildBackend textOf? =
      some s.buildBackend :=
    field?_fieldLines (by simp [fields]) textOf?_value
  have hrequires : field? (entriesOf (fieldLines s.fields)) .buildRequires textsOf? =
      some s.buildRequires :=
    field?_fieldLines (by simp [fields]) textsOf?_value
  rw [read?, write_eq, hread, Option.bind_eq_bind, Option.bind_some, ofEntries?, huv, hversion,
    hbackend, hrequires]
  rfl

/-! ### Files -/

variable {s : Settings} {files files' : FileTree} {path : String}

/-- Saving settings makes the directory of the file and writes the file. -/
theorem saveTo_eq_ok_iff :
    s.saveTo files path = (.ok (), files') ↔
      ∃ ready, makeParent files path = .ok ready ∧
        ready.write path (Text.encodeUtf8 s.write.toList) = .ok files' := by
  unfold saveTo
  cases makeParent files path with
  | error fault => simp
  | ok ready =>
    cases hwrite : ready.write path (Text.encodeUtf8 s.write.toList) with
    | error fault => simp [hwrite]
    | ok written => simp [hwrite]

theorem loadFrom_of_not_pathExists (h : files.pathExists path = false) :
    loadFrom files path = .ok none := by
  rw [loadFrom, if_neg (by simp [h])]

theorem loadFrom_of_readText {content : String} (h : files.readText path = .ok content) :
    loadFrom files path = (read? content).elim (.error (.unreadable path)) .ok := by
  rw [loadFrom, if_pos (FileTree.pathExists_of_isFile (FileTree.isFile_of_readText h)), h]
  simp only [Except.mapError, Bind.bind, Except.bind]
  cases read? content <;> rfl

/-- The environment can name the file. -/
theorem path_of_valueOf? {session : Session} {value : String}
    (h : session.valueOf? "PKGMETA_CONFIG" = some value) (hvalue : Text.trimmed value = path)
    (hpath : path ≠ "") : Settings.path session = .ok path := by
  rw [Settings.path, h, Option.map_some, hvalue, Option.filter_some, if_pos (by simpa using hpath)]

/-- Settings are loaded from a file that holds their text. -/
theorem loadFrom_of_read (h : files.read path = .ok (Text.encodeUtf8 s.write.toList)) :
    loadFrom files path = .ok s := by
  rw [loadFrom_of_readText (FileTree.readText_of_read h), read?_write]
  rfl

/-- **Settings that were saved are loaded unchanged.** Their text gives them, and where saving them
succeeded and the file can be read, it holds that text and they are loaded from it. -/
theorem loadFrom_of_saveTo (s : Settings) :
    read? s.write = some s ∧
      ∀ files files' path content, s.saveTo files path = (.ok (), files') →
        files'.readText path = .ok content →
          content = s.write ∧ loadFrom files' path = .ok s := by
  refine ⟨read?_write s, fun files files' path content hsave hread => ?_⟩
  obtain ⟨ready, -, hwrite⟩ := saveTo_eq_ok_iff.mp hsave
  have hbytes := FileTree.read_of_write hwrite (FileTree.isFile_of_readText hread)
  have htext := FileTree.readText_of_read hbytes
  exact ⟨Except.ok.inj (hread.symm.trans htext), loadFrom_of_read hbytes⟩

/-- Settings with quotes of both kinds, line breaks and a control character, an empty text and an
empty list, and one that is not set. -/
def sampleSettings : Settings where
  uvPath := some "it's \"here\"\\\n\n'''\r\x07"
  pythonVersion := .none
  buildBackend := some ""
  buildRequires := some []

theorem loadFrom_of_saveTo_sampleSettings :
    let files : FileTree :=
      ⟨[(["pkgmeta.toml"], .file (Text.encodeUtf8 sampleSettings.write.toList) false)], []⟩
    sampleSettings.saveTo .empty "pkgmeta.toml" = (.ok (), files) ∧
      files.readText "pkgmeta.toml" = .ok sampleSettings.write ∧
        loadFrom files "pkgmeta.toml" = .ok sampleSettings := by
  intro files
  have hname : Files.IsEntryName "pkgmeta.toml" := ⟨⟨by decide, by decide, by decide⟩, by decide⟩
  have hsave : sampleSettings.saveTo .empty "pkgmeta.toml" = (.ok (), files) :=
    saveTo_eq_ok_iff.mpr ⟨.empty, rfl, FileTree.write_name hname rfl _⟩
  have hread : files.readText "pkgmeta.toml" = .ok sampleSettings.write :=
    FileTree.readText_of_read (FileTree.read_name hname rfl)
  exact ⟨hsave, hread, ((loadFrom_of_saveTo sampleSettings).2 _ _ _ _ hsave hread).2⟩

end Settings

end Descriptor
