import Descriptor.Proofs.Cli.Action
import Descriptor.Proofs.Settings.Store

/-!
# Settings set one after the other

A request to set something loads the settings, changes them and saves them. Requests one after the
other work as a store: what was set last under a name is loaded, and a name that means nothing is
refused before anything is changed.

## Main definitions

* `assign`, `assignAll` : the request to set something, and the session that requests leave.
* `lastValue?`, `Settings.updated` : the values that assignments leave.
* `Holds` : a session has settings, and others can be kept in their place.

## Main results

* `Holds.assign`, `Holds.assignAll` : the settings that a request leaves, and those that many leave.
* `load_assignAll` : requests to set something work as a store.
-/

namespace Descriptor

/-- The name of a setting stands for it alone. -/
theorem Key.ofName?_eq_some_iff {name : String} {key : Key} :
    Key.ofName? name = some key ↔ key.name = name := by
  constructor
  · intro h
    simpa using List.find?_some h
  · rintro rfl
    cases key <;> rfl

theorem Key.ofName?_eq_none_iff {name : String} :
    Key.ofName? name = none ↔ ∀ key : Key, key.name ≠ name := by
  rw [Option.eq_none_iff_forall_ne_some]
  exact forall_congr' fun key => not_congr ofName?_eq_some_iff

namespace Settings

variable {key : Key} {name : String} {a : Assignment}

theorem shown_of_name (h : key.name = name) (s : Settings) : s.shown name = .ok (s.get? key) := by
  rw [shown, Key.ofName?_eq_some_iff.mpr h]

theorem shown_of_unknown (h : ∀ key : Key, key.name ≠ name) (s : Settings) :
    s.shown name = .error (.unknownKey name) := by
  rw [shown, Key.ofName?_eq_none_iff.mpr h]

theorem enter_of_name (h : key.name = a.name) (s : Settings) :
    s.enter a = (.ok (), s.set key a.value) := by
  rw [enter, Key.ofName?_eq_some_iff.mpr h]

theorem enter_of_unknown (h : ∀ key : Key, key.name ≠ a.name) (s : Settings) :
    s.enter a = (.error (.unknownKey a.name), s) := by
  rw [enter, Key.ofName?_eq_none_iff.mpr h]

end Settings

namespace Cli

open Session (perform)

/-- The request to set something. -/
def assign (g : Globals) (a : Assignment) : Action (List String) :=
  answerSettings g (.set a.name a.value)

/-- The session that requests to set something leave, one after the other, whether they succeed or
fail. -/
def assignAll (g : Globals) (assignments : List Assignment) (s : Session) : Session :=
  assignments.foldl (fun s a => (perform (assign g a) s).2) s

/-- The value of the last assignment to a setting. -/
def lastValue? (key : Key) (assignments : List Assignment) : Option String :=
  (assignments.reverse.find? (·.name = key.name)).map (·.value)

end Cli

open Cli (lastValue?)

/-- The settings with the values of the last assignments. -/
def Settings.updated (s : Settings) (assignments : List Assignment) : Settings where
  uvPath := (lastValue? .uvPath assignments).or s.uvPath
  pythonVersion := (lastValue? .pythonVersion assignments).or s.pythonVersion
  buildBackend := (lastValue? .buildBackend assignments).or s.buildBackend
  buildRequires := ((lastValue? .buildRequires assignments).map splitList).or s.buildRequires

namespace Cli

open Files (FileTree)
open Session (perform perform_bind perform_log perform_pure perform_throw)

variable {g : Globals} {a : Assignment} {assignments : List Assignment} {s s' : Session}
  {settings : Settings} {key : Key} {path : String}

/-! ### Values -/

theorem lastValue?_cons (key : Key) (a : Assignment) (assignments : List Assignment) :
    lastValue? key (a :: assignments) =
      (lastValue? key assignments).or (lastValue? key [a]) := by
  rw [lastValue?, List.reverse_cons, List.find?_append, Option.map_or]
  rfl

/-- What is assigned first is what later assignments start from. -/
theorem updated_cons (settings : Settings) (a : Assignment) (assignments : List Assignment) :
    settings.updated (a :: assignments) = (settings.updated [a]).updated assignments := by
  simp only [Settings.updated, fun key => lastValue?_cons key a assignments, Option.or_assoc,
    Option.map_or]

theorem updated_of_name (h : key.name = a.name) :
    settings.updated [a] = settings.set key a.value := by
  cases key <;> simp [Settings.updated, Settings.set, lastValue?, ← h, Key.name]

theorem updated_of_unknown (h : ∀ key : Key, key.name ≠ a.name) :
    settings.updated [a] = settings := by
  simp [Settings.updated, lastValue?, (h _).symm]

/-! ### One request -/

theorem perform_assign_of_load_error {e : SettingsError} (h : Settings.load s = .error e) :
    perform (assign g a) s = (.error (.cannotLoad e), s) := by
  rw [assign, answerSettings, perform_bind, perform_loadSettings, h]
  rfl

theorem perform_assign_of_unknown (hload : Settings.load s = .ok settings)
    (hname : ∀ key : Key, key.name ≠ a.name) :
    perform (assign g a) s = (.error (.settings (.unknownKey a.name)), s) := by
  rw [assign, answerSettings, perform_bind, perform_loadSettings, hload]
  simp only [Except.mapError, Settings.enter_of_unknown (a := ⟨a.name, a.value⟩) hname]
  exact perform_throw _ s

theorem perform_assign_of_name (hload : Settings.load s = .ok settings)
    (hpath : Settings.path s = .ok path) (hstorable : Settings.Storable s path)
    (hname : key.name = a.name) :
    ∃ s', perform (assign g a) s = (.ok [], s') ∧ Settings.path s' = .ok path ∧
      Settings.Stored s' path (settings.set key a.value) := by
  obtain ⟨files, hsave, hstored⟩ := hstorable.save hpath (settings.set key a.value)
  have htells := Log.tells_finished ("Set " ++ a.name ++ " = " ++ a.value) (s.withFiles files)
  have hplace := Settings.path_eq_of_environment_eq htells.environment htells.platform
  refine ⟨_, ?_, hplace.trans hpath, hstored.of_tells htells⟩
  rw [assign, answerSettings, perform_bind, perform_loadSettings, hload]
  simp only [Except.mapError, perform_bind, perform_log, perform_pure, perform_saveSettings, hsave,
    Except.map, Settings.enter_of_name (a := ⟨a.name, a.value⟩) hname]
  rfl

/-! ### Requests one after the other -/

/-- A session has settings, and others can be kept in their place. -/
structure Holds (s : Session) (settings : Settings) : Prop where
  load : Settings.load s = .ok settings
  storable : ∃ path, Settings.path s = .ok path ∧ Settings.Storable s path

/-- A request succeeds where its name stands for a setting, and is refused where it does not. -/
theorem Holds.perform_assign (h : Holds s settings) (g : Globals) (a : Assignment) :
    (∃ key : Key, key.name = a.name) ∧ (∃ s', perform (assign g a) s = (.ok [], s')) ∨
      (∀ key : Key, key.name ≠ a.name) ∧
        perform (assign g a) s = (.error (.settings (.unknownKey a.name)), s) := by
  obtain ⟨path, hpath, hstorable⟩ := h.storable
  by_cases hname : ∃ key : Key, key.name = a.name
  · obtain ⟨key, hkey⟩ := hname
    obtain ⟨s', hperform, -⟩ := perform_assign_of_name h.load hpath hstorable hkey
    exact .inl ⟨⟨key, hkey⟩, s', hperform⟩
  · have hunknown (key : Key) : key.name ≠ a.name := fun hkey => hname ⟨key, hkey⟩
    exact .inr ⟨hunknown, perform_assign_of_unknown h.load hunknown⟩

/-- What a session has after a request. -/
theorem Holds.assign (h : Holds s settings) (g : Globals) (a : Assignment) :
    Holds (perform (assign g a) s).2 (settings.updated [a]) := by
  obtain ⟨path, hpath, hstorable⟩ := h.storable
  by_cases hname : ∃ key : Key, key.name = a.name
  · obtain ⟨key, hkey⟩ := hname
    obtain ⟨s', hperform, hpath', hstored⟩ :=
      perform_assign_of_name (g := g) h.load hpath hstorable hkey
    rw [hperform, updated_of_name hkey]
    exact ⟨hstored.load_eq hpath', path, hpath', hstored.storable⟩
  · have hunknown (key : Key) : key.name ≠ a.name := fun hkey => hname ⟨key, hkey⟩
    rw [perform_assign_of_unknown h.load hunknown, updated_of_unknown hunknown]
    exact h

/-- What a session has after requests, by induction on them. -/
theorem Holds.assignAll (h : Holds s settings) (g : Globals) (assignments : List Assignment) :
    Holds (assignAll g assignments s) (settings.updated assignments) := by
  induction assignments generalizing s settings with
  | nil => exact h
  | cons a assignments ih =>
    rw [updated_cons]
    exact ih (h.assign g a)

theorem assignAll_of_load_error {e : SettingsError} (h : Settings.load s = .error e)
    (g : Globals) (assignments : List Assignment) : assignAll g assignments s = s := by
  induction assignments with
  | nil => rfl
  | cons a assignments ih =>
    rw [Cli.assignAll, List.foldl_cons, perform_assign_of_load_error h]
    exact ih

/-- **Requests to set something work as a store.** Where settings are loaded and can be kept, a
request succeeds exactly if its name stands for a setting, whatever requests went before. One that
fails changes nothing. What is loaded after requests is, for each setting, the last value assigned
to it, the list of requirements taken apart, and what was loaded before if there is none. Where the
settings cannot be loaded every request fails and changes nothing. -/
theorem load_assignAll (g : Globals) (s : Session) (assignments : List Assignment) :
    (∀ path settings, Settings.path s = .ok path → Settings.Storable s path →
      Settings.load s = .ok settings →
        let after := assignAll g assignments s
        Settings.load after = .ok (settings.updated assignments) ∧
        ∀ a, ((∃ lines, (perform (assign g a) after).1 = .ok lines) ↔
            ∃ key : Key, key.name = a.name) ∧
          ∀ e, (perform (assign g a) after).1 = .error e →
            (perform (assign g a) after).2 = after) ∧
    ∀ e, Settings.load s = .error e →
      assignAll g assignments s = s ∧
        ∀ a, perform (assign g a) s = (.error (.cannotLoad e), s) := by
  constructor
  · intro path settings hpath hstorable hload after
    have hafter : Holds after (settings.updated assignments) :=
      Holds.assignAll ⟨hload, path, hpath, hstorable⟩ g assignments
    refine ⟨hafter.load, fun a => ?_⟩
    obtain ⟨hname, s', hperform⟩ | ⟨hname, hperform⟩ := hafter.perform_assign g a
    · rw [hperform]
      exact ⟨iff_of_true ⟨[], rfl⟩ hname, by simp⟩
    · rw [hperform]
      exact ⟨iff_of_false (by simp) fun ⟨key, hkey⟩ => hname key hkey, fun _ _ => rfl⟩
  · intro e hload
    exact ⟨assignAll_of_load_error hload g assignments,
      fun a => perform_assign_of_load_error hload⟩

/-- A session with a log and a place for settings. -/
def sampleSession (files : FileTree) : Session :=
  { Session.start files [("PKGMETA_CONFIG", " pkgmeta.toml ")] with
    logger := ⟨1, false, some "pkgmeta.log"⟩ }

/-- Requests of which one is refused and one is made up for by a later one. -/
def sampleAssignments : List Assignment :=
  [⟨"uv-path", "/opt/uv"⟩, ⟨"uv_path", "uv"⟩, ⟨"build-requires", " hatchling, , pip"⟩,
    ⟨"uv-path", "\"uv\""⟩]

theorem load_assignAll_sampleSession :
    let g : Globals := ⟨false, 0⟩
    let broken : FileTree :=
      ⟨[(["pkgmeta.toml"], .file (Text.encodeUtf8 "uv-path".toList) false)], []⟩
    Settings.load (assignAll g sampleAssignments (sampleSession .empty)) =
        .ok ⟨some "\"uv\"", none, none, some ["hatchling", "pip"]⟩ ∧
      assignAll g sampleAssignments (sampleSession broken) = sampleSession broken := by
  intro g broken
  have hconfig : Files.IsEntryName "pkgmeta.toml" := ⟨⟨by decide, by decide, by decide⟩, by decide⟩
  have hlog : Files.IsEntryName "pkgmeta.log" := ⟨⟨by decide, by decide, by decide⟩, by decide⟩
  have hpath (files : FileTree) : Settings.path (sampleSession files) = .ok "pkgmeta.toml" := by
    have hvalue : (sampleSession files).valueOf? "PKGMETA_CONFIG" = some " pkgmeta.toml " := rfl
    exact Settings.path_of_valueOf? hvalue (by decide +kernel) (by decide)
  have hstorable : Settings.Storable (sampleSession .empty) "pkgmeta.toml" := by
    refine ⟨.empty, _, rfl, FileTree.write_name hconfig rfl [],
      FileTree.isFile_of_read (FileTree.read_name hconfig rfl), ?_⟩
    rintro log ⟨⟩
    rw [FileTree.locate_name hconfig (by rintro _ ⟨⟩), FileTree.locate_name hlog (by rintro _ ⟨⟩)]
    simp
  have hload : Settings.load (sampleSession .empty) = .ok Settings.none := by
    rw [Settings.load, hpath]
    refine Settings.loadFrom_of_not_pathExists ?_
    rw [FileTree.pathExists, FileTree.itemAt?_name hconfig (by rintro _ ⟨⟩)]
    rfl
  have hbroken : Settings.load (sampleSession broken) = .error (.unreadable "pkgmeta.toml") := by
    have hread : broken.readText "pkgmeta.toml" = .ok "uv-path" :=
      FileTree.readText_of_read (FileTree.read_name hconfig rfl)
    rw [Settings.load, hpath]
    refine (Settings.loadFrom_of_readText hread).trans ?_
    have hread? : Settings.read? "uv-path" = none := by decide +kernel
    rw [hread?]
    rfl
  refine ⟨?_, ((load_assignAll g _ sampleAssignments).2 _ hbroken).1⟩
  rw [((load_assignAll g _ sampleAssignments).1 _ _ (hpath _) hstorable hload).1]
  decide +kernel

end Cli

end Descriptor
