import Descriptor.Proofs.Build.Fallback
import Descriptor.Proofs.Cli.Action
import Descriptor.Proofs.Project.Reading
import Descriptor.Proofs.Settings.File

/-!
# Fallbacks that are not needed

A request that allows for a fallback first looks for the settings and the tool that a backend would
be run with, and for the files of the project only then. Where both are found, and the files say
something about what the package requires, it does what a request without a fallback does; where one
is missing it fails, whatever the files say.

## Main definitions

* `present` : what is done with a reading.
* `ReadRequest.allowing` : a request with a fallback or without one.
* `IsReady` : a session has what a backend would be run with.

## Main results

* `perform_present` : a reading is printed, unless it is to be strict about what could not be read.
* `perform_readBy_fallback` : files that say something are all that is read, with a fallback too.
* `readProject_fallback_eq_iff` : when a fallback that is not needed makes no difference.
-/

namespace Descriptor.Cli

open Child (Launcher)
open Files (FileTree IsEntryName joinPath)
open Project (Reading)
open Session (perform perform_bind perform_get perform_log perform_pure perform_throw)

variable {launch : Launcher} {r : ReadRequest} {s : Session} {reading : Reading}

/-! ### The parts of a request -/

/-- What is done with a reading: it is told, and its record is printed. -/
def present (r : ReadRequest) (reading : Reading) : Action String := do
  report reading
  if r.strict && !reading.failures.isEmpty then throw (.unreadable reading.failures.length)
  return render reading.record r.format

theorem neverFails_report (reading : Reading) : NeverFails (report reading) := by
  have htell : NeverFails (do
      for path in reading.found do
        Log.debug ("Found " ++ path)
      for failure in reading.failures do
        Log.warn failure.message : Action Unit) :=
    .bind (.forIn (fun _ _ => .bind (.log _) fun _ => .pure _) _ _) fun _ =>
      .bind (.forIn (fun _ _ => .bind (.log _) fun _ => .pure _) _ _) fun _ => .pure _
  unfold report
  split
  · exact .bind (.log _) fun _ => htell
  · exact htell

/-- What is done with a reading fails only if it is to be strict about files that could not be
read. -/
theorem perform_present (r : ReadRequest) (reading : Reading) (s : Session) :
    (perform (present r reading) s).1 =
      if r.strict && !reading.failures.isEmpty then .error (.unreadable reading.failures.length)
      else .ok (render reading.record r.format) := by
  obtain ⟨⟨⟩, s', hreport⟩ := neverFails_report reading s
  rw [present, perform_bind, hreport]
  cases r.strict && !reading.failures.isEmpty <;> rfl

/-- A request is answered by presenting what is read by the means that it asks for, if there is a
directory to be read. -/
theorem perform_readProject (launch : Launcher) (r : ReadRequest) (s : Session) :
    perform (readProject launch r) s =
      if s.files.isDirectory r.directory then perform (readBy launch r >>= present r) s
      else (.error (.notADirectory r.directory), s) := by
  rw [readProject, perform_bind, perform_get]
  cases h : s.files.isDirectory r.directory <;> simp only [h] <;> rfl

/-! ### Requests with a fallback and without one -/

/-- A request to read the files of a project, with a fallback or without one. -/
def ReadRequest.allowing (r : ReadRequest) (fallback : Bool) : ReadRequest :=
  { r with build := false, fallback := fallback }

theorem perform_readProject_allowing (launch : Launcher) (r : ReadRequest) (fallback : Bool)
    (s : Session) :
    perform (readProject launch (r.allowing fallback)) s =
      if s.files.isDirectory r.directory then
        perform (readBy launch (r.allowing fallback) >>= present r) s
      else (.error (.notADirectory r.directory), s) :=
  perform_readProject launch (r.allowing fallback) s

/-- A session has settings that can be loaded, and the tool that they ask for. -/
def IsReady (s : Session) : Prop :=
  ∃ settings uv, Settings.load s = .ok settings ∧ Build.Uv.ofSettings settings s = .ok uv

/-- A session has a builder if it is ready, and one that is not fails for want of settings or of the
tool. -/
theorem builderIn_cases (launch : Launcher) (s : Session) :
    IsReady s ∧ (∃ b, builderIn launch s = .ok b) ∨
      ¬IsReady s ∧ ∃ e, builderIn launch s = .error e ∧ ∀ count, e ≠ .unreadable count := by
  cases hload : Settings.load s with
  | error e =>
    refine .inr ⟨fun ⟨_, _, hready, _⟩ => ?_, _, builderIn_of_load_error launch hload, nofun⟩
    cases hload.symm.trans hready
  | ok settings =>
    rw [builderIn_of_load launch hload]
    cases htool : Build.Uv.ofSettings settings s with
    | error e =>
      refine .inr ⟨fun ⟨_, _, hready, huv⟩ => ?_, .build e, rfl, nofun⟩
      obtain rfl := Except.ok.inj (hload.symm.trans hready)
      cases htool.symm.trans huv
    | ok uv => exact .inl ⟨⟨settings, uv, hload, htool⟩, _, rfl⟩

theorem perform_readBy_plain (launch : Launcher) (r : ReadRequest) (s : Session) :
    perform (readBy launch (r.allowing false)) s =
      (.ok (Project.readProject s.files r.directory), s) := rfl

section Requirements

variable (h : (Project.readProject s.files r.directory).record.SaysRequirements)

include h

/-- Where the files say something, they are all that is read, once there is a builder. -/
theorem perform_readBy_fallback :
    perform (readBy launch (r.allowing true)) s =
      ((builderIn launch s).map fun _ => Project.readProject s.files r.directory, s) := by
  change perform (builder launch >>= fun b =>
    ofBuild (b.readWithFallback Script.readModule r.directory)) s = _
  rw [perform_bind, perform_builder]
  cases builderIn launch s with
  | error e => rfl
  | ok b =>
    simp only [perform_ofBuild, Build.perform_readWithFallback_of_requirements h, Except.mapError,
      Except.map]
    rfl

theorem perform_readProject_of_builder {b : Build.Builder} (hb : builderIn launch s = .ok b) :
    perform (readProject launch (r.allowing true)) s =
      perform (readProject launch (r.allowing false)) s := by
  rw [perform_readProject_allowing, perform_readProject_allowing, perform_bind, perform_bind,
    perform_readBy_plain, perform_readBy_fallback h, hb]
  rfl

theorem perform_readProject_of_no_builder {e : Failure} (he : builderIn launch s = .error e)
    (hdirectory : s.files.isDirectory r.directory = true) :
    perform (readProject launch (r.allowing true)) s = (.error e, s) := by
  rw [perform_readProject_allowing, if_pos hdirectory, perform_bind, perform_readBy_fallback h, he]
  rfl

end Requirements

/-- Without a fallback, a request fails for want of a directory or because of its files only. -/
theorem perform_readProject_plain_ne {e : Failure} (he : ∀ count, e ≠ .unreadable count)
    (hdirectory : s.files.isDirectory r.directory = true) :
    (perform (readProject launch (r.allowing false)) s).1 ≠ .error e := by
  rw [perform_readProject_allowing, if_pos hdirectory, perform_bind, perform_readBy_plain]
  change (perform (present r _) s).1 ≠ _
  rw [perform_present]
  split
  · exact fun h => he _ (Except.error.inj h).symm
  · exact nofun

/-- **A fallback that is not needed makes no difference where it could be had.** Where the files of
a directory say something about what the package requires, a request with a fallback does what one
without does, exactly if the settings can be loaded and the tool that they ask for is there. Where
not, it fails for want of these and does nothing, while the request without a fallback does not. -/
theorem readProject_fallback_eq_iff (launch : Launcher) (r : ReadRequest) (s : Session)
    (h : (Project.readProject s.files r.directory).record.SaysRequirements) :
    let allowed := perform (readProject launch (r.allowing true)) s
    let plain := perform (readProject launch (r.allowing false)) s
    (allowed.1 = plain.1 ↔ (s.files.isDirectory r.directory = true → IsReady s)) ∧
      (allowed.1 = plain.1 → allowed = plain) ∧
      (allowed.1 ≠ plain.1 → ∃ e, builderIn launch s = .error e ∧ allowed = (.error e, s)) := by
  intro allowed plain
  obtain ⟨hready, b, hb⟩ | ⟨hready, e, he, hne⟩ := builderIn_cases launch s
  · have hsame : allowed = plain := perform_readProject_of_builder h hb
    exact ⟨iff_of_true (congrArg _ hsame) fun _ => hready, fun _ => hsame,
      fun hdiffer => absurd (congrArg _ hsame) hdiffer⟩
  · by_cases hdirectory : s.files.isDirectory r.directory = true
    · have hfails : allowed = (.error e, s) := perform_readProject_of_no_builder h he hdirectory
      have hdiffer : allowed.1 ≠ plain.1 := fun hsame =>
        perform_readProject_plain_ne hne hdirectory (hsame.symm.trans (congrArg _ hfails))
      exact ⟨iff_of_false hdiffer fun hcond => hready (hcond hdirectory),
        fun hsame => absurd hsame hdiffer, fun _ => ⟨e, he, hfails⟩⟩
    · have hsame : allowed = plain := by
        simp only [allowed, plain, perform_readProject_allowing, if_neg hdirectory]
      exact ⟨iff_of_true (congrArg _ hsame) fun hd => absurd hd hdirectory, fun _ => hsame,
        fun hdiffer => absurd (congrArg _ hsame) hdiffer⟩

section Sample

variable (installed : Bool)

/-- A session in the directory of a project that says what its package requires, where the tool is
on the search path but can only be run if it is installed. -/
def projectSession (installed : Bool) : Session :=
  .start ⟨[(["setup.cfg"],
        .file (Text.encodeUtf8 "[options]\ninstall_requires = bar\n".toList) false),
      (["uv"], .file [] installed)], []⟩
    [("PKGMETA_CONFIG", "pkgmeta.toml"), ("PATH", ".")]

theorem readProject_projectSession :
    Project.readProject (projectSession installed).files "." =
      ⟨{ Record.unknown with installRequires := ["bar"] }, ["./setup.cfg"], []⟩ := by
  let files := (projectSession installed).files
  have hscript : IsEntryName "setup.py" := ⟨⟨by decide, by decide, by decide⟩, by decide⟩
  have hconfig : IsEntryName "setup.cfg" := ⟨⟨by decide, by decide, by decide⟩, by decide⟩
  have hnone : files.isFile (joinPath "." "setup.py") = false := by
    rw [FileTree.isFile, FileTree.itemAt?_joinPath_dot hscript,
      FileTree.itemAt?_name hscript (by rintro _ ⟨⟩)]
    rfl
  have hread : files.readText (joinPath "." "setup.cfg") =
      .ok "[options]\ninstall_requires = bar\n" :=
    FileTree.readText_of_read
      ((FileTree.read_joinPath_dot hconfig files).trans (FileTree.read_name hconfig rfl))
  have habsent : Project.outcomeIn Script.readModule files "." .script = .absent :=
    (Project.ComesOut.absent hnone).eq_outcomeOf.symm
  have hrecord : Project.outcomeIn Script.readModule files "." .config =
      .read { Record.unknown with installRequires := ["bar"] } :=
    (Project.ComesOut.config (FileTree.isFile_of_readText hread) hread
      (by decide +kernel)).eq_outcomeOf.symm
  change Project.readNext _ _ _ (Project.readNext _ _ _ .empty .script) .config = _
  rw [Project.readNext_eq, Project.readNext_eq, habsent, hrecord]
  decide +kernel

theorem saysRequirements_projectSession :
    (Project.readProject (projectSession installed).files ".").record.SaysRequirements := by
  rw [readProject_projectSession]
  exact .inl (List.cons_ne_nil _ _)

theorem isDirectory_projectSession : (projectSession installed).files.isDirectory "." = true := by
  refine FileTree.isDirectory_iff.mpr ⟨[], ?_, rfl⟩
  rw [FileTree.locate, FileTree.locateFrom_of_ne_empty (by decide),
    show Files.components "." = ["."] by decide, FileTree.walk_blank (.inr rfl), FileTree.walk]
  rfl

theorem load_projectSession : Settings.load (projectSession installed) = .ok Settings.none := by
  have hname : IsEntryName "pkgmeta.toml" := ⟨⟨by decide, by decide, by decide⟩, by decide⟩
  have hpath : Settings.path (projectSession installed) = .ok "pkgmeta.toml" := by
    have hvalue : (projectSession installed).valueOf? "PKGMETA_CONFIG" = some "pkgmeta.toml" := rfl
    exact Settings.path_of_valueOf? hvalue (by decide +kernel) (by decide)
  rw [Settings.load, hpath]
  refine Settings.loadFrom_of_not_pathExists ?_
  rw [FileTree.pathExists, FileTree.itemAt?_name hname (by rintro _ ⟨⟩)]
  rfl

theorem ofSettings_projectSession :
    Build.Uv.ofSettings Settings.none (projectSession installed) =
      if installed then .ok ⟨"./uv", none⟩ else .error (.settings .uvNotFound) := by
  have hname : IsEntryName "uv" := ⟨⟨by decide, by decide, by decide⟩, by decide⟩
  have hexecutable : (projectSession installed).files.isExecutable (joinPath "." "uv") =
      installed := by
    rw [FileTree.isExecutable, FileTree.itemAt?_joinPath_dot hname,
      FileTree.itemAt?_name hname (by rintro _ ⟨⟩)]
    rfl
  have hfind : Settings.findOnPath? (projectSession installed) "uv" =
      [joinPath "." "uv"].find? (projectSession installed).files.isExecutable := by
    have hplaces : (projectSession installed).platform.searchPath = ["."] := by
      cases installed <;> decide +kernel
    rw [Settings.findOnPath?, hplaces]
    rfl
  rw [Build.Uv.ofSettings, Settings.findUv, Settings.none, hfind, List.find?_cons, hexecutable]
  cases installed <;> rfl

theorem readProject_fallback_eq_iff_installed :
    let launch : Launcher := fun _ files => (.error .notFound, files)
    let s := projectSession true
    let r : ReadRequest := ⟨".", false, true, true, .json⟩
    (Project.readProject s.files r.directory).record.SaysRequirements ∧
      perform (readProject launch (r.allowing true)) s =
        perform (readProject launch (r.allowing false)) s := by
  intro launch s r
  have hrequires := saysRequirements_projectSession true
  have h := readProject_fallback_eq_iff launch r s hrequires
  have hready : IsReady s :=
    ⟨_, _, load_projectSession true, (ofSettings_projectSession true).trans (if_pos rfl)⟩
  exact ⟨hrequires, h.2.1 (h.1.mpr fun _ => hready)⟩

/-- A request that allows for a fallback fails where nothing is needed of one. -/
theorem readProject_fallback_ne_missing :
    let launch : Launcher := fun _ files => (.error .notFound, files)
    let s := projectSession false
    let r : ReadRequest := ⟨".", false, true, true, .json⟩
    (Project.readProject s.files r.directory).record.SaysRequirements ∧
      (perform (readProject launch (r.allowing true)) s).1 =
        .error (.build (.settings .uvNotFound)) ∧
      (perform (readProject launch (r.allowing false)) s).1 =
        .ok (Record.writeJson { Record.unknown with installRequires := ["bar"] }) ∧
      (perform (readProject launch (r.allowing true)) s).1 ≠
        (perform (readProject launch (r.allowing false)) s).1 := by
  intro launch s r
  have hrequires : (Project.readProject s.files r.directory).record.SaysRequirements :=
    saysRequirements_projectSession false
  have hdirectory : s.files.isDirectory r.directory = true := isDirectory_projectSession false
  have hreading := readProject_projectSession false
  have hbuilder : builderIn launch s = .error (.build (.settings .uvNotFound)) := by
    rw [builderIn_of_load launch (load_projectSession false), ofSettings_projectSession false]
    rfl
  have hallowed : (perform (readProject launch (r.allowing true)) s).1 =
      .error (.build (.settings .uvNotFound)) := by
    rw [perform_readProject_of_no_builder hrequires hbuilder hdirectory]
  have hplain : (perform (readProject launch (r.allowing false)) s).1 =
      .ok (Record.writeJson { Record.unknown with installRequires := ["bar"] }) := by
    rw [perform_readProject_allowing, if_pos hdirectory, perform_bind, perform_readBy_plain]
    change (perform (present r (Project.readProject s.files ".")) s).1 = _
    rw [perform_present, hreading]
    rfl
  refine ⟨hrequires, hallowed, hplain, ?_⟩
  rw [hallowed, hplain]
  exact nofun

end Sample

end Descriptor.Cli
