import Descriptor.Proofs.Files.Attempt
import Descriptor.Proofs.Session.Verbosity

/-!
# The life of a log

A log may be started any number of times, in whatever directories, and each start may fail. The last
start that succeeded decides where messages go and which of them are shown, and its log holds the
lines of the calls since then and nothing else. A start that fails leaves all of this as it was: the
most that remains of it are directories where nothing lay.

## Main definitions

* `Step`, `runSteps` : starts of a log and calls of the logger, and the session after them.
* `Run`, `lastRun?` : a start of a log that succeeded, and the calls since.
* `Undisturbed` : steps along which whatever is appended to a log is in its file then.
* `Describes` : what a session has of the last run.

## Main results

* `Logs.appended`, `Logs.added` : what a call and added directories do to the log of a run.
* `Inv.step` : a step keeps the session described.
* `describes_runSteps` : after any steps the session has its last run, also if a start fails then.
-/

namespace Descriptor.Log

open Files (FileTree)
open Session (perform perform_bind perform_get perform_set perform_throw)

/-! ### Steps -/

/-- A step of a program that logs: a log is to be started in a directory, or a call is made. -/
inductive Step where
  | start (directory : String) (verbosity : Nat) (quiet : Bool)
  | call (event : Event)
  deriving DecidableEq, Repr

/-- The session after a step. -/
def Step.run (s : Session) : Step → Session
  | .start directory verbosity quiet => (perform (openIn directory verbosity quiet) s).2
  | .call event => event.run s

/-- The session after steps. -/
def runSteps (steps : List Step) (s : Session) : Session := steps.foldl Step.run s

/-- A start of a log that succeeded, and the calls since. -/
structure Run where
  directory : String
  verbosity : Nat
  quiet : Bool
  events : List Event
  deriving DecidableEq, Repr

/-- The path of the log of a run. -/
def Run.path (run : Run) : String := fileIn run.directory

/-- The last run once a step was made: a start that succeeds begins one, and a call belongs to the
one that was begun last. -/
def Step.follow (s : Session) (run? : Option Run) : Step → Option Run
  | .start directory verbosity quiet =>
    match (perform (openIn directory verbosity quiet) s).1 with
    | .ok _ => some ⟨directory, verbosity, quiet, []⟩
    | .error _ => run?
  | .call event => run?.map fun run => { run with events := run.events ++ [event] }

/-- The last run once steps were made, given the last run before. -/
def lastRun? : List Step → Session → Option Run → Option Run
  | [], _, run? => run?
  | step :: steps, s, run? => lastRun? steps (step.run s) (step.follow s run?)

/-- Something can be appended to a file, and is in the file at the path then. -/
def CanAppend (files : FileTree) (path : String) : Prop :=
  ∃ made, files.extend path [] = .ok made ∧ made.isFile path = true

/-- Whatever is appended to the log at a step is in its file then: right after the start of a log,
and where a call has anything to append. -/
def Step.Undisturbed (s : Session) : Step → Prop
  | .start directory _ _ =>
    ∀ ready, clear s.files directory = .ok ready → CanAppend ready (fileIn directory)
  | .call event =>
    ∀ path, s.logger.file = some path → event.call.entries ≠ [] → CanAppend s.files path

/-- Whatever is appended to a log along steps is in its file then. -/
def Undisturbed : List Step → Session → Prop
  | [], _ => True
  | step :: steps, s => step.Undisturbed s ∧ Undisturbed steps (step.run s)

/-- What a session has of the last run. Before any run the logger is as it was at first, and no file
was written since some other session. In a run the logger is as it was set up for it, and the file
of the log holds the lines of the calls since, if there are any. -/
def Describes (first : Session) (run? : Option Run) (s : Session) : Prop :=
  match run? with
  | none => s.logger = .initial ∧ first.files.AddsDirectories s.files
  | some run =>
    s.logger = ⟨run.verbosity, run.quiet, some run.path⟩ ∧
      ∀ bytes, s.files.read run.path = .ok bytes ↔
        stamped run.events ≠ [] ∧
          bytes = Text.encodeUtf8 (logText (stamped run.events)).toList

variable {s first : Session} {files ready : FileTree} {directory path text : String}
  {run : Run} {run? : Option Run} {entries : List Entry} {event : Event}

/-! ### Entries that are appended -/

/-- A log that can be written to is there once there are entries. -/
theorem Starts.reads_toldAll (h : Starts s path text) (hentries : entries ≠ []) :
    Reads (Log.toldAll entries s) path
      (text ++ String.join (entries.map (Entry.text s.clock))) := by
  obtain ⟨front, last, rfl⟩ := (List.eq_nil_or_concat' entries).resolve_left hentries
  have hlast := (h.toldAll front).tells (tells_record last.level last.message (Log.toldAll front s))
  have hclock : (Log.toldAll front s).clock = s.clock := by
    rw [← withFiles_toldAll]
    rfl
  rw [hclock] at hlast
  rw [toldAll_append, List.map_append, String.join_append, ← String.append_assoc,
    List.map_singleton, String.join_cons, String.join_nil, String.append_empty]
  exact hlast

/-- Entries are passed over while there is no log. -/
theorem files_toldAll_of_none (h : s.logger.file = none) (entries : List Entry) :
    (toldAll entries s).files = s.files := by
  induction entries generalizing s with
  | nil => rfl
  | cons e entries ih =>
    have htold : told e.level e.message s = s := by rw [told_eq, h]
    rw [toldAll_cons, htold, ih h]

theorem Event.files_run (s : Session) (e : Event) :
    (e.run s).files = (toldAll e.call.entries { s with clock := e.clock }).files := by
  rw [Event.run_eq]
  rfl

/-- A call changes no file while there is no log. -/
theorem Event.files_run_of_none (h : s.logger.file = none) (e : Event) :
    (e.run s).files = s.files := by
  rw [Event.files_run]
  exact files_toldAll_of_none (by exact h) _

theorem stamped_append (events events' : List Event) :
    stamped (events ++ events') = stamped events ++ stamped events' :=
  List.flatMap_append

theorem stamped_singleton (e : Event) : stamped [e] = e.call.entries.map (e.clock, ·) := by
  simp [stamped]

theorem logText_append (entries entries' : List (String × Entry)) :
    logText (entries ++ entries') = logText entries ++ logText entries' := by
  rw [logText, List.map_append, String.join_append]
  rfl

/-- The text that entries at one time come to. -/
theorem logText_map (clock : String) (entries : List Entry) :
    logText (entries.map (clock, ·)) = String.join (entries.map (Entry.text clock)) := by
  rw [logText, List.map_map]
  rfl

/-! ### Starts -/

theorem perform_openIn_error {error : SetupError} (h : clear s.files directory = .error error)
    (verbosity : Nat) (quiet : Bool) :
    perform (openIn directory verbosity quiet) s =
      (.error error, s.withFiles (s.files.attemptDirectories directory)) := by
  rw [openIn, perform_bind, perform_get]
  simp only [h, perform_bind, perform_set, perform_throw]

/-- A start that fails leaves everything but directories that it may have added. -/
theorem addsDirectories_of_perform_openIn {error : SetupError} {s' : Session} {verbosity : Nat}
    {quiet : Bool} (h : perform (openIn directory verbosity quiet) s = (.error error, s')) :
    ∃ files, s.files.AddsDirectories files ∧ s' = s.withFiles files := by
  cases hclear : clear s.files directory with
  | ok ready =>
    rw [perform_openIn hclear] at h
    cases h
  | error fault =>
    rw [perform_openIn_error hclear] at h
    exact ⟨_, FileTree.attemptDirectories_adds _ _, (congrArg (·.2) h).symm⟩

/-! ### The log of a run -/

/-- The log of a run: as long as there are no entries its path leads to where nothing lies, or where
a directory has come to lie, and once there are some it holds them. -/
structure Logs (run : Run) (s : Session) : Prop where
  logger : s.logger = ⟨run.verbosity, run.quiet, some run.path⟩
  fresh : stamped run.events = [] → ∃ l, s.files.locate run.path = .ok l ∧
    (s.files.item? l = none ∨ s.files.item? l = some .directory)
  written : stamped run.events ≠ [] →
    s.files.read run.path = .ok (Text.encodeUtf8 (logText (stamped run.events)).toList)

/-- The log of a run is read where it has entries, and holds them. -/
theorem Logs.read_iff (h : Logs run s) (bytes : List UInt8) :
    s.files.read run.path = .ok bytes ↔
      stamped run.events ≠ [] ∧ bytes = Text.encodeUtf8 (logText (stamped run.events)).toList := by
  by_cases hentries : stamped run.events = []
  · obtain ⟨l, hlocate, hl⟩ := h.fresh hentries
    refine iff_of_false (fun hread => ?_) fun hsome => hsome.1 hentries
    obtain ⟨l', executable, hlocate', hl'⟩ := FileTree.read_eq_ok_iff.mp hread
    obtain rfl := Except.ok.inj (hlocate.symm.trans hlocate')
    simp [hl'] at hl
  · rw [h.written hentries, Except.ok.injEq, eq_comm]
    exact (and_iff_right hentries).symm

/-- The log of a run that was just started is empty. -/
theorem logs_opened (hclear : clear s.files directory = .ok ready)
    (happend : CanAppend ready (fileIn directory)) (verbosity : Nat) (quiet : Bool) :
    Logs ⟨directory, verbosity, quiet, []⟩ (opened s ready directory verbosity quiet) where
  logger := rfl
  fresh _ := by
    obtain ⟨made, hextend, -⟩ := happend
    obtain ⟨l, bytes, executable, hwritable, -⟩ := FileTree.extend_eq_ok_iff.mp hextend
    obtain ⟨hlocate, hfile | ⟨hnone, -⟩⟩ := FileTree.findWritable_eq_ok_iff.mp hwritable
    · have hexists : ready.pathExists (fileIn directory) = true :=
        Option.isSome_iff_exists.mpr ⟨_, FileTree.itemAt?_eq_some_iff.mpr ⟨l, hlocate, hfile⟩⟩
      rw [not_pathExists_of_clear hclear] at hexists
      cases hexists
    · exact ⟨l, hlocate, .inl hnone⟩
  written h := absurd rfl h

/-- Added directories leave the log of a run. -/
theorem Logs.added (h : Logs run s) (hfiles : s.files.AddsDirectories files) :
    Logs run (s.withFiles files) where
  logger := h.logger
  fresh hentries := by
    obtain ⟨l, hlocate, hl⟩ := h.fresh hentries
    exact ⟨l, hfiles.locate hlocate hl⟩
  written hentries := hfiles.read (h.written hentries)

/-- The log of a run can be written to. -/
theorem Logs.starts (h : Logs run s) (happend : CanAppend s.files run.path) :
    Starts s run.path (logText (stamped run.events)) := by
  have hfile : s.logger.file = some run.path := by rw [h.logger]
  by_cases hentries : stamped run.events = []
  · obtain ⟨made, hextend, hmade⟩ := happend
    obtain ⟨l, hlocate, hl⟩ := h.fresh hentries
    have hfree : s.files.pathExists run.path = false := by
      obtain ⟨l', bytes, executable, hwritable, -⟩ := FileTree.extend_eq_ok_iff.mp hextend
      obtain ⟨hlocate', hitem⟩ := FileTree.findWritable_eq_ok_iff.mp hwritable
      obtain rfl := Except.ok.inj (hlocate.symm.trans hlocate')
      have hnone : s.files.item? l = none := by
        rcases hl with hnone | hdirectory
        · exact hnone
        · simp [hdirectory] at hitem
      rw [FileTree.pathExists, Option.isSome_eq_false_iff, Option.isNone_iff_eq_none,
        Option.eq_none_iff_forall_ne_some]
      intro item hitem'
      obtain ⟨l', hlocate', hl'⟩ := FileTree.itemAt?_eq_some_iff.mp hitem'
      obtain rfl := Except.ok.inj (hlocate.symm.trans hlocate')
      rw [hnone] at hl'
      cases hl'
    rw [hentries]
    exact ⟨made, hextend, hfile, FileTree.read_extend_of_not_pathExists hfree hextend hmade⟩
  · exact Reads.starts ⟨hfile, h.written hentries⟩

/-- A call adds its lines to the log of a run. -/
theorem Logs.appended (h : Logs run s)
    (happend : event.call.entries ≠ [] → CanAppend s.files run.path) :
    Logs { run with events := run.events ++ [event] } (event.run s) := by
  have hlogger := (event.run_spec s).1.trans h.logger
  have hstamped : stamped (run.events ++ [event]) =
      stamped run.events ++ event.call.entries.map (event.clock, ·) := by
    rw [stamped_append, stamped_singleton]
  by_cases hentries : event.call.entries = []
  · have hfiles : (event.run s).files = s.files := by
      rw [Event.files_run, hentries]
      rfl
    have hsame : stamped (run.events ++ [event]) = stamped run.events := by
      rw [hstamped, hentries, List.map_nil, List.append_nil]
    refine ⟨hlogger, fun hnil => ?_, fun hsome => ?_⟩
    · rw [hfiles]
      exact h.fresh (hsame ▸ hnil)
    · rw [hfiles]
      dsimp only
      rw [hsame]
      exact h.written (hsame ▸ hsome)
  · have hstarts : Starts { s with clock := event.clock } run.path
        (logText (stamped run.events)) :=
      (h.starts (happend hentries)).congr rfl rfl
    refine ⟨hlogger, fun hnil => ?_, fun _ => ?_⟩
    · rw [hstamped, List.append_eq_nil_iff, List.map_eq_nil_iff] at hnil
      exact absurd hnil.2 hentries
    · rw [Event.files_run]
      dsimp only
      rw [hstamped, logText_append, logText_map]
      exact (hstarts.reads_toldAll hentries).read

/-! ### Along steps -/

/-- What holds of a session along steps from another one. -/
def Inv (first : Session) (run? : Option Run) (s : Session) : Prop :=
  match run? with
  | none => s.logger = .initial ∧ first.files.AddsDirectories s.files
  | some run => Logs run s

theorem Inv.describes (h : Inv first run? s) : Describes first run? s := by
  cases run? with
  | none => exact h
  | some run => exact ⟨h.logger, h.read_iff⟩

theorem Inv.added (h : Inv first run? s) (hfiles : s.files.AddsDirectories files) :
    Inv first run? (s.withFiles files) := by
  cases run? with
  | none => exact ⟨h.1, h.2.trans hfiles⟩
  | some run => exact Logs.added h hfiles

theorem Inv.call (h : Inv first run? s) (hstep : (Step.call event).Undisturbed s) :
    Inv first ((Step.call event).follow s run?) (event.run s) := by
  cases run? with
  | none =>
    have hfile : s.logger.file = none := by rw [h.1]; rfl
    refine ⟨(event.run_spec s).1.trans h.1, ?_⟩
    rw [event.files_run_of_none hfile]
    exact h.2
  | some run =>
    exact Logs.appended h (hstep run.path (by rw [h.logger]))

/-- A step keeps the session described. -/
theorem Inv.step (h : Inv first run? s) {step : Step} (hstep : step.Undisturbed s) :
    Inv first (step.follow s run?) (step.run s) := by
  cases step with
  | call event => exact h.call hstep
  | start directory verbosity quiet =>
    rw [Step.follow, Step.run]
    cases hclear : clear s.files directory with
    | ok ready =>
      rw [perform_openIn hclear]
      exact logs_opened hclear (hstep ready hclear) verbosity quiet
    | error error =>
      rw [perform_openIn_error hclear]
      exact h.added (FileTree.attemptDirectories_adds _ _)

theorem Inv.steps (h : Inv first run? s) {steps : List Step} (hsteps : Undisturbed steps s) :
    Inv first (lastRun? steps s run?) (runSteps steps s) := by
  induction steps generalizing s run? with
  | nil => exact h
  | cons step steps ih => exact ih (h.step hsteps.1) hsteps.2

/-- **The log holds the last run, and a start that fails changes nothing.** After any starts and
calls, from a session without a log, the logger is as the last start that succeeded set it up, and
its log holds the lines of the calls since then and nothing else; before any start succeeds the
logger is as it was at first and no file is written. A start that fails then leaves the logger and
the log, and all else but directories that it may have added. Whatever is appended is supposed to be
in the file of the log then. -/
theorem describes_runSteps (hlogger : s.logger = .initial) (steps : List Step)
    (hsteps : Undisturbed steps s) :
    Describes s (lastRun? steps s none) (runSteps steps s) ∧
    (∀ directory verbosity quiet error s',
      perform (openIn directory verbosity quiet) (runSteps steps s) = (.error error, s') →
        s'.logger = (runSteps steps s).logger ∧
        (runSteps steps s).files.AddsDirectories s'.files ∧
        Describes s (lastRun? steps s none) s') ∧
    (lastRun? steps s none = none → ∀ event : Event,
      (event.run (runSteps steps s)).files = (runSteps steps s).files) := by
  have hinv : Inv s (lastRun? steps s none) (runSteps steps s) :=
    Inv.steps (show Inv s none s from ⟨hlogger, .refl _⟩) hsteps
  refine ⟨hinv.describes, fun directory verbosity quiet error s' hopen => ?_, fun hnone event => ?_⟩
  · obtain ⟨files, hfiles, rfl⟩ := addsDirectories_of_perform_openIn hopen
    exact ⟨rfl, hfiles, (hinv.added hfiles).describes⟩
  · rw [hnone] at hinv
    exact event.files_run_of_none (by rw [hinv.1]; rfl)

/-! ### A log that is started again -/

theorem CanStart.undisturbed (h : CanStart s.files directory) (verbosity : Nat) (quiet : Bool) :
    (Step.start directory verbosity quiet).Undisturbed s := by
  obtain ⟨ready, made, hclear, hextend, hmade⟩ := h
  intro ready' hclear'
  obtain rfl := Except.ok.inj (hclear.symm.trans hclear')
  exact ⟨made, hextend, hmade⟩

theorem CanStart.follow (h : CanStart s.files directory) (verbosity : Nat) (quiet : Bool)
    (run? : Option Run) :
    (Step.start directory verbosity quiet).follow s run? =
      some ⟨directory, verbosity, quiet, []⟩ := by
  obtain ⟨ready, made, hclear, -⟩ := h
  rw [Step.follow, perform_openIn hclear]

/-- Something can be appended to a log that was just started. -/
theorem CanStart.canAppend (h : CanStart s.files directory) (verbosity : Nat) (quiet : Bool)
    (hpath : ((Step.start directory verbosity quiet).run s).logger.file = some path) :
    CanAppend ((Step.start directory verbosity quiet).run s).files path := by
  obtain ⟨ready, made, hclear, hextend, hmade⟩ := h
  rw [Step.run, perform_openIn hclear] at hpath ⊢
  obtain rfl := Option.some.inj hpath
  exact ⟨made, hextend, hmade⟩

/-- A call before any start, a start with a call, and another start in the same place, with another
call. -/
def restartSteps : List Step :=
  [.call ⟨"00:01", .warn "a"⟩, .start "" 2 true, .call ⟨"00:02", .warn "b"⟩, .start "" 1 false,
    .call ⟨"00:03", .warn "c"⟩]

/-- Only the call since the last start is in the log. -/
theorem describes_runSteps_restart :
    (runSteps restartSteps (.start .empty [])).logger = ⟨1, false, some "pkgmeta.log"⟩ ∧
    (runSteps restartSteps (.start .empty [])).files.read "pkgmeta.log" =
      .ok (Text.encodeUtf8 "[00:03] WARN c\n".toList) := by
  let s₁ := Event.run (.start .empty []) ⟨"00:01", .warn "a"⟩
  let s₂ := (Step.start "" 2 true).run s₁
  let s₃ := Event.run s₂ ⟨"00:02", .warn "b"⟩
  have hfree₁ : s₁.files.item? (s₁.files.workingDirectory ++ ["pkgmeta.log"]) = none := by
    rw [Event.files_run_of_none rfl]
    rfl
  have hstart₁ := canStart_of_free hfree₁
  have hfile₃ : s₃.files.item? (s₃.files.workingDirectory ++ ["pkgmeta.log"]) =
      some (.file (Text.encodeUtf8 "[00:02] WARN b\n".toList) false) := by
    have hopen : s₂ = opened s₁ s₁.files "" 2 true :=
      congrArg (·.2) (perform_openIn (clear_of_free hfree₁) 2 true)
    have hextend := FileTree.extend_name isEntryName_log hfree₁
      (Text.encodeUtf8 "[00:02] WARN b\n".toList)
    have htells := tells_record .warn "b" { opened s₁ s₁.files "" 2 true with clock := "00:02" }
    have hfiles : s₃.files = s₁.files.put (s₁.files.workingDirectory ++ ["pkgmeta.log"])
        (.file (Text.encodeUtf8 "[00:02] WARN b\n".toList) false) := by
      rw [show s₃ = Event.run s₂ _ from rfl, hopen, Event.files_run]
      exact (htells.files rfl hextend).1
    rw [hfiles]
    exact FileTree.item?_put_self (by simp) _
  have hstart₃ := canStart_of_file hfile₃
  have hsteps : Undisturbed restartSteps (.start .empty []) :=
    ⟨by rintro _ ⟨⟩, hstart₁.undisturbed 2 true, fun _ hpath _ => hstart₁.canAppend 2 true hpath,
      hstart₃.undisturbed 1 false, fun _ hpath _ => hstart₃.canAppend 1 false hpath, trivial⟩
  have hlast : lastRun? restartSteps (.start .empty []) none =
      some ⟨"", 1, false, [⟨"00:03", .warn "c"⟩]⟩ := by
    change Option.map _ ((Step.start "" 1 false).follow s₃ _) = _
    rw [hstart₃.follow 1 false]
    rfl
  obtain ⟨hdescribes, -, -⟩ := describes_runSteps rfl restartSteps hsteps
  rw [hlast] at hdescribes
  exact ⟨hdescribes.1, (hdescribes.2 _).mpr ⟨by decide, by decide⟩⟩

end Descriptor.Log
