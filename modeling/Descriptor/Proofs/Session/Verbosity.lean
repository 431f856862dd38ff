import Descriptor.Proofs.Session.Opening
import Mathlib.Data.List.Flatten

/-!
# What the verbosity decides

A call of the logger adds its entries to the log and is shown or not. The verbosity and the wish to
be quiet decide what is shown, and nothing else: the log gets the same entries in any case. What is
shown at some verbosity is shown at every higher one, and what is shown to one who wants it quiet is
shown to one who does not, each time in the same order.

## Main definitions

* `showing` : the session after entries were added to the log and messages were shown.
* `Call`, `Call.action` : the calls of the logger, and what they do.
* `Call.entries`, `Call.printed` : what a call adds to the log, and what it shows.
* `Event`, `runAll` : a call at a time, and the session after calls.
* `shownLines` : the lines on an error stream.

## Main results

* `Call.run_action` : a call adds its entries and shows what it prints.
* `Starts.runAll`, `console_runAll` : what calls add to the log, and what they show.
* `runAll_verbosity` : two runs that differ in their verbosity only.
-/

namespace Descriptor.Log

open Files (FileTree)
open Session (perform)

/-! ### Messages -/

/-- The session after entries were added to the log and messages were shown. -/
def showing (entries : List Entry) (messages : List String) (s : Session) : Session :=
  { toldAll entries s with console := s.console ++ messages }

theorem showing_nil (entries : List Entry) (s : Session) :
    showing entries [] s = toldAll entries s := by
  rw [showing, List.append_nil, ← withFiles_toldAll]
  rfl

/-- A line that is shown under a condition on the logger, once a message was told. -/
theorem run_print (level : Level) (message : String) (shown : Logger → Prop)
    [DecidablePred shown] (line : Bool → String) (s : Session) :
    ((if shown (told level message s).logger then print (line (told level message s).colored)
        else pure () : Action Unit).run (told level message s)).2 =
      showing [⟨level, message⟩] (if shown s.logger then [line s.colored] else []) s := by
  rw [logger_told, colored_told]
  split
  · obtain ⟨files, hfiles⟩ : ∃ files, told level message s = s.withFiles files :=
      ⟨_, (withFiles_told level message s).symm⟩
    rw [showing, toldAll_cons, hfiles]
    rfl
  · rw [showing_nil]
    rfl

/-- A message that is shown behind a mark under a condition on the logger, once it was told. -/
theorem run_printMarked (level : Level) (message : String) (shown : Logger → Prop)
    [DecidablePred shown] (style : Style) (mark : String) (s : Session) :
    ((if shown (told level message s).logger then printMarked style mark message
        else pure () : Action Unit).run (told level message s)).2 =
      showing [⟨level, message⟩]
        (if shown s.logger then [styled s.colored style mark ++ " " ++ message] else []) s := by
  rw [← run_print level message shown fun colored => styled colored style mark ++ " " ++ message]
  split <;> rfl

/-! ### Calls -/

/-- A call of the logger. -/
inductive Call where
  | info (message : String)
  | debug (message : String)
  | step (message : String)
  | warn (message : String)
  | error (message : String)
  | success (message : String)
  | captured (command : String) (output : Child.Output)
  | began (message : String)
  | finished (message : String)
  | failed (message : String)
  | stopped
  deriving DecidableEq, Repr

namespace Call

/-- What a call does. -/
def action : Call → Action Unit
  | info message => Log.info message
  | debug message => Log.debug message
  | step message => Log.step message
  | warn message => Log.warn message
  | error message => Log.error message
  | success message => Log.success message
  | captured command output => Log.captured command output
  | began message => Log.began message
  | finished message => Log.finished message
  | failed message => Log.failed message
  | stopped => Log.stopped

/-- The entries that a call adds to the log. -/
def entries : Call → List Entry
  | info message => [⟨.info, message⟩]
  | debug message => [⟨.debug, message⟩]
  | step message => [⟨.step, message⟩]
  | warn message => [⟨.warn, message⟩]
  | error message => [⟨.error, message⟩]
  | success message => [⟨.success, message⟩]
  | captured command output => capturedEntries command output
  | began message => [⟨.step, message⟩]
  | finished message => [⟨.success, message⟩]
  | failed message => [⟨.error, message⟩]
  | stopped => []

/-- What is shown of a call, if anything is. -/
def shownAs (colored : Bool) : Call → List String
  | info message => [message]
  | debug message => [styled colored .boldBlue "DEBUG:" ++ " " ++ message]
  | step message => [styled colored .dim "TRACE:" ++ " " ++ message]
  | warn message => [styled colored .boldYellow "warning:" ++ " " ++ message]
  | error message => [styled colored .boldRed "error:" ++ " " ++ message]
  | success message => [styled colored .boldGreen "\u2714" ++ " " ++ message]
  | finished message => [styled colored .boldGreen "\u2714" ++ " " ++ message]
  | failed message => ["  " ++ styled colored .boldRed "\u2717" ++ " " ++ message]
  | captured _ _ => []
  | began _ => []
  | stopped => []

/-- Whether a call is shown to one who wants it quiet or not. -/
def isShown (verbosity : Nat) (quiet : Bool) : Call → Bool
  | info _ => 1 ≤ verbosity && !quiet
  | debug _ => 1 ≤ verbosity
  | step _ => 2 ≤ verbosity
  | success _ => !quiet
  | finished _ => !quiet
  | _ => true

/-- What a call prints. -/
def printed (colored : Bool) (verbosity : Nat) (quiet : Bool) (c : Call) : List String :=
  if c.isShown verbosity quiet then c.shownAs colored else []

/-- A call adds its entries to the log and shows what it prints. -/
theorem run_action (c : Call) (s : Session) :
    (c.action.run s).2 =
      showing c.entries (c.printed s.colored s.logger.verbosity s.logger.quiet) s := by
  cases c with
  | captured command output => exact (run_captured command output s).trans (showing_nil _ s).symm
  | began message => exact (showing_nil [⟨.step, message⟩] s).symm
  | stopped => exact (showing_nil [] s).symm
  | info message =>
    exact run_print .info message (fun l => (decide (1 ≤ l.verbosity) && !l.quiet) = true)
      (fun _ => message) s
  | debug message =>
    rw [printed]
    simp only [isShown, decide_eq_true_eq]
    exact run_printMarked .debug message (fun l => 1 ≤ l.verbosity) _ _ s
  | step message =>
    rw [printed]
    simp only [isShown, decide_eq_true_eq]
    exact run_printMarked .step message (fun l => 2 ≤ l.verbosity) _ _ s
  | success message => exact run_printMarked .success message (fun l => (!l.quiet) = true) _ _ s
  | finished message => exact run_printMarked .success message (fun l => (!l.quiet) = true) _ _ s
  | warn message => exact run_printMarked .warn message (fun _ => True) _ _ s
  | error message => exact run_printMarked .error message (fun _ => True) _ _ s
  | failed message =>
    exact run_print .error message (fun _ => True)
      (fun colored => "  " ++ styled colored .boldRed "\u2717" ++ " " ++ message) s

/-- What is shown is shown at every higher verbosity, and to one who does not want it quiet. -/
theorem isShown_mono {verbosity verbosity' : Nat} {quiet quiet' : Bool}
    (hverbosity : verbosity ≤ verbosity') (hquiet : quiet' = true → quiet = true) (c : Call)
    (h : c.isShown verbosity quiet = true) : c.isShown verbosity' quiet' = true := by
  have hloud : (!quiet) = true → (!quiet') = true := by
    rw [Bool.not_eq_true', Bool.not_eq_true', ← Bool.not_eq_true, ← Bool.not_eq_true]
    exact mt hquiet
  cases c with
  | info message =>
    rw [isShown, Bool.and_eq_true, decide_eq_true_eq] at h ⊢
    exact ⟨Nat.le_trans h.1 hverbosity, hloud h.2⟩
  | debug message | step message =>
    rw [isShown, decide_eq_true_eq] at h ⊢
    exact Nat.le_trans h hverbosity
  | success message | finished message => exact hloud h
  | warn | error | captured | began | failed | stopped => rfl

theorem printed_sublist {verbosity verbosity' : Nat} {quiet quiet' : Bool}
    (hverbosity : verbosity ≤ verbosity') (hquiet : quiet' = true → quiet = true)
    (colored : Bool) (c : Call) :
    (c.printed colored verbosity quiet).Sublist (c.printed colored verbosity' quiet') := by
  unfold printed
  split
  · next hshown => rw [if_pos (c.isShown_mono hverbosity hquiet hshown)]
  · exact List.nil_sublist _

end Call

/-! ### Runs of calls -/

/-- A call at a time. -/
structure Event where
  clock : String
  call : Call
  deriving DecidableEq, Repr

/-- The session after a call at a time. -/
def Event.run (s : Session) (e : Event) : Session :=
  (e.call.action.run { s with clock := e.clock }).2

/-- The session after calls. -/
def runAll (events : List Event) (s : Session) : Session := events.foldl Event.run s

/-- The entries that calls add to the log, each with its time. -/
def stamped (events : List Event) : List (String × Entry) :=
  events.flatMap fun e => e.call.entries.map (e.clock, ·)

/-- The text that entries at their times come to. -/
def logText (entries : List (String × Entry)) : String :=
  String.join (entries.map fun e => e.2.text e.1)

/-- The messages that calls show. -/
def shownBy (colored : Bool) (verbosity : Nat) (quiet : Bool) (calls : List Call) :
    List String :=
  calls.flatMap (Call.printed colored verbosity quiet)

/-- The lines that messages take. -/
def shownLines (messages : List String) : List String := messages.flatMap (Files.splitAt '\n')

variable {s s' : Session} {path text : String}

theorem Event.run_eq (s : Session) (e : Event) :
    e.run s =
      showing e.call.entries
        (e.call.printed s.colored s.logger.verbosity s.logger.quiet) { s with clock := e.clock } :=
  e.call.run_action _

/-- What a call leaves as it is, and what it shows. -/
theorem Event.run_spec (s : Session) (e : Event) :
    (e.run s).logger = s.logger ∧ (e.run s).colored = s.colored ∧
      (e.run s).console =
        s.console ++ e.call.printed s.colored s.logger.verbosity s.logger.quiet := by
  rw [Event.run_eq, showing, ← withFiles_toldAll]
  exact ⟨rfl, rfl, rfl⟩

/-- Calls show what each of them shows, one after the other. -/
theorem console_runAll (events : List Event) (s : Session) :
    (runAll events s).console =
      s.console ++
        shownBy s.colored s.logger.verbosity s.logger.quiet (events.map (·.call)) := by
  induction events generalizing s with
  | nil => exact (List.append_nil _).symm
  | cons e events ih =>
    obtain ⟨hlogger, hcolored, hconsole⟩ := e.run_spec s
    calc (runAll (e :: events) s).console
        = (e.run s).console ++
            shownBy s.colored s.logger.verbosity s.logger.quiet (events.map (·.call)) := by
          rw [← hlogger, ← hcolored]
          exact ih _
      _ = _ := by
          rw [hconsole, List.append_assoc, List.map_cons, shownBy, shownBy, List.flatMap_cons]

theorem shownBy_sublist {verbosity verbosity' : Nat} {quiet quiet' : Bool}
    (hverbosity : verbosity ≤ verbosity') (hquiet : quiet' = true → quiet = true)
    (colored : Bool) (calls : List Call) :
    (shownBy colored verbosity quiet calls).Sublist (shownBy colored verbosity' quiet' calls) :=
  List.Sublist.flatMap_right calls fun c _ => c.printed_sublist hverbosity hquiet colored

/-- Calls add their entries to the log, each at its time, whatever is shown of them. -/
theorem Starts.runAll (h : Starts s path text) (events : List Event) :
    Starts (runAll events s) path (text ++ logText (stamped events)) := by
  induction events generalizing s text with
  | nil => rwa [stamped, logText, List.flatMap_nil, List.map_nil, String.join_nil,
      String.append_empty]
  | cons e events ih =>
    have hclock : Starts { s with clock := e.clock } path text := h.congr rfl rfl
    have hcall : Starts (e.run s) path
        (text ++ String.join (e.call.entries.map (Entry.text e.clock))) := by
      rw [Event.run_eq]
      exact (hclock.toldAll e.call.entries).congr rfl rfl
    have htext : logText (stamped (e :: events)) =
        String.join (e.call.entries.map (Entry.text e.clock)) ++ logText (stamped events) := by
      simp only [logText, stamped, List.flatMap_cons, List.map_append, String.join_append,
        List.map_map]
      rfl
    rw [htext, ← String.append_assoc]
    exact ih hcall

/-- What calls do to the files is a matter of the files and of the path of the log. -/
theorem files_runAll_congr (hfiles : s.files = s'.files) (hlog : s.logger.file = s'.logger.file)
    (events : List Event) : (runAll events s).files = (runAll events s').files := by
  induction events generalizing s s' with
  | nil => exact hfiles
  | cons e events ih =>
    refine ih ?_ ?_
    · rw [Event.run_eq, Event.run_eq]
      exact files_toldAll_congr (by exact hfiles) (by exact hlog) (by rfl) e.call.entries
    · rw [(e.run_spec s).1, (e.run_spec s').1, hlog]

/-- Which entries there are is a matter of the calls, whatever their times. -/
theorem map_snd_stamped (events : List Event) :
    (stamped events).map (·.2) = (events.map (·.call)).flatMap Call.entries := by
  simp [stamped, List.map_flatMap, List.flatMap_map, Function.comp_def]

/-- Two runs of the same calls after a log was started, with the verbosity and the wish to be quiet
chosen for each. The same levels and messages come to the log in both, and the same log if the calls
are made at the same times. The lines that are shown in one of them are among those that are shown
in the other, in order, if the other is as verbose and not quieter. -/
theorem runAll_verbosity (directory : String) (s : Session) (hlog : CanStart s.files directory)
    (events events' : List Event) (hcalls : events.map (·.call) = events'.map (·.call))
    (verbosity verbosity' : Nat) (quiet quiet' : Bool) :
    ∃ t t' shown shown',
      perform (openIn directory verbosity quiet) s = (.ok (), t) ∧
      perform (openIn directory verbosity' quiet') s = (.ok (), t') ∧
      Starts (runAll events t) (fileIn directory) (logText (stamped events)) ∧
      Starts (runAll events' t') (fileIn directory) (logText (stamped events')) ∧
      (stamped events).map (·.2) = (stamped events').map (·.2) ∧
      (events = events' → (runAll events t).files = (runAll events' t').files) ∧
      (runAll events t).console = s.console ++ shown ∧
      (runAll events' t').console = s.console ++ shown' ∧
      (verbosity ≤ verbosity' → (quiet' = true → quiet = true) →
        (shownLines shown).Sublist (shownLines shown')) := by
  obtain ⟨ready, -, hopened⟩ := hlog.exists_opened
  obtain ⟨hopen, hstart⟩ := hopened verbosity quiet
  obtain ⟨hopen', hstart'⟩ := hopened verbosity' quiet'
  refine ⟨_, _, _, _, hopen, hopen', by simpa using hstart.runAll events,
    by simpa using hstart'.runAll events', ?_, ?_, console_runAll _ _, console_runAll _ _, ?_⟩
  · rw [map_snd_stamped, map_snd_stamped, hcalls]
  · rintro rfl
    exact files_runAll_congr (by rfl) (by rfl) events
  · intro hverbosity hquiet
    rw [hcalls]
    exact (shownBy_sublist hverbosity hquiet s.colored _).flatMap _

/-- A detail of two lines and a warning, without details and with them. -/
theorem runAll_verbosity_detail :
    ∃ t t',
      perform (openIn "" 0 false) (Session.start .empty []) = (.ok (), t) ∧
      perform (openIn "" 1 false) (Session.start .empty []) = (.ok (), t') ∧
      Starts (runAll [⟨"00:01", .debug "a\nb"⟩, ⟨"00:02", .warn "c"⟩] t) "pkgmeta.log"
        "[00:01] DEBUG a\nb\n[00:02] WARN c\n" ∧
      Starts (runAll [⟨"00:03", .debug "a\nb"⟩, ⟨"00:03", .warn "c"⟩] t') "pkgmeta.log"
        "[00:03] DEBUG a\nb\n[00:03] WARN c\n" ∧
      (shownLines (runAll [⟨"00:01", .debug "a\nb"⟩, ⟨"00:02", .warn "c"⟩] t).console).Sublist
        (shownLines (runAll [⟨"00:03", .debug "a\nb"⟩, ⟨"00:03", .warn "c"⟩] t').console) := by
  obtain ⟨t, t', shown, shown', ht, ht', hlog, hlog', -, -, hshown, hshown', hsublist⟩ :=
    runAll_verbosity "" (Session.start .empty []) (canStart_of_free rfl)
      [⟨"00:01", .debug "a\nb"⟩, ⟨"00:02", .warn "c"⟩]
      [⟨"00:03", .debug "a\nb"⟩, ⟨"00:03", .warn "c"⟩] rfl 0 1 false false
  refine ⟨t, t', ht, ht', hlog, hlog', ?_⟩
  rw [hshown, hshown']
  exact hsublist (by decide) (by decide)

end Descriptor.Log
