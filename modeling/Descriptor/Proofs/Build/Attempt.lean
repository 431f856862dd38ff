import Descriptor.Build.Uv
import Descriptor.Proofs.Build.Action
import Descriptor.Proofs.Session.Entries

/-!
# Commands that are tried

A command is told before it is tried, and so is how it ended, whatever its end was. It may not start
for want of its program or for another fault, and it may end otherwise than it should: each of these
is an error of its own.

## Main definitions

* `Attempt` : a command that was tried, and what came of it.
* `Attempt.Succeeds`, `Attempt.Fails` : the ways in which an attempt can end.
* `Attempt.entries`, `Attempt.parts` : what an attempt adds to the log.
* `Tries` : attempts, one after the other.

## Main results

* `Attempt.In.perform_runCommand` : to run a command is to try it.
* `Attempt.succeeds_iff`, `Attempt.fails_iff` : what comes of an attempt.
* `Tries.reads` : what the log holds after attempts.
-/

namespace Descriptor.Build

open Files (Fault FileTree)
open Child (Command Launcher Output printedText)

theorem isSuccess_iff {status : Child.Status} : status.isSuccess = true ↔ status = .code 0 :=
  decide_eq_true_iff

/-- A command that was tried: the session in which it was to start, how that went, and the files
that were left. -/
structure Attempt where
  command : Command
  session : Session
  started : Except Fault Output
  files : FileTree

namespace Attempt

/-- The attempt succeeds: the command was started, and ended as it should. -/
def Succeeds (a : Attempt) : Prop := ∃ output, a.started = .ok output ∧ output.status = .code 0

/-- The attempt fails with an error. -/
inductive Fails (a : Attempt) : BuildError → Prop
  | absent (hstarted : a.started = .error .notFound) : Fails a (.toolNotFound a.command.program)
  | unstarted {fault : Fault} (hstarted : a.started = .error fault) (hfault : fault ≠ .notFound) :
      Fails a (.io ("running " ++ commandLine a.command) fault)
  | ended {output : Output} (hstarted : a.started = .ok output)
      (hstatus : output.status ≠ .code 0) :
      Fails a (.commandFailed (commandLine a.command) output.status.code?
        (printedText output.stdout) (printedText output.stderr))

/-- The entries about an attempt, which are those about its process if there was one. -/
def entries (a : Attempt) : List Log.Entry :=
  match a.started with
  | .ok output => Log.capturedEntries (commandLine a.command) output
  | .error _ => []

/-- The session after an attempt. -/
def after (a : Attempt) : Session := Log.toldAll a.entries (a.session.withFiles a.files)

/-- The parts that an attempt adds to the log: that the command is to run, what the process adds
itself, and the entries about it. -/
def parts (a : Attempt) : List Log.Part :=
  .line .debug ("Running: " ++ commandLine a.command) :: .foreign ::
    a.entries.map Log.Entry.part

/-- The process of an attempt adds nothing to the log but a text that is allowed. -/
def Adds (Allowed : String → Prop) (a : Attempt) : Prop :=
  Log.Grows Allowed [.foreign] a.session (a.session.withFiles a.files)

/-- The attempt is made in a session: the command is told, and started then. -/
structure In (launch : Launcher) (s : Session) (a : Attempt) : Prop where
  session : a.session = ((Log.debug ("Running: " ++ commandLine a.command)).run s).2
  launch : launch a.command a.session.files = (a.started, a.files)

variable {launch launch' : Launcher} {s : Session} {a : Attempt}

/-- An attempt is made with whatever starts its command alike. -/
theorem In.congr (h : a.In launch s)
    (hsame : launch' a.command a.session.files = launch a.command a.session.files) :
    a.In launch' s :=
  ⟨h.session, hsame.trans h.launch⟩

/-- What comes of a command once it was tried. -/
def outcome (a : Attempt) : Except BuildError Output :=
  match a.started with
  | .error .notFound => .error (.toolNotFound a.command.program)
  | .error fault => .error (.io ("running " ++ commandLine a.command) fault)
  | .ok output =>
    if output.status.isSuccess then .ok output
    else .error (.commandFailed (commandLine a.command) output.status.code?
      (printedText output.stdout) (printedText output.stderr))

theorem succeeds_iff : a.Succeeds ↔ ∃ output, a.outcome = .ok output := by
  constructor
  · rintro ⟨output, hstarted, hstatus⟩
    refine ⟨output, ?_⟩
    rw [outcome, hstarted]
    exact if_pos (isSuccess_iff.mpr hstatus)
  · rintro ⟨output, houtcome⟩
    unfold outcome at houtcome
    split at houtcome
    · cases houtcome
    · cases houtcome
    · next hstarted =>
      split at houtcome
      · next hstatus => exact ⟨_, hstarted, isSuccess_iff.mp hstatus⟩
      · cases houtcome

theorem fails_iff {e : BuildError} : a.Fails e ↔ a.outcome = .error e := by
  constructor
  · intro h
    unfold outcome
    cases h with
    | absent hstarted => rw [hstarted]
    | unstarted hstarted hfault =>
      rw [hstarted]
      split
      · next h => exact absurd (Except.error.inj h) hfault
      · next h => rw [Except.error.inj h]
      · next h => cases h
    | ended hstarted hstatus =>
      rw [hstarted]
      exact if_neg (mt isSuccess_iff.mp hstatus)
  · intro houtcome
    unfold outcome at houtcome
    split at houtcome
    · next hstarted =>
      obtain rfl := Except.error.inj houtcome
      exact .absent hstarted
    · next hfault hstarted =>
      obtain rfl := Except.error.inj houtcome
      exact .unstarted hstarted hfault
    · next hstarted =>
      split at houtcome
      · cases houtcome
      · next hstatus =>
        obtain rfl := Except.error.inj houtcome
        exact .ended hstarted (mt isSuccess_iff.mpr hstatus)

theorem Fails.not_succeeds {e : BuildError} (h : a.Fails e) : ¬a.Succeeds := by
  rw [succeeds_iff, fails_iff.mp h]
  simp

theorem Succeeds.not_fails (h : a.Succeeds) (e : BuildError) : ¬a.Fails e :=
  fun hfails => hfails.not_succeeds h

/-- An attempt fails with one error at most. -/
theorem Fails.iff_eq {e e' : BuildError} (h : a.Fails e) : a.Fails e' ↔ e = e' := by
  rw [fails_iff, fails_iff.mp h, Except.error.injEq]

/-! ### What attempts add to the log -/

variable {Allowed : String → Prop}

/-- Once the command was told, an attempt adds the rest of its parts. -/
theorem Adds.grows (hadds : a.Adds Allowed) :
    Log.Grows Allowed (.foreign :: a.entries.map Log.Entry.part) a.session a.after :=
  Log.Grows.trans hadds (Log.grows_toldAll _ _)

theorem In.tells (h : a.In launch s) :
    Log.Tells .debug ("Running: " ++ commandLine a.command) s a.session :=
  h.session ▸ Log.tells_debug _ s

/-- An attempt adds its parts to the log. -/
theorem In.grows (h : a.In launch s) (hadds : a.Adds Allowed) :
    Log.Grows Allowed a.parts s a.after :=
  h.tells.grows.trans hadds.grows

end Attempt

/-- Attempts one after the other, from a session to a later one. -/
inductive Tries (launch : Launcher) : Session → List Attempt → Session → Prop
  | nil (s : Session) : Tries launch s [] s
  | cons {a : Attempt} {attempts : List Attempt} {s s' : Session} (h : a.In launch s)
      (hrest : Tries launch a.after attempts s') : Tries launch s (a :: attempts) s'

namespace Tries

variable {launch launch' : Launcher} {s s' : Session} {a : Attempt} {attempts : List Attempt}
  {Allowed : String → Prop} {path text : String}

theorem cons_iff :
    Tries launch s (a :: attempts) s' ↔ a.In launch s ∧ Tries launch a.after attempts s' := by
  constructor
  · intro h
    cases h with
    | cons hin hrest => exact ⟨hin, hrest⟩
  · rintro ⟨hin, hrest⟩
    exact .cons hin hrest

/-- Attempts are made with whatever starts their commands alike. -/
theorem congr (h : Tries launch s attempts s')
    (hsame : ∀ a ∈ attempts,
      launch' a.command a.session.files = launch a.command a.session.files) :
    Tries launch' s attempts s' := by
  induction h with
  | nil s => exact .nil s
  | cons hin _ ih =>
    obtain ⟨hsame, hrest⟩ := List.forall_mem_cons.mp hsame
    exact .cons (hin.congr hsame) (ih hrest)

/-- Attempts add their parts to the log, one after the other. -/
theorem grows (h : Tries launch s attempts s') (hadds : ∀ a ∈ attempts, a.Adds Allowed) :
    Log.Grows Allowed (attempts.flatMap Attempt.parts) s s' := by
  induction h with
  | nil s => exact .refl s
  | cons hin _ ih =>
    obtain ⟨hadds, hrest⟩ := List.forall_mem_cons.mp hadds
    exact (hin.grows hadds).trans (ih hrest)

/-- After attempts the log holds their parts behind what it held, also if it was not there yet when
the first command was told. -/
theorem reads (h : Tries launch s (a :: attempts) s')
    (hadds : ∀ b ∈ a :: attempts, b.Adds Allowed) (hstarts : Log.Starts s path text) :
    ∃ more, Log.Spells Allowed ((a :: attempts).flatMap Attempt.parts) more ∧
      Log.Reads s' path (text ++ more) := by
  obtain ⟨hadds, hrestAdds⟩ := List.forall_mem_cons.mp hadds
  obtain ⟨hin, hrest⟩ := cons_iff.mp h
  have hgrows := hadds.grows.trans (hrest.grows hrestAdds)
  obtain ⟨more, hmore, hreads⟩ := hgrows.log path _ (hstarts.tells hin.tells)
  refine ⟨_, .line s.clock _ _ hmore, ?_⟩
  rwa [← String.append_assoc]

end Tries

end Descriptor.Build
