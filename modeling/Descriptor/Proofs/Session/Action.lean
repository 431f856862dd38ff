import Descriptor.Session.Log

/-!
# Actions that can fail, step by step

What an action on a session gives and leaves, told by the way it is put together. An action that
fails still leaves what it did before.

## Main definitions

* `Session.perform` : the outcome of an action and the session it leaves.

## Main results

* `Session.perform_bind` : an action that goes on where another one succeeds.
-/

namespace Descriptor.Session

variable {ε α β : Type}

/-- The outcome of an action that can fail, and the session it leaves. -/
def perform (action : ExceptT ε (StateM Session) α) (s : Session) : Except ε α × Session :=
  action.run s

@[simp]
theorem perform_pure (a : α) (s : Session) :
    perform (pure a : ExceptT ε (StateM Session) α) s = (.ok a, s) := rfl

@[simp]
theorem perform_throw (e : ε) (s : Session) :
    perform (throw e : ExceptT ε (StateM Session) α) s = (.error e, s) := rfl

/-- What comes next is done in the session that was left, unless there was an error. -/
theorem perform_bind (action : ExceptT ε (StateM Session) α)
    (next : α → ExceptT ε (StateM Session) β) (s : Session) :
    perform (action >>= next) s =
      match perform action s with
      | (.ok a, s') => perform (next a) s'
      | (.error e, s') => (.error e, s') := by
  simp only [perform, ExceptT.run_bind]
  rcases h : (action.run s : Except ε α × Session) with ⟨_ | a, s'⟩
  · simp only [bind, StateT.bind, h]
    rfl
  · simp only [bind, StateT.bind, h]

@[simp]
theorem perform_get (s : Session) :
    perform (get : ExceptT ε (StateM Session) Session) s = (.ok s, s) := rfl

@[simp]
theorem perform_set (s s' : Session) :
    perform (set s' : ExceptT ε (StateM Session) PUnit) s = (.ok ⟨⟩, s') := rfl

@[simp]
theorem perform_modify (f : Session → Session) (s : Session) :
    perform (modify f : ExceptT ε (StateM Session) PUnit) s = (.ok ⟨⟩, f s) := rfl

@[simp]
theorem perform_log (action : Log.Action Unit) (s : Session) :
    perform (action : ExceptT ε (StateM Session) Unit) s = (.ok (), (action.run s).2) := rfl

end Descriptor.Session
