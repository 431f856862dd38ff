import Descriptor.Cli.Program
import Descriptor.Proofs.Build.Action
import Descriptor.Proofs.Session.Action

/-!
# Actions of the program, step by step

What the parts that requests are answered with give, and which session they leave.

## Main definitions

* `NeverFails` : an action that succeeds in every session.
* `builderIn` : the builder that a session asks for.

## Main results

* `perform_ofBuild` : an action of a build as one of the program.
* `perform_loadSettings`, `perform_builder` : the settings of the session and the builder that they
  ask for, neither of which changes anything.
* `perform_saveSettings` : what saving settings gives and leaves.
-/

namespace Descriptor.Cli

open Child (Launcher)
open Session (perform perform_bind perform_get perform_log perform_pure perform_set perform_throw)

variable {α β : Type} {s : Session}

theorem perform_ofBuild (action : Build.Action α) (s : Session) :
    perform (ofBuild action) s =
      ((Build.perform action s).1.mapError .build, (Build.perform action s).2) := by
  simp only [Build.perform, perform, ofBuild, ExceptT.run_adapt, Functor.map, StateT.map, bind]
  rcases (action.run s : Except BuildError α × Session) with ⟨_ | a, s'⟩ <;> rfl

/-! ### Actions that never fail -/

/-- An action that succeeds in every session. -/
def NeverFails (action : Action α) : Prop := ∀ s, ∃ a s', perform action s = (.ok a, s')

namespace NeverFails

theorem pure (a : α) : NeverFails (pure a) := fun s => ⟨a, s, rfl⟩

theorem log (action : Log.Action Unit) : NeverFails (action : Action Unit) :=
  fun s => ⟨(), (action.run s).2, rfl⟩

theorem bind {action : Action α} {next : α → Action β} (h : NeverFails action)
    (hnext : ∀ a, NeverFails (next a)) : NeverFails (action >>= next) := by
  intro s
  obtain ⟨a, s', hs'⟩ := h s
  rw [perform_bind, hs']
  exact hnext a s'

theorem forIn {body : α → β → Action (ForInStep β)} (h : ∀ a b, NeverFails (body a b))
    (elements : List α) (b : β) : NeverFails (forIn elements b body) := by
  induction elements generalizing b with
  | nil => exact .pure b
  | cons a elements ih =>
    rw [List.forIn_cons]
    refine (h a b).bind fun step => ?_
    cases step with
    | done b => exact .pure b
    | yield b => exact ih b

end NeverFails

/-! ### Settings -/

@[simp]
theorem perform_loadSettings (s : Session) :
    perform loadSettings s = ((Settings.load s).mapError .cannotLoad, s) := by
  rw [loadSettings, perform_bind, perform_get]
  cases h : Settings.load s <;> simp [h, Except.mapError]

/-- The builder that a session asks for. -/
def builderIn (launch : Launcher) (s : Session) : Except Failure Build.Builder := do
  let settings ← (Settings.load s).mapError .cannotLoad
  let uv ← (Build.Uv.ofSettings settings s).mapError .build
  return .ofSettings (uv.runner launch) settings

theorem builderIn_of_load_error {e : SettingsError} (launch : Launcher)
    (h : Settings.load s = .error e) : builderIn launch s = .error (.cannotLoad e) := by
  rw [builderIn, h]
  rfl

theorem builderIn_of_load {settings : Settings} (launch : Launcher)
    (h : Settings.load s = .ok settings) :
    builderIn launch s =
      ((Build.Uv.ofSettings settings s).mapError .build).map
        fun uv => .ofSettings (uv.runner launch) settings := by
  rw [builderIn, h]
  change ((Build.Uv.ofSettings settings s).mapError Failure.build >>= fun uv =>
    pure (Build.Builder.ofSettings (uv.runner launch) settings)) = _
  cases Build.Uv.ofSettings settings s <;> rfl

@[simp]
theorem perform_builder (launch : Launcher) (s : Session) :
    perform (builder launch) s = (builderIn launch s, s) := by
  rw [builder, perform_bind, perform_loadSettings]
  cases hload : Settings.load s with
  | error e =>
    rw [builderIn_of_load_error launch hload]
    rfl
  | ok settings =>
    rw [builderIn_of_load launch hload]
    simp only [Except.mapError, perform_bind, perform_get]
    cases Build.Uv.ofSettings settings s <;> rfl

theorem perform_saveSettings (settings : Settings) (s : Session) :
    perform (saveSettings settings) s =
      (((settings.save s).1.map fun _ => ()).mapError .cannotSave,
        s.withFiles (settings.save s).2) := by
  rw [saveSettings, perform_bind, perform_get]
  rcases h : settings.save s with ⟨_ | path, files⟩ <;>
    simp [h, perform_bind, Except.map, Except.mapError]

end Descriptor.Cli
