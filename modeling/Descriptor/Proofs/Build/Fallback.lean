import Descriptor.Proofs.Build.Course
import Descriptor.Proofs.Record.Merge

/-!
# Backends in place of silent files

A backend is asked only where the files of a project say nothing about what its package requires.
Where they say anything, a reading with a fallback is the reading of the files and leaves no trace;
where they do not, the record of the backend takes the place of theirs as a whole.

## Main results

* `perform_readWithFallback` : what a reading with a fallback does in either case.
-/

namespace Descriptor.Build

open Project (Reading ScriptReader readProjectWith)

variable {b : Builder} {reader : ScriptReader} {project : String} {s : Session}

/-- Files that say something are all that is read. -/
theorem perform_readWithFallback_of_requirements
    (h : (readProjectWith reader s.files project).record.SaysRequirements) :
    perform (b.readWithFallback reader project) s =
      (.ok (readProjectWith reader s.files project), s) := by
  have hlacks : ¬(readProjectWith reader s.files project).record.lacksDependencies = true :=
    fun hlacks => Record.lacksDependencies_iff.mp hlacks h
  rw [Builder.readWithFallback, perform_bind, perform_get]
  simp only [if_neg hlacks, perform_pure]

/-- Where files say nothing, the record of the backend takes the place of theirs. -/
theorem perform_readWithFallback_of_no_requirements
    (h : ¬(readProjectWith reader s.files project).record.SaysRequirements) :
    perform (b.readWithFallback reader project) s =
      ((perform (b.read project) s).1.map fun record =>
        ⟨record, (readProjectWith reader s.files project).found,
          (readProjectWith reader s.files project).failures⟩,
        (perform (b.read project) s).2) := by
  rw [Builder.readWithFallback, perform_bind, perform_get]
  simp only [if_pos (Record.lacksDependencies_iff.mpr h), perform_bind]
  rcases perform (b.read project) s with ⟨error | record, after⟩
  · rfl
  · rfl

/-- A reading with a fallback is that of the files, and nothing else happens, where the files say
something about what the package requires. Elsewhere all that happens is what happens in a read
through the backend, with the same requests, and the outcome is that of this read: its error, or
its record with the files that were found and those that failed. -/
theorem perform_readWithFallback (r : Runner) (backend : String) (requires : List String)
    (reader : ScriptReader) (project : String) (s : Session) :
    let b : Builder := ⟨r.traced, backend, requires⟩
    let reading := readProjectWith reader s.files project
    (reading.record.SaysRequirements →
      perform (b.readWithFallback reader project) s = (.ok reading, s)) ∧
    (¬reading.record.SaysRequirements →
      ∃ made parts outcome after,
        perform (b.read project) s = (outcome, after) ∧
        Course b project s made parts outcome after ∧
        after.calls = s.calls ++ made.map (·.1) ∧
        perform (b.readWithFallback reader project) s =
          (outcome.map fun record => ⟨record, reading.found, reading.failures⟩, after)) := by
  intro b reading
  refine ⟨perform_readWithFallback_of_requirements, fun h => ?_⟩
  obtain ⟨made, parts, hcourse⟩ := exists_course b project s
  exact ⟨made, parts, _, _, rfl, hcourse, hcourse.calls rfl,
    perform_readWithFallback_of_no_requirements h⟩

end Descriptor.Build
