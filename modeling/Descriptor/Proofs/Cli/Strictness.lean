import Descriptor.Proofs.Cli.Fallback

/-!
# Strict requests

A request to read a project may be strict about files that cannot be read. It does all that the
request does that is not strict, fails where that one fails and prints what that one prints, unless
some of the files that describe the package could not be read: then it ends with an error that names
their number. Files that could not be read count as well where a backend took their place because
they say too little; where the backend alone is asked, no file is read and none counts.

## Main definitions

* `ReadRequest.strictly` : a request that is strict, or one that is not.
* `unreadableFor` : the files that a request finds and cannot read.
* `KeepsFailures` : an outcome with given files on record that could not be read.

## Main results

* `keepsFailures_readBy` : whatever a record is read by, the files that could not be read stay on
  record.
* `readProject_strictly` : what a strict request does, by what the other one does.
-/

namespace Descriptor.Cli

open Child (Launcher)
open Project (DescriptorError Reading)
open Session (perform perform_bind)

variable {launch : Launcher} {r : ReadRequest} {s : Session} {reading : Reading}

/-- A request that is strict about files that cannot be read, or one that is not. -/
def ReadRequest.strictly (r : ReadRequest) (strict : Bool) : ReadRequest :=
  { r with strict := strict }

/-- The files of a project that a request finds and cannot read. A request for a build looks for
none. -/
def unreadableFor (r : ReadRequest) (s : Session) : List DescriptorError :=
  if r.build then [] else (Project.readProject s.files r.directory).failures

/-- An outcome with given files on record that could not be read, or an error that these are not the
cause of. -/
def KeepsFailures (failures : List DescriptorError) : Except Failure Reading → Prop
  | .ok reading => reading.failures = failures
  | .error e => ∀ count, e ≠ .unreadable count

/-- What keeps failures with every builder keeps them with the one of the session, if it has one. -/
theorem keepsFailures_builder_bind {failures : List DescriptorError}
    {next : Build.Builder → Action Reading}
    (h : ∀ b, KeepsFailures failures (perform (next b) s).1) :
    KeepsFailures failures (perform (builder launch >>= next) s).1 := by
  rw [perform_bind, perform_builder]
  obtain ⟨-, b, hb⟩ | ⟨-, e, he, hne⟩ := builderIn_cases launch s
  · simpa only [hb] using h b
  · simp only [he]
    exact hne

/-- The record of a backend alone comes with no files that could not be read. -/
theorem keepsFailures_build (b : Build.Builder) (directory : String) (s : Session) :
    KeepsFailures [] (perform (do
      return { Reading.empty with record := ← ofBuild (b.read directory) }) s).1 := by
  rw [perform_bind, perform_ofBuild]
  rcases Build.perform (b.read directory) s with ⟨e | record, after⟩
  · exact nofun
  · exact rfl

/-- A backend that takes the place of files that say too little leaves on record which of them could
not be read. -/
theorem keepsFailures_readWithFallback (b : Build.Builder) (directory : String) (s : Session) :
    KeepsFailures (Project.readProject s.files directory).failures
      (perform (ofBuild (b.readWithFallback Script.readModule directory)) s).1 := by
  rw [perform_ofBuild]
  by_cases hsays : (Project.readProject s.files directory).record.SaysRequirements
  · rw [Build.perform_readWithFallback_of_requirements hsays]
    exact rfl
  · rw [Build.perform_readWithFallback_of_no_requirements hsays]
    rcases Build.perform (b.read directory) s with ⟨e | record, after⟩
    · exact nofun
    · exact rfl

/-- Whatever a record is read by, the files that could not be read stay on record. -/
theorem keepsFailures_readBy (launch : Launcher) (r : ReadRequest) (s : Session) :
    KeepsFailures (unreadableFor r s) (perform (readBy launch r) s).1 := by
  unfold readBy unreadableFor
  split
  · exact keepsFailures_builder_bind fun b => keepsFailures_build b r.directory s
  · split
    · exact keepsFailures_builder_bind fun b => keepsFailures_readWithFallback b r.directory s
    · exact rfl

/-- A strict request does with a reading what one does that is not strict, and then looks whether
all files could be read. -/
theorem perform_present_strictly (r : ReadRequest) (reading : Reading) (s : Session) :
    perform (present (r.strictly true) reading) s =
      ((perform (present (r.strictly false) reading) s).1.bind fun text =>
        if reading.failures = [] then .ok text else .error (.unreadable reading.failures.length),
        (perform (present (r.strictly false) reading) s).2) := by
  obtain ⟨⟨⟩, s', hreport⟩ := neverFails_report reading s
  simp only [present, ReadRequest.strictly, perform_bind, hreport]
  cases reading.failures <;> rfl

/-- **To be strict is to fail because of files that could not be read, and nothing else.** A strict
request has the outcome of the one that is not strict, unless that is a text and files could not be
read: then it fails and tells how many. It leaves all else as the other one leaves it. That one
never fails because of such files; its text is that of the record that was read. -/
theorem readProject_strictly (launch : Launcher) (r : ReadRequest) (s : Session) :
    let lenient := perform (readProject launch (r.strictly false)) s
    let unreadable := unreadableFor r s
    perform (readProject launch (r.strictly true)) s =
      (lenient.1.bind fun text =>
        if unreadable = [] then .ok text else .error (.unreadable unreadable.length), lenient.2) ∧
    (∀ count, lenient.1 ≠ .error (.unreadable count)) ∧
    (∀ text, lenient.1 = .ok text → ∃ reading, (perform (readBy launch r) s).1 = .ok reading ∧
      reading.failures = unreadable ∧ text = render reading.record r.format) ∧
    ∀ count, (Failure.unreadable count).text =
      toString count ++ " descriptor file(s) could not be read" := by
  intro lenient unreadable
  have hkeeps := keepsFailures_readBy launch r s
  have hperform (strict : Bool) : perform (readProject launch (r.strictly strict)) s =
      if s.files.isDirectory r.directory then
        perform (readBy launch r >>= present (r.strictly strict)) s
      else (.error (.notADirectory r.directory), s) :=
    perform_readProject launch (r.strictly strict) s
  simp only [lenient, hperform, perform_bind]
  by_cases hdirectory : s.files.isDirectory r.directory = true
  · simp only [if_pos hdirectory]
    rcases hread : perform (readBy launch r) s with ⟨e | reading, s'⟩
    · rw [hread] at hkeeps
      exact ⟨rfl, fun count h => hkeeps count (Except.error.inj h), nofun, fun _ => rfl⟩
    · rw [hread] at hkeeps
      have hfailures : reading.failures = unreadable := hkeeps
      have htext : (perform (present (r.strictly false) reading) s').1 =
          .ok (render reading.record r.format) := perform_present ..
      refine ⟨?_, fun count => ?_, fun text h => ⟨reading, rfl, hfailures, ?_⟩, fun _ => rfl⟩
      · rw [← hfailures]
        exact perform_present_strictly r reading s'
      · rw [htext]
        exact nofun
      · exact Except.ok.inj (h.symm.trans htext)
  · simp only [if_neg hdirectory]
    exact ⟨rfl, nofun, nofun, fun _ => rfl⟩

end Descriptor.Cli
