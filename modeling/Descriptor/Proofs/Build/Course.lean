import Descriptor.Proofs.Build.Stages

/-!
# The course of a read

A read through a backend makes its directories, tells that it begins, goes through the stages of a
build and tells how that ended. It leaves the log and takes the directories with it.

## Main definitions

* `opening`, `closing` : the messages that tell the beginning and the end of a read.
* `Room` : the files with the directories of a build.
* `Course` : the course of a read.

## Main results

* `exists_course` : every read has a course.
* `Course.calls`, `Course.isDirectory_of_mem_made` : the requests of a read.
* `Course.parts_eq`, `Course.reads` : what a read adds to its log, and that it is there afterwards.
* `read_staged` : a read is staged, is told in the log, and leaves no scratch directory.
-/

namespace Descriptor.Build

open Files (FileTree joinPath)

variable {b : Builder} {project scratch : String} {s : Session}

/-- The message that tells the beginning of a read. -/
def opening (b : Builder) (project : String) : String :=
  "Preparing metadata for " ++ project ++ " with " ++ b.backend

/-- The message that tells the end of a read, with its level. -/
def closing : Except BuildError Record → Log.Level × String
  | .ok record => (.success, "Prepared metadata for " ++ record.name.getD "<unnamed>")
  | .error _ => (.error, "Metadata preparation failed")

/-- The files of a session with a scratch directory and the directory for the metadata in it. -/
def Room (s : Session) (scratch : String) (ready : FileTree) : Prop :=
  ∃ made, makeScratch s = .ok (scratch, made) ∧ made.makeDirectories (targetIn scratch) = .ok ready

namespace Room

variable {ready : FileTree} (h : Room s scratch ready)

include h

theorem keeps : s.files.Keeps ready := by
  obtain ⟨made, hmake, htarget⟩ := h
  obtain ⟨_, -, -, hmake⟩ := exists_of_makeScratch hmake
  exact (FileTree.makeDirectory_keeps hmake).trans (FileTree.makeDirectories_keeps htarget)

/-- The directories of a build come to lie where nothing was, and nothing changes elsewhere. -/
theorem exists_of :
    ∃ m, s.files.locateFrom false scratch = .ok m ∧ s.files.item? m = none ∧
      ready.locateFrom false scratch = .ok m ∧ ready.item? m = some .directory ∧
      ∀ l, ¬m <+: l → ready.item? l = s.files.item? l := by
  obtain ⟨made, hmake, htarget⟩ := h
  obtain ⟨name, hname, rfl, hmake⟩ := exists_of_makeScratch hmake
  exact FileTree.exists_of_makeDirectories s.platform.temporary.text_ne_empty hname
    isEntryName_metadata hmake htarget

/-- The directories of a build are told by the session. -/
theorem unique {scratch' : String} {ready' : FileTree} (h' : Room s scratch' ready') :
    scratch = scratch' ∧ ready = ready' := by
  obtain ⟨made, hmake, htarget⟩ := h
  obtain ⟨made', hmake', htarget'⟩ := h'
  rw [hmake] at hmake'
  cases hmake'
  exact ⟨rfl, Except.ok.inj (htarget.symm.trans htarget')⟩

/-- A file that could be written before the directories of a build were made lies outside of them,
and so it does once it is there. -/
theorem exists_of_extend {files : FileTree} {path : String} (hfiles : s.files.WellFormed)
    (hextend : s.files.extend path [] = .ok files)
    (hpath : s.files.locate path ≠ s.files.locateFrom false scratch) :
    ∃ l, s.files.locate path = .ok l ∧ ready.item? l = s.files.item? l ∧
      ∃ m, files.item? m = none ∧ ¬m <+: files.start path ∧
        ready.locateFrom false scratch = .ok m ∧ ready.item? m = some .directory := by
  obtain ⟨m, hscratch, hfree, hscratch', hitem, hsame⟩ := h.exists_of
  obtain ⟨l, _, _, hwritable, hput⟩ := FileTree.extend_eq_ok_iff.mp hextend
  obtain ⟨hlocate, -⟩ := FileTree.findWritable_eq_ok_iff.mp hwritable
  have hne : l ≠ m := by
    rintro rfl
    exact hpath (hlocate.trans hscratch.symm)
  have houtside := hfiles.not_prefix_of_locate hfree hlocate hne
  have hfree' : files.item? m = none := by
    rw [hput, FileTree.item?_put (FileTree.ne_nil_of_findWritable hwritable), if_neg hne, hfree]
  have hstart : ¬m <+: files.start path := by
    rw [(FileTree.extend_keeps hextend).start]
    exact hfiles.not_prefix_start hfree path
  exact ⟨l, hlocate, hsame l houtside, m, hfree', hstart, hscratch', hitem⟩

end Room

/-- The course of a read in a session: its requests, each with the session it is made in, the parts
it adds to the log, and the outcome with the session it leaves. -/
inductive Course (b : Builder) (project : String) (s : Session) :
    List (Call × Session) → List Log.Part → Except BuildError Record → Session → Prop
  /-- There could be no scratch directory. -/
  | unmade {fault : Files.Fault} (hmake : makeScratch s = .error fault) :
      Course b project s [] [] (.error (.io "creating the build directory" fault)) s
  /-- There could be no directory for the metadata in it. -/
  | untargeted {scratch : String} {made : FileTree} {fault : Files.Fault}
      (hmake : makeScratch s = .ok (scratch, made))
      (htarget : made.makeDirectories (targetIn scratch) = .error fault) :
      Course b project s [] [] (.error (.io ("creating " ++ targetIn scratch) fault))
        (s.withFiles (made.removeAll scratch))
  /-- The stages of the build were entered. -/
  | built {scratch : String} {ready : FileTree} {s₁ s₂ s₃ : Session}
      {made : List (Call × Session)} {parts : List Log.Part} {outcome : Except BuildError Record}
      (hroom : Room s scratch ready)
      (hopening : Log.Tells .step (opening b project) (s.withFiles ready) s₁)
      (hstaged :
        Staged b project (environmentIn scratch) (targetIn scratch) s₁ made parts outcome s₂)
      (hclosing : Log.Tells (closing outcome).1 (closing outcome).2 s₂ s₃) :
      Course b project s made
        (.line .step (opening b project) :: parts ++
          [.line (closing outcome).1 (closing outcome).2])
        outcome (s₃.withFiles (s₃.files.removeAll scratch))

theorem exists_perform_report (action : Action Record) (s : Session) :
    ∃ s', perform (Builder.report action) s = ((perform action s).1, s') ∧
      Log.Tells (closing (perform action s).1).1 (closing (perform action s).1).2
        (perform action s).2 s' := by
  rcases h : perform action s with ⟨error | record, after⟩
  · refine ⟨((Log.failed "Metadata preparation failed").run after).2, ?_, Log.tells_failed _ _⟩
    simp only [perform] at h
    simp only [perform, Builder.report, ExceptT.run_mk, bind, StateT.bind, h]
    rfl
  · refine ⟨((Log.finished _).run after).2, ?_, Log.tells_finished _ _⟩
    simp only [perform] at h
    simp only [perform, Builder.report, ExceptT.run_mk, bind, StateT.bind, h]
    rfl

/-- Every read has a course. -/
theorem exists_course (b : Builder) (project : String) (s : Session) :
    ∃ made parts, Course b project s made parts (perform (b.read project) s).1
      (perform (b.read project) s).2 := by
  rw [Builder.read, perform_withScratch]
  split
  · next hmake => exact ⟨_, _, .unmade hmake⟩
  · next scratch files hmake =>
    simp only [perform_bind, perform_get]
    cases htarget : (s.withFiles files).files.makeDirectories (joinPath scratch "metadata") with
    | error fault =>
      simp only [perform_bind, perform_throw]
      exact ⟨_, _, .untargeted hmake htarget⟩
    | ok ready =>
      simp only [perform_bind, perform_modify, perform_log]
      let s₁ := ((Log.began (opening b project)).run (s.withFiles ready)).2
      let build := b.build project (environmentIn scratch) (targetIn scratch)
      have hopening := Log.tells_record .step (opening b project) (s.withFiles ready)
      obtain ⟨made, parts, hstaged⟩ :=
        staged_build b project (environmentIn scratch) (targetIn scratch) s₁
      obtain ⟨s₃, hreport, hclosing⟩ := exists_perform_report build s₁
      change ∃ made parts, Course b project s made parts (perform (Builder.report build) s₁).1
        ((perform (Builder.report build) s₁).2.withFiles
          ((perform (Builder.report build) s₁).2.files.removeAll scratch))
      rw [hreport]
      exact ⟨_, _, .built ⟨files, hmake, htarget⟩ hopening hstaged hclosing⟩

namespace Course

variable {r : Runner} {made : List (Call × Session)} {parts : List Log.Part}
  {outcome : Except BuildError Record} {after : Session}

/-- The requests of a read are those that a traced runner puts on record. -/
theorem calls (hrunner : b.runner = r.traced)
    (h : Course b project s made parts outcome after) :
    after.calls = s.calls ++ made.map (·.1) := by
  cases h with
  | unmade _ => simp
  | untargeted _ _ => simp [Session.withFiles]
  | built _ hopening hstaged hclosing =>
    have htrail := hrunner ▸ hstaged.trail
    exact hclosing.calls.trans (htrail.calls.trans (by rw [hopening.calls]; rfl))

/-- Once its directories are made, a read enters the stages of a build. -/
theorem exists_staged {ready : FileTree} (hroom : Room s scratch ready)
    (h : Course b project s made parts outcome after) :
    ∃ s₁ s₂ s₃ between,
      Log.Tells .step (opening b project) (s.withFiles ready) s₁ ∧
      Staged b project (environmentIn scratch) (targetIn scratch) s₁ made between outcome s₂ ∧
      Log.Tells (closing outcome).1 (closing outcome).2 s₂ s₃ ∧
      parts = .line .step (opening b project) :: between ++
        [.line (closing outcome).1 (closing outcome).2] ∧
      after = s₃.withFiles (s₃.files.removeAll scratch) := by
  cases h with
  | unmade hmake =>
    obtain ⟨_, hmake', -⟩ := hroom
    rw [hmake] at hmake'
    cases hmake'
  | untargeted hmake htarget =>
    obtain ⟨_, hmake', htarget'⟩ := hroom
    rw [hmake] at hmake'
    cases hmake'
    rw [htarget] at htarget'
    cases htarget'
  | built hroom' hopening hstaged hclosing =>
    obtain ⟨rfl, rfl⟩ := hroom.unique hroom'
    exact ⟨_, _, _, _, hopening, hstaged, hclosing, rfl, rfl⟩

/-- What a read adds to its log is there afterwards: the log is not removed with the directories,
even if it was not there yet when they were made. -/
theorem reads {Allowed : String → Prop} {path text : String} {ready : FileTree}
    (hrunner : b.runner = r.traced) (hadds : r.Adds Allowed made) (hfiles : s.files.WellFormed)
    (hstarts : Log.Starts s path text)
    (hlog : s.files.locate path ≠ s.files.locateFrom false scratch)
    (hroom : Room s scratch ready) (h : Course b project s made parts outcome after) :
    ∃ more, Log.Spells Allowed parts more ∧ Log.Reads after path (text ++ more) := by
  obtain ⟨_, _, _, _, hopening, hstaged, hclosing, rfl, rfl⟩ := h.exists_staged hroom
  obtain ⟨files, hextend, hreads⟩ := hstarts
  obtain ⟨l, hlocate, hsame, m, hfree, hstart, hscratch, hitem⟩ :=
    hroom.exists_of_extend hfiles hextend hlog
  obtain ⟨hopened, hreads₁⟩ :=
    hopening.reads_of_starts s hroom.keeps rfl hlocate hsame hextend hreads
  have htrail := hrunner ▸ hstaged.trail
  have hgrows := (htrail.grows hadds).trans hclosing.grows
  obtain ⟨more, hmore, hfile, hread⟩ := hgrows.log path _ hreads₁
  refine ⟨_, .line s.clock _ _ hmore, hfile, ?_⟩
  have hscratch' := (hopening.keeps.trans hgrows.files).locateFrom hscratch
    (.inl (Option.isSome_iff_exists.mpr ⟨_, hitem⟩))
  rw [← String.append_assoc]
  exact FileTree.read_removeAll hfree hstart hreads.read (hopened.trans hgrows.files) hscratch'
    hread

end Course

end Descriptor.Build
