import Descriptor.Proofs.Build.Course
import Descriptor.Proofs.CoreMetadata.Directory

/-!
# Reads and the order of listings

What a read through a backend gives does not depend on the order in which the directories that the
hook leaves list their entries. A second runner does what the first one does, but the directories
that its hooks leave may list their entries in any other order: every read has the same outcome.

## Main definitions

* `Runner.Relists` : runners whose hooks leave the same files, listed in some order each.

## Main results

* `perform_build_of_relists`, `perform_read_of_relists` : builds and reads have the same outcome.
* `findDirectory_anyOrder` : which directory is found in any order, and what is read from it.
-/

namespace Descriptor.Build

open CoreMetadata (IsCandidate findDirectory)
open Files (FileTree joinPath)
open Text (encodeUtf8)

/-- Runners with the same environments, whose hooks end in the same way and leave the same session,
with directories that list their entries in some order each. -/
structure Runner.Relists (r r' : Runner) : Prop where
  provision : r'.provision = r.provision
  prepare (python backend project target : String) (s : Session) :
    ∃ outcome after files',
      perform (r.prepare python backend project target) s = (outcome, after) ∧
      perform (r'.prepare python backend project target) s = (outcome, after.withFiles files') ∧
      after.files.Relisted files'

variable {r r' : Runner} {s : Session} {files files' : FileTree}

/-- A step is told in the same files, whatever the order of their listings. -/
theorem relisted_step (h : s.files.Relisted files') (message : String) :
    ((Log.step message).run s).2.files.Relisted
      ((Log.step message).run (s.withFiles files')).2.files := by
  have htold {s : Session} :
      ((Log.step message).run s).2.files = (Log.told .step message s).files := by
    obtain ⟨console, hstep⟩ := Log.tells_step message s
    rw [hstep]
  rw [htold, htold, Log.told_eq, Log.told_eq]
  simp only [Session.withFiles]
  cases s.logger.file with
  | none => exact h
  | some path =>
    obtain ⟨fault, hextend, hextend'⟩ | ⟨files, files', hextend, hextend', hfiles⟩ := h.extend path
      (encodeUtf8 (Log.lineOf s.clock .step message).toList)
    · simpa only [hextend, hextend'] using h
    · simpa only [hextend, hextend'] using hfiles

/-- A build has the same outcome in any order of the listings. -/
theorem perform_build_of_relists (h : r.Relists r') (backend : String) (requires : List String)
    (project environment target : String) (s : Session) :
    (perform (Builder.build ⟨r', backend, requires⟩ project environment target) s).1 =
      (perform (Builder.build ⟨r, backend, requires⟩ project environment target) s).1 := by
  simp only [Builder.build, perform_bind, perform_log, perform_get, perform_except, h.provision]
  rcases perform (r.provision environment requires) s with ⟨error | python, s₁⟩
  · rfl
  dsimp only
  obtain ⟨outcome, after, files', hprepare, hprepare', hfiles⟩ := h.prepare python backend project
    target ((Log.step ("Build environment ready: " ++ python)).run s₁).2
  rw [hprepare, hprepare']
  cases outcome with
  | error error => rfl
  | ok _ =>
    have hfind : findDirectory (after.withFiles files').files target =
        findDirectory after.files target :=
      CoreMetadata.findDirectory_of_relisted hfiles target
    dsimp only
    rw [hfind]
    cases findDirectory after.files target with
    | error error => rfl
    | ok directory =>
      exact CoreMetadata.readDirectory_of_relisted
        (relisted_step hfiles ("Reading " ++ directory)) directory

theorem perform_report_congr {action action' : Action Record}
    (h : (perform action' s).1 = (perform action s).1) :
    (perform (Builder.report action') s).1 = (perform (Builder.report action) s).1 := by
  obtain ⟨_, hreport, -⟩ := exists_perform_report action s
  obtain ⟨_, hreport', -⟩ := exists_perform_report action' s
  rw [hreport, hreport', h]

/-- A read has the same outcome in any order of the listings. -/
theorem perform_read_of_relists (h : r.Relists r') (backend : String) (requires : List String)
    (project : String) (s : Session) :
    (perform (Builder.read ⟨r', backend, requires⟩ project) s).1 =
      (perform (Builder.read ⟨r, backend, requires⟩ project) s).1 := by
  simp only [Builder.read, perform_withScratch]
  rcases makeScratch s with fault | ⟨scratch, files⟩
  · rfl
  · simp only [perform_bind, perform_get]
    cases (s.withFiles files).files.makeDirectories (joinPath scratch "metadata") with
    | error fault => rfl
    | ok ready =>
      exact perform_report_congr (perform_build_of_relists h ..)

/-- **The metadata directory does not depend on the order of a listing.** Two trees that differ in
the order in which their directories list entries give the same answer: it is the metadata directory
whose name comes first in the order of bytes, and that there is none if and only if there is none,
where the directory can be listed at all. Thus every read through a backend has the same outcome,
in whatever order the directories that the hook left list their entries. -/
theorem findDirectory_anyOrder (h : files.Relisted files') (directory : String) :
    findDirectory files' directory = findDirectory files directory ∧
    (∀ path, findDirectory files directory = .ok path ↔
      ∃ name, IsCandidate files directory name ∧
        (∀ other, IsCandidate files directory other →
          encodeUtf8 name.toList ≤ encodeUtf8 other.toList) ∧
        path = joinPath directory name) ∧
    (findDirectory files directory = .error (.missingDistInfo directory) ↔
      (∃ names, files.list directory = .ok names) ∧ ∀ name, ¬IsCandidate files directory name) ∧
    (∀ fault, findDirectory files directory = .error (.io ("reading " ++ directory) fault) ↔
      files.list directory = .error fault) ∧
    ∀ (r r' : Runner), r.Relists r' → ∀ backend requires project s,
      (perform (Builder.read ⟨r', backend, requires⟩ project) s).1 =
        (perform (Builder.read ⟨r, backend, requires⟩ project) s).1 :=
  ⟨CoreMetadata.findDirectory_of_relisted h directory,
    fun _ => CoreMetadata.findDirectory_eq_ok_iff, CoreMetadata.findDirectory_eq_missing_iff,
    fun _ => CoreMetadata.findDirectory_eq_io_iff,
    fun _ _ hrunner => perform_read_of_relists hrunner⟩

/-- What a hook left: two metadata directories, and a file with the name of one. -/
def leftByHook : FileTree where
  entries :=
    [(["out"], .directory), (["out", "z.dist-info"], .directory),
      (["out", "a.dist-info"], .file [] false), (["out", "b.dist-info"], .directory)]
  workingDirectory := ["out"]

/-- The same files, which come the other way round. -/
def leftInReverse : FileTree := { leftByHook with entries := leftByHook.entries.reverse }

/-- A runner whose hook leaves given files, whatever it is asked for. -/
def runnerThatLeaves (files : FileTree) : Runner where
  provision _ _ := pure "python"
  prepare _ _ _ _ := modify (·.withFiles files)

theorem relisted_leftInReverse : leftByHook.Relisted leftInReverse :=
  FileTree.relisted_of_perm (List.reverse_perm _) (by decide) rfl

theorem findDirectory_leftByHook : findDirectory leftByHook "." = .ok "./b.dist-info" := by
  have hlist : leftByHook.list "." = .ok ["z.dist-info", "a.dist-info", "b.dist-info"] := by
    refine FileTree.list_eq_ok_iff.mpr ⟨["out"], ?_, rfl⟩
    rw [FileTree.find, FileTree.locate, FileTree.locateFrom_of_ne_empty (by decide),
      show Files.components "." = ["."] by decide, FileTree.walk_blank (.inr rfl), FileTree.walk]
    rfl
  have hdirectory (name : String) (hname : Files.IsEntryName name)
      (hlink : ∀ target, leftByHook.item? ["out", name] ≠ some (.link target)) :
      leftByHook.isDirectory (joinPath "." name) =
        decide (leftByHook.item? ["out", name] = some .directory) := by
    rw [FileTree.isDirectory, FileTree.itemAt?_joinPath_dot hname,
      FileTree.itemAt?_name hname hlink]
    rfl
  have hz := hdirectory "z.dist-info" ⟨⟨by decide, by decide, by decide⟩, by decide⟩
    (by rintro _ ⟨⟩)
  have ha := hdirectory "a.dist-info" ⟨⟨by decide, by decide, by decide⟩, by decide⟩
    (by rintro _ ⟨⟩)
  have hb := hdirectory "b.dist-info" ⟨⟨by decide, by decide, by decide⟩, by decide⟩
    (by rintro _ ⟨⟩)
  rw [CoreMetadata.findDirectory_of_list_ok hlist]
  simp only [List.filter_cons, List.filter_nil, hz, ha, hb]
  decide

/-- Listed in either order, the same directory is found and the same record read. -/
theorem findDirectory_leftInReverse :
    leftByHook.Relisted leftInReverse ∧ leftInReverse.entries ≠ leftByHook.entries ∧
    findDirectory leftInReverse "." = .ok "./b.dist-info" ∧
    (perform (Builder.read ⟨runnerThatLeaves leftInReverse, "hook", []⟩ "p") default).1 =
      (perform (Builder.read ⟨runnerThatLeaves leftByHook, "hook", []⟩ "p") default).1 := by
  obtain ⟨hfind, -, -, -, hread⟩ := findDirectory_anyOrder relisted_leftInReverse "."
  have hrunner : (runnerThatLeaves leftByHook).Relists (runnerThatLeaves leftInReverse) :=
    ⟨rfl, fun _ _ _ _ _ => ⟨_, _, _, rfl, rfl, relisted_leftInReverse⟩⟩
  exact ⟨relisted_leftInReverse, by decide, hfind.trans findDirectory_leftByHook,
    hread _ _ hrunner _ _ _ _⟩

end Descriptor.Build
