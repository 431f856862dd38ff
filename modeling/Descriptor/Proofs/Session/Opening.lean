import Descriptor.Proofs.Files.Storage
import Descriptor.Proofs.Session.Action
import Descriptor.Proofs.Session.Entries

/-!
# Logs that are started

A log is started where its directory is there or can be made and no log of an earlier run is in the
way. The verbosity has no part in that. What is there of an earlier log is gone then, so a log that
can be written to starts with nothing in it.

## Main definitions

* `CanStart` : a log can be started in a directory and be written to.

## Main results

* `not_pathExists_of_clear` : where a log can start anew there is none.
* `CanStart.exists_opened` : the session with the log that was started.
* `canStart_of_free` : a place where a log can be started.
-/

namespace Descriptor.Log

open Files (FileTree IsEntryName joinPath)
open Session (perform perform_bind perform_get perform_set)

variable {s : Session} {files ready : FileTree} {directory : String}

theorem isEntryName_log : IsEntryName "pkgmeta.log" where
  ne_empty := by decide
  ne_dot := by decide
  ne_dots := by decide
  plain := by decide

/-- Where a log can start anew there is none. -/
theorem not_pathExists_of_clear (h : clear files directory = .ok ready) :
    ready.pathExists (fileIn directory) = false := by
  unfold clear at h
  cases hmake : files.makeDirectories directory with
  | error fault => simp [hmake, Except.mapError, Bind.bind, Except.bind] at h
  | ok made =>
    simp only [hmake, Except.mapError, Bind.bind, Except.bind] at h
    split at h
    · cases hremove : made.removeFile (fileIn directory) with
      | error fault => simp [hremove] at h
      | ok removed =>
        obtain rfl : removed = ready := by simpa [hremove] using h
        exact FileTree.not_pathExists_removeFile isEntryName_log hremove
    · next hfree =>
      obtain rfl := Except.ok.inj h
      simpa using hfree

/-- A log can be started in a directory, and be written to: an empty file can be put there, and is
found there then. -/
def CanStart (files : FileTree) (directory : String) : Prop :=
  ∃ ready made, clear files directory = .ok ready ∧
    ready.extend (fileIn directory) [] = .ok made ∧ made.isFile (fileIn directory) = true

/-- A session with a log that was started. -/
def opened (s : Session) (ready : FileTree) (directory : String) (verbosity : Nat) (quiet : Bool) :
    Session :=
  { s with files := ready, logger := ⟨verbosity, quiet, some (fileIn directory)⟩ }

theorem perform_openIn (h : clear s.files directory = .ok ready) (verbosity : Nat) (quiet : Bool) :
    perform (openIn directory verbosity quiet) s =
      (.ok (), opened s ready directory verbosity quiet) := by
  rw [openIn, perform_bind, perform_get]
  simp only [h]
  rfl

/-- A log that is started has nothing in it. -/
theorem CanStart.exists_opened (h : CanStart s.files directory) :
    ∃ ready, clear s.files directory = .ok ready ∧ ∀ verbosity quiet,
      perform (openIn directory verbosity quiet) s =
        (.ok (), opened s ready directory verbosity quiet) ∧
      Starts (opened s ready directory verbosity quiet) (fileIn directory) "" := by
  obtain ⟨ready, made, hclear, hextend, hfile⟩ := h
  refine ⟨ready, hclear, fun verbosity quiet => ⟨perform_openIn hclear verbosity quiet, ?_⟩⟩
  exact ⟨made, hextend, rfl,
    FileTree.read_extend_of_not_pathExists (not_pathExists_of_clear hclear) hextend hfile⟩

/-- Where nothing has the name of a log, one can start anew as it is. -/
theorem clear_of_free (h : files.item? (files.workingDirectory ++ ["pkgmeta.log"]) = none) :
    clear files "" = .ok files := by
  have hfileIn : fileIn "" = "pkgmeta.log" := rfl
  have hmake : files.makeDirectories "" = .ok files := rfl
  have hfree : files.pathExists (fileIn "") = false := by
    rw [FileTree.pathExists, hfileIn, FileTree.itemAt?_name isEntryName_log (by simp [h]), h]
    rfl
  rw [clear, hmake]
  simp [hfree, Except.mapError, Bind.bind, Except.bind]

/-- What is put where nothing has the name of a log is found there. -/
theorem isFile_extend_of_free (h : files.item? (files.workingDirectory ++ ["pkgmeta.log"]) = none) :
    ∃ made, files.extend (fileIn "") [] = .ok made ∧ made.isFile (fileIn "") = true :=
  ⟨_, FileTree.extend_name isEntryName_log h [], FileTree.isFile_of_read
    (FileTree.read_name isEntryName_log (FileTree.item?_put_self (by simp) (.file [] false)))⟩

/-- A log can be started where relative paths start from, if nothing has its name there. -/
theorem canStart_of_free (h : files.item? (files.workingDirectory ++ ["pkgmeta.log"]) = none) :
    CanStart files "" := by
  obtain ⟨made, hextend, hmade⟩ := isFile_extend_of_free h
  exact ⟨files, made, clear_of_free h, hextend, hmade⟩

section Entry

variable {item : Files.Item}
  (h : files.item? (files.workingDirectory ++ ["pkgmeta.log"]) = some item)

include h

/-- What has the name of a log where relative paths start from has to be removed first. -/
theorem clear_of_regular (hregular : item.isRegular = true) :
    clear files "" = (files.removeFile (fileIn "")).mapError (.cannotTruncate (fileIn "")) := by
  have hthere : files.pathExists (fileIn "") = true := by
    refine FileTree.pathExists_of_isFile (FileTree.isFile_iff.mpr ⟨_, item, ?_, h, hregular⟩)
    refine FileTree.locate_name isEntryName_log fun target hlink => ?_
    obtain rfl := Option.some.inj (h.symm.trans hlink)
    cases hregular
  rw [clear, show files.makeDirectories "" = .ok files from rfl]
  exact if_pos hthere

theorem removeFile_log :
    files.removeFile (fileIn "") =
      match item with
      | .directory => .error .isADirectory
      | .locked => .error .notPermitted
      | _ => .ok (files.prune (files.workingDirectory ++ ["pkgmeta.log"])) := by
  have hlocate : files.locateFrom false (fileIn "") =
      .ok (files.workingDirectory ++ ["pkgmeta.log"]) := by
    rw [show fileIn "" = "pkgmeta.log" from rfl, FileTree.locateFrom_of_ne_empty (by decide),
      FileTree.start, isEntryName_log.isAbsolute, if_neg Bool.false_ne_true,
      Files.components_of_not_mem isEntryName_log.plain,
      FileTree.walk_single isEntryName_log.toIsName]
  rw [FileTree.removeFile, hlocate]
  cases item <;> simp [Bind.bind, Except.bind, h]

end Entry

/-- A log can be started where relative paths start from, in place of one that is there. -/
theorem canStart_of_file {bytes : List UInt8} {executable : Bool}
    (h : files.item? (files.workingDirectory ++ ["pkgmeta.log"]) = some (.file bytes executable)) :
    CanStart files "" := by
  have hclear : clear files "" = .ok (files.prune (files.workingDirectory ++ ["pkgmeta.log"])) := by
    rw [clear_of_regular h rfl, removeFile_log h]
    rfl
  have hgone : (files.prune (files.workingDirectory ++ ["pkgmeta.log"])).item?
      (files.workingDirectory ++ ["pkgmeta.log"]) = none :=
    (FileTree.item?_prune (by simp) _).trans (if_pos List.prefix_rfl)
  obtain ⟨made, hextend, hmade⟩ := isFile_extend_of_free (by exact hgone)
  exact ⟨_, made, hclear, hextend, hmade⟩

/-- No log can be started in place of one of another user. -/
theorem clear_of_locked
    (h : files.item? (files.workingDirectory ++ ["pkgmeta.log"]) = some .locked) :
    clear files "" = .error (.cannotTruncate "pkgmeta.log" .notPermitted) := by
  rw [clear_of_regular h rfl, removeFile_log h]
  rfl

end Descriptor.Log
