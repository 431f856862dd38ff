import Descriptor.Proofs.Session.Log
import Descriptor.Proofs.Settings.File

/-!
# A place where settings are kept

Where a file can be made in place of nothing or written anew, settings can be saved, and they stay
there whatever is told in the log, which is another file.

## Main definitions

* `Storable` : a session can keep settings at a path.
* `Stored` : a session has settings at a path.

## Main results

* `Storable.saveTo` : settings can be saved where they can be kept, and are there then.
* `Stored.storable` : where settings are, others can be kept in their place.
* `Stored.of_tells` : settings stay when something is told in the log.
* `Stored.load_eq` : settings are loaded from where they are.
-/

namespace Descriptor

open Files (FileTree)

/-- The log of a session, if it has one, is another file than that at a path. -/
def Logger.Avoids (logger : Logger) (files : FileTree) (path : String) : Prop :=
  ∀ log, logger.file = some log → files.locate log ≠ files.locate path

namespace Settings

variable {s s' : Session} {settings : Settings} {files files' : FileTree} {path : String}

/-- A session can keep settings at a path: the directory of the file is there or can be made, an
empty file can be put there and is found there then, and the log is another file. -/
def Storable (s : Session) (path : String) : Prop :=
  ∃ ready made, makeParent s.files path = .ok ready ∧ ready.write path [] = .ok made ∧
    made.isFile path = true ∧ s.logger.Avoids made path

/-- The directory of a file is there, unless it is where relative paths start. -/
def HasParent (files : FileTree) (path : String) : Prop :=
  ∀ parent, Files.parentPath? path = some parent → parent = "" ∨ files.isDirectory parent = true

/-- A session has settings at a path. -/
structure Stored (s : Session) (path : String) (settings : Settings) : Prop where
  parent : HasParent s.files path
  read : s.files.read path = .ok (Text.encodeUtf8 settings.write.toList)
  log : s.logger.Avoids s.files path

/-! ### Directories -/

theorem HasParent.keeps (h : HasParent files path) (hkeeps : files.Keeps files') :
    HasParent files' path :=
  fun parent hparent => (h parent hparent).imp_right hkeeps.isDirectory

theorem hasParent_of_makeParent (h : makeParent files path = .ok files') :
    HasParent files' path := by
  intro parent hparent
  rw [makeParent, hparent] at h
  by_cases hempty : parent = ""
  · exact .inl hempty
  · exact .inr (FileTree.isDirectory_of_makeDirectories hempty h)

/-- A directory that is there is not made again. -/
theorem HasParent.makeParent (h : HasParent files path) :
    Settings.makeParent files path = .ok files := by
  rw [Settings.makeParent]
  split
  · next parent hparent =>
    obtain rfl | hdirectory := h parent hparent
    · rfl
    · exact FileTree.makeDirectories_of_isDirectory hdirectory
  · rfl

/-! ### Saving -/

/-- Settings can be saved where they can be kept, and are there then. -/
theorem Storable.saveTo (h : Storable s path) (settings : Settings) :
    ∃ files, settings.saveTo s.files path = (.ok (), files) ∧
      Stored (s.withFiles files) path settings := by
  obtain ⟨ready, made, hparent, hmade, hfile, hlog⟩ := h
  obtain ⟨files, hwrite, hread, hshape⟩ :=
    FileTree.exists_write_of_write hmade hfile (Text.encodeUtf8 settings.write.toList)
  obtain ⟨l, _, hlocate, -⟩ := FileTree.isFile_iff.mp hfile
  exact ⟨files, saveTo_eq_ok_iff.mpr ⟨ready, hparent, hwrite⟩,
    { parent := (hasParent_of_makeParent hparent).keeps (FileTree.write_keeps hwrite)
      read := hread
      log := fun log hlogger => hshape.locate_ne hlocate (hlog log hlogger) }⟩

/-- Where settings are, others can be kept in their place. -/
theorem Stored.storable (h : Stored s path settings) : Storable s path := by
  obtain ⟨made, hwrite, hread, hshape⟩ := FileTree.exists_write_of_read h.read []
  obtain ⟨l, _, hlocate, -⟩ := FileTree.read_eq_ok_iff.mp h.read
  exact ⟨s.files, made, h.parent.makeParent, hwrite, FileTree.isFile_of_read hread,
    fun log hlogger => hshape.locate_ne hlocate (h.log log hlogger)⟩

/-- Settings stay when something is told in the log. -/
theorem Stored.of_tells {level : Log.Level} {message : String} (h : Stored s path settings)
    (htells : Log.Tells level message s s') : Stored s' path settings := by
  have hparent := h.parent.keeps htells.keeps
  obtain hfiles | ⟨log, more, hlogger, hextend⟩ := htells.files_eq_or
  · exact ⟨hparent, hfiles ▸ h.read, htells.logger ▸ hfiles ▸ h.log⟩
  · have hne := h.log log hlogger
    refine ⟨hparent, FileTree.read_extend_of_ne h.read hne hextend, fun log' hlogger' => ?_⟩
    obtain rfl : log = log' := Option.some.inj (hlogger.symm.trans (htells.logger ▸ hlogger'))
    exact FileTree.locate_extend_ne h.read hne hextend

/-! ### The settings of a session -/

/-- The place of the settings is a matter of the environment and of the platform. -/
theorem path_eq_of_environment_eq (henvironment : s'.environment = s.environment)
    (hplatform : s'.platform = s.platform) : Settings.path s' = Settings.path s := by
  simp only [Settings.path, Session.ownDirectory?, Session.valueOf?, henvironment, hplatform]

/-- Settings are loaded from where they are. -/
theorem Stored.load_eq (h : Stored s path settings) (hpath : Settings.path s = .ok path) :
    load s = .ok settings := by
  rw [load, hpath]
  exact loadFrom_of_read h.read

theorem Storable.save (h : Storable s path) (hpath : Settings.path s = .ok path)
    (settings : Settings) :
    ∃ files, settings.save s = (.ok path, files) ∧ Stored (s.withFiles files) path settings := by
  obtain ⟨files, hsave, hstored⟩ := h.saveTo settings
  refine ⟨files, ?_, hstored⟩
  rw [Settings.save, hpath]
  simp only [hsave, Except.map]

end Settings

end Descriptor
