import Descriptor.Proofs.Files.Change
import Descriptor.Session.Log

/-!
# What a log comes to hold

A message adds a line to the log and leaves all other files as they are. What a run adds to its log
is told by parts: the lines of its own messages, in order, and between them whatever else was added
by what it called.

## Main definitions

* `Log.Reads`, `Log.Starts` : the log of a session holds a text, once it is there.
* `Log.Tells` : two sessions, with a message in between.
* `Log.Part`, `Log.Spells` : the parts of what is added to a log, and the texts that they spell.
* `Log.Grows` : two sessions between which nothing goes and the log gets what parts spell.

## Main results

* `Log.Tells.grows` : a message adds its line.
* `Log.Grows.trans` : parts are added one after the other.
-/

namespace Descriptor.Log

open Files (FileTree)

variable {s s' s'' : Session} {level : Level} {message path text : String}

/-! ### Logs that are there, and logs that start -/

theorem encodeUtf8_append (cs ds : List Char) :
    Text.encodeUtf8 (cs ++ ds) = Text.encodeUtf8 cs ++ Text.encodeUtf8 ds :=
  List.flatMap_append

/-- The log of a session is there, at a path, and holds a text. -/
structure Reads (s : Session) (path text : String) : Prop where
  file : s.logger.file = some path
  read : s.files.read path = .ok (Text.encodeUtf8 text.toList)

/-- The log of a session, once it is there, holds a text. A log that is not there yet is made by the
first message. -/
def Starts (s : Session) (path text : String) : Prop :=
  ∃ files, s.files.extend path [] = .ok files ∧ Reads (s.withFiles files) path text

/-- The session after a line was added to the log. -/
def told (level : Level) (message : String) (s : Session) : Session :=
  ((record level message).run s).2

theorem told_eq (level : Level) (message : String) (s : Session) :
    told level message s =
      match s.logger.file with
      | none => s
      | some path =>
        match s.files.extend path (Text.encodeUtf8 (lineOf s.clock level message).toList) with
        | .ok files => s.withFiles files
        | .error _ => s := rfl

/-- A line of the log changes the files at most. -/
theorem withFiles_told (level : Level) (message : String) (s : Session) :
    s.withFiles (told level message s).files = told level message s := by
  rw [told_eq]
  split
  · rfl
  · split <;> rfl

/-! ### Messages -/

/-- Two sessions, the later one with a message in the log, whatever stands on its error stream. -/
def Tells (level : Level) (message : String) (s s' : Session) : Prop :=
  ∃ console, s' = { told level message s with console := console }

theorem tells_record (level : Level) (message : String) (s : Session) :
    Tells level message s ((record level message).run s).2 :=
  ⟨_, rfl⟩

/-- A message that is shown under a condition. -/
theorem tells_of_shown (level : Level) (message : String) (s : Session) (shown : Prop)
    [Decidable shown] (style : Style) (mark : String) :
    Tells level message s
      ((if shown then printMarked style mark message else pure () : Action Unit).run
        (told level message s)).2 := by
  split
  · exact ⟨_, rfl⟩
  · exact ⟨_, rfl⟩

theorem tells_step (message : String) (s : Session) :
    Tells .step message s ((step message).run s).2 :=
  tells_of_shown ..

theorem tells_debug (message : String) (s : Session) :
    Tells .debug message s ((debug message).run s).2 :=
  tells_of_shown ..

theorem tells_finished (message : String) (s : Session) :
    Tells .success message s ((finished message).run s).2 :=
  tells_of_shown ..

theorem tells_failed (message : String) (s : Session) :
    Tells .error message s ((failed message).run s).2 :=
  ⟨_, rfl⟩

section Tells

variable (h : Tells level message s s')

include h

theorem Tells.calls : s'.calls = s.calls := by
  obtain ⟨console, rfl⟩ := h
  rw [← withFiles_told]
  rfl

theorem Tells.environment : s'.environment = s.environment := by
  obtain ⟨console, rfl⟩ := h
  rw [← withFiles_told]
  rfl

theorem Tells.platform : s'.platform = s.platform := by
  obtain ⟨console, rfl⟩ := h
  rw [← withFiles_told]
  rfl

theorem Tells.logger : s'.logger = s.logger := by
  obtain ⟨console, rfl⟩ := h
  rw [← withFiles_told]
  rfl

/-- A message changes no file but the log. -/
theorem Tells.files_eq_or :
    s'.files = s.files ∨
      ∃ path more, s.logger.file = some path ∧ s.files.extend path more = .ok s'.files := by
  obtain ⟨console, rfl⟩ := h
  rw [told_eq]
  split
  · exact .inl rfl
  · next path hfile =>
    split
    · next hextend => exact .inr ⟨path, _, hfile, hextend⟩
    · exact .inl rfl

/-- A message takes no file away. -/
theorem Tells.keeps : s.files.Keeps s'.files := by
  obtain heq | ⟨_, _, -, hextend⟩ := h.files_eq_or
  · exact heq ▸ .refl _
  · exact FileTree.extend_keeps hextend

theorem Tells.files {files : FileTree} (hfile : s.logger.file = some path)
    (hextend :
      s.files.extend path (Text.encodeUtf8 (lineOf s.clock level message).toList) = .ok files) :
    s'.files = files ∧ s'.logger.file = some path := by
  obtain ⟨console, rfl⟩ := h
  rw [told_eq]
  simp only [hfile, hextend, Session.withFiles, and_self]

/-- A message adds its line to a log that is there. -/
theorem Tells.reads (hreads : Reads s path text) :
    Reads s' path (text ++ lineOf s.clock level message) := by
  obtain ⟨files, hextend, hread⟩ := FileTree.exists_extend_of_read hreads.read
    (Text.encodeUtf8 (lineOf s.clock level message).toList)
  obtain ⟨rfl, hfile⟩ := h.files hreads.file hextend
  exact ⟨hfile, by rw [hread, String.toList_append, encodeUtf8_append]⟩

/-- A message adds its line to a log that was to be written to in an earlier session already, with
files that are added to those that the log would have made there. -/
theorem Tells.reads_of_starts (base : Session) {files : FileTree} {l : Files.Location}
    (hkeeps : base.files.Keeps s.files) (hlogger : s.logger = base.logger)
    (hlocate : base.files.locate path = .ok l) (hsame : s.files.item? l = base.files.item? l)
    (hextend : base.files.extend path [] = .ok files)
    (hreads : Reads (base.withFiles files) path text) :
    files.Keeps s'.files ∧ Reads s' path (text ++ lineOf s.clock level message) := by
  obtain ⟨files', hextend', hkeeps', -, hread⟩ :=
    FileTree.exists_extend hkeeps hlocate hsame hextend hreads.read
      (Text.encodeUtf8 (lineOf s.clock level message).toList)
  obtain ⟨rfl, hfile⟩ := h.files (hlogger ▸ hreads.file) hextend'
  exact ⟨hkeeps', hfile, by rw [hread, String.toList_append, encodeUtf8_append]⟩

end Tells

/-! ### Parts of a log -/

/-- A part of what is added to a log. -/
inductive Part where
  /-- The line of a message. -/
  | line (level : Level) (message : String)
  /-- What something else adds that is called. -/
  | foreign
  deriving DecidableEq, Repr

/-- The texts that parts spell, whatever the time at each line, where what others add has a given
property. -/
inductive Spells (Allowed : String → Prop) : List Part → String → Prop
  | nil : Spells Allowed [] ""
  | line (clock : String) (level : Level) (message : String) {parts : List Part} {text : String}
      (h : Spells Allowed parts text) :
      Spells Allowed (.line level message :: parts) (lineOf clock level message ++ text)
  | foreign {more : String} (hmore : Allowed more) {parts : List Part} {text : String}
      (h : Spells Allowed parts text) : Spells Allowed (.foreign :: parts) (more ++ text)

variable {Allowed : String → Prop} {parts parts' : List Part} {text' : String}

theorem Spells.append (h : Spells Allowed parts text) (h' : Spells Allowed parts' text') :
    Spells Allowed (parts ++ parts') (text ++ text') := by
  induction h with
  | nil => simpa using h'
  | line clock level message _ ih => simpa only [String.append_assoc] using .line clock _ _ ih
  | foreign hmore _ ih => simpa only [String.append_assoc] using .foreign hmore ih

/-- Two sessions between which nothing goes, and the log gets what parts spell. -/
structure Grows (Allowed : String → Prop) (parts : List Part) (s s' : Session) : Prop where
  files : s.files.Keeps s'.files
  log : ∀ path text, Reads s path text →
    ∃ more, Spells Allowed parts more ∧ Reads s' path (text ++ more)

theorem Grows.refl (s : Session) : Grows Allowed [] s s where
  files := .refl _
  log path text hreads := ⟨"", .nil, by simpa using hreads⟩

theorem Grows.trans (h : Grows Allowed parts s s') (h' : Grows Allowed parts' s' s'') :
    Grows Allowed (parts ++ parts') s s'' where
  files := h.files.trans h'.files
  log path text hreads := by
    obtain ⟨more, hmore, hreads'⟩ := h.log path text hreads
    obtain ⟨more', hmore', hreads''⟩ := h'.log path _ hreads'
    exact ⟨more ++ more', hmore.append hmore', by rwa [← String.append_assoc]⟩

theorem Grows.calls (h : Grows Allowed parts s s') (calls : List Build.Call) :
    Grows Allowed parts s { s' with calls := calls } where
  files := h.files
  log path text hreads := by
    obtain ⟨more, hmore, hfile, hread⟩ := h.log path text hreads
    exact ⟨more, hmore, hfile, hread⟩

/-- A message adds its line. -/
theorem Tells.grows (h : Tells level message s s') : Grows Allowed [.line level message] s s' where
  files := h.keeps
  log path text hreads :=
    ⟨_, .line s.clock level message .nil, by simpa using h.reads hreads⟩

end Descriptor.Log
