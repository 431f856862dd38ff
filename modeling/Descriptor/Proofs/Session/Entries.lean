import Descriptor.Proofs.Session.Log

/-!
# Entries of the log

What is told in the log, the time aside, is a list of entries. Entries are added to the log one
after the other and change nothing else, and a log that can be written to holds them all behind what
it held, also if it was not there before. A process that is captured comes to an entry about its end
and one for each stream that it printed anything on.

## Main definitions

* `Entry`, `Entry.text` : an entry, and the line that it comes to at some time.
* `toldAll` : the session after entries were added to the log.
* `capturedEntries` : the entries about a finished process.

## Main results

* `Starts.tells`, `Starts.toldAll` : what the log holds after messages.
* `grows_toldAll` : what entries add to the log.
* `run_captured` : a captured process is told by its entries.
-/

namespace Descriptor.Log

open Files (FileTree)

/-- An entry of the log, the time aside. -/
structure Entry where
  level : Level
  message : String
  deriving DecidableEq, Repr

/-- The line of an entry that is made at some time. -/
def Entry.text (clock : String) (e : Entry) : String := lineOf clock e.level e.message

/-- An entry as a part of what is added to a log. -/
def Entry.part (e : Entry) : Part := .line e.level e.message

/-- The session after entries were added to the log. -/
def toldAll (entries : List Entry) (s : Session) : Session :=
  entries.foldl (fun s e => told e.level e.message s) s

variable {s s' : Session} {level : Level} {message path text : String} {entries : List Entry}

/-! ### What entries leave alone -/

@[simp]
theorem clock_told (level : Level) (message : String) (s : Session) :
    (told level message s).clock = s.clock := by
  rw [← withFiles_told]
  rfl

@[simp]
theorem logger_told (level : Level) (message : String) (s : Session) :
    (told level message s).logger = s.logger := by
  rw [← withFiles_told]
  rfl

@[simp]
theorem colored_told (level : Level) (message : String) (s : Session) :
    (told level message s).colored = s.colored := by
  rw [← withFiles_told]
  rfl

theorem toldAll_cons (e : Entry) (entries : List Entry) (s : Session) :
    toldAll (e :: entries) s = toldAll entries (told e.level e.message s) := rfl

theorem toldAll_append (entries entries' : List Entry) (s : Session) :
    toldAll (entries ++ entries') s = toldAll entries' (toldAll entries s) :=
  List.foldl_append

/-- Entries change the files at most. -/
theorem withFiles_toldAll (entries : List Entry) (s : Session) :
    s.withFiles (toldAll entries s).files = toldAll entries s := by
  induction entries generalizing s with
  | nil => rfl
  | cons e entries ih =>
    rw [toldAll_cons, ← ih, ← withFiles_told]
    rfl

/-- What an entry does to the files is a matter of the files, the log and the time. -/
theorem files_told_congr (hfiles : s.files = s'.files) (hlog : s.logger.file = s'.logger.file)
    (hclock : s.clock = s'.clock) (level : Level) (message : String) :
    (told level message s).files = (told level message s').files := by
  rw [told_eq, told_eq, hfiles, hlog, hclock]
  split
  · exact hfiles
  · split
    · rfl
    · exact hfiles

/-- What entries do to the files is a matter of the files, the log and the time. -/
theorem files_toldAll_congr (hfiles : s.files = s'.files)
    (hlog : s.logger.file = s'.logger.file) (hclock : s.clock = s'.clock)
    (entries : List Entry) : (toldAll entries s).files = (toldAll entries s').files := by
  induction entries generalizing s s' with
  | nil => exact hfiles
  | cons e entries ih =>
    rw [toldAll_cons, toldAll_cons]
    exact ih (files_told_congr hfiles hlog hclock e.level e.message) (by simpa using hlog)
      (by simpa using hclock)

/-! ### What the log holds -/

/-- A log that is there can be written to. -/
theorem Reads.starts (h : Reads s path text) : Starts s path text := by
  obtain ⟨files, hextend, hread⟩ := FileTree.exists_extend_of_read h.read []
  rw [List.append_nil] at hread
  exact ⟨files, hextend, h.file, hread⟩

/-- What a log holds is a matter of the files and of the path of the log. -/
theorem Starts.congr (h : Starts s path text) (hfiles : s'.files = s.files)
    (hlog : s'.logger.file = s.logger.file) : Starts s' path text := by
  obtain ⟨files, hextend, hfile, hread⟩ := h
  exact ⟨files, by rw [hfiles, hextend], hlog.trans hfile, hread⟩

/-- A log that can be written to holds a message once it is told, also if it was not there. -/
theorem Starts.tells (h : Starts s path text) (htells : Tells level message s s') :
    Reads s' path (text ++ lineOf s.clock level message) := by
  obtain ⟨files, hextend, hreads⟩ := h
  obtain ⟨l, _, _, hwritable, -⟩ := FileTree.extend_eq_ok_iff.mp hextend
  obtain ⟨hlocate, -⟩ := FileTree.findWritable_eq_ok_iff.mp hwritable
  exact (htells.reads_of_starts s (.refl s.files) rfl hlocate rfl hextend hreads).2

/-- A log that can be written to holds entries behind what it held. -/
theorem Starts.toldAll (h : Starts s path text) (entries : List Entry) :
    Starts (toldAll entries s) path (text ++ String.join (entries.map (Entry.text s.clock))) := by
  induction entries generalizing s text with
  | nil =>
    rw [List.map_nil, String.join_nil, String.append_empty]
    exact h
  | cons e entries ih =>
    have htold : Starts (told e.level e.message s) path (text ++ e.text s.clock) :=
      (h.tells (tells_record e.level e.message s)).starts
    have hrest := ih htold
    rw [clock_told] at hrest
    rw [toldAll_cons, List.map_cons, String.join_cons, ← String.append_assoc]
    exact hrest

/-- Entries add their lines to the log. -/
theorem grows_toldAll {Allowed : String → Prop} (entries : List Entry) (s : Session) :
    Grows Allowed (entries.map Entry.part) s (toldAll entries s) := by
  induction entries generalizing s with
  | nil => exact .refl s
  | cons e entries ih => exact (tells_record e.level e.message s).grows.trans (ih _)

/-! ### Captured processes -/

/-- The entry about what a process printed on a stream, unless it is blank. -/
def streamEntries (level : Level) (bytes : List UInt8) : List Entry :=
  let text := Text.decodeUtf8Lossy bytes
  if Text.isBlankText text then [] else [⟨level, String.ofList ('\n' :: Text.trimEnd text)⟩]

/-- The entries about a finished process: how it ended, and what it printed. -/
def capturedEntries (command : String) (output : Child.Output) : List Entry :=
  ⟨.command, command ++ " (exit code: " ++ codeText output.status.code? ++ ")"⟩ ::
    (streamEntries .stdout output.stdout ++ streamEntries .stderr output.stderr)

theorem run_recordStream (level : Level) (bytes : List UInt8) (s : Session) :
    ((recordStream level bytes).run s).2 = toldAll (streamEntries level bytes) s := by
  unfold recordStream streamEntries
  simp only
  split <;> rfl

/-- A captured process is told by its entries, and nothing is shown of it. -/
theorem run_captured (command : String) (output : Child.Output) (s : Session) :
    ((captured command output).run s).2 = toldAll (capturedEntries command output) s := by
  rw [capturedEntries, toldAll_cons, toldAll_append, ← run_recordStream, ← run_recordStream]
  rfl

end Descriptor.Log
