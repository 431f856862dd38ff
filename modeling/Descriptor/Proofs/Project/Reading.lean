import Descriptor.Project.Reading
import Descriptor.Proofs.Record.Merge
import Mathlib.Data.List.Induction

/-!
# What a reading of a directory says

Each of the two files that describe a package is absent, fails, or gives a record, whatever becomes
of the other one. A reading lists the files that are there and the errors of those that fail, in the
order in which they are read, and every field of its record is that of the last file that knows it.
A file that fails has no more part in the record than one that is absent.

## Main definitions

* `Outcome` : what becomes of a file.
* `ComesOut` : when a file of a kind has an outcome.
* `Accounts` : a reading that tells what became of the files of some kinds.
* `Settled` : the value of a field that two files may tell.
* `Tells` : what a reading says of a directory whose files come out in given ways.

## Main results

* `accounts_foldl` : a reading accounts for all the files that were read.
* `settled_mergedRecord` : a merged record has the settled value in every field.
* `readProjectWith_tells` : the lists, the record and the result of a reading, and what they depend
  on.
-/

namespace Descriptor.Project

open Files (FileTree Fault joinPath)

/-! ### The outcome of a file -/

/-- What becomes of a file. -/
inductive Outcome where
  /-- There is no regular file. -/
  | absent
  /-- The file cannot be read. -/
  | failed (error : DescriptorError)
  /-- The file gives a record. -/
  | read (record : Record)

namespace Outcome

/-- The error of a file that cannot be read. -/
def error? : Outcome → Option DescriptorError
  | failed error => some error
  | _ => none

/-- The record of a file that gives one. -/
def record? : Outcome → Option Record
  | read record => some record
  | _ => none

end Outcome

/-- The records of the files that give one, merged in order. -/
def mergedRecord (outcomes : List Outcome) : Record :=
  (outcomes.filterMap Outcome.record?).foldl Record.merge .unknown

@[simp]
theorem mergedRecord_append_absent (outcomes : List Outcome) :
    mergedRecord (outcomes ++ [.absent]) = mergedRecord outcomes := by
  rw [mergedRecord, List.filterMap_append, List.foldl_append]
  rfl

@[simp]
theorem mergedRecord_append_failed (outcomes : List Outcome) (error : DescriptorError) :
    mergedRecord (outcomes ++ [.failed error]) = mergedRecord outcomes := by
  rw [mergedRecord, List.filterMap_append, List.foldl_append]
  rfl

@[simp]
theorem mergedRecord_append_read (outcomes : List Outcome) (record : Record) :
    mergedRecord (outcomes ++ [.read record]) = (mergedRecord outcomes).merge record := by
  rw [mergedRecord, List.filterMap_append, List.foldl_append]
  rfl

/-- How the file of a kind at a path comes out. -/
inductive ComesOut (reader : ScriptReader) (files : FileTree) (path : String) :
    DescriptorFile → Outcome → Prop
  | absent {kind : DescriptorFile} (hfile : files.isFile path = false) :
      ComesOut reader files path kind .absent
  | unreadable {kind : DescriptorFile} {fault : Fault} (hfile : files.isFile path = true)
      (htext : files.readText path = .error fault) :
      ComesOut reader files path kind (.failed (.io path fault))
  | invalidScript {source : String} {error : Script.SyntaxError} (hfile : files.isFile path = true)
      (htext : files.readText path = .ok source) (hreader : reader source = .error error) :
      ComesOut reader files path .script (.failed (.script path error))
  | script {source : String} {statements : List Script.Stmt} (hfile : files.isFile path = true)
      (htext : files.readText path = .ok source) (hreader : reader source = .ok statements) :
      ComesOut reader files path .script (.read (Script.recordOf statements))
  | invalidConfig {content : String} {error : Ini.ReadError} (hfile : files.isFile path = true)
      (htext : files.readText path = .ok content)
      (hrecord : Ini.readRecord content = .error error) :
      ComesOut reader files path .config (.failed (.config path error.line error.message))
  | config {content : String} {record : Record} (hfile : files.isFile path = true)
      (htext : files.readText path = .ok content)
      (hrecord : Ini.readRecord content = .ok record) :
      ComesOut reader files path .config (.read record)

/-- The outcome of the file of a kind at a path. -/
def outcomeOf (reader : ScriptReader) (files : FileTree) (path : String) (kind : DescriptorFile) :
    Outcome :=
  if files.isFile path then
    match kind.read reader files path with
    | .ok record => .read record
    | .error error => .failed error
  else .absent

section Outcomes

variable {reader : ScriptReader} {files : FileTree} {path : String} {kind : DescriptorFile}

private theorem read_of_unreadable {fault : Fault} (htext : files.readText path = .error fault) :
    kind.read reader files path = .error (.io path fault) := by
  cases kind <;> simp only [DescriptorFile.read, readScriptFile, readConfigFile, htext] <;> rfl

private theorem read_script {source : String} (htext : files.readText path = .ok source) :
    DescriptorFile.script.read reader files path =
      ((reader source).mapError (.script path)).map Script.recordOf := by
  simp only [DescriptorFile.read, readScriptFile, htext]
  change ((reader source).mapError _ >>= fun statements => .ok (Script.recordOf statements)) = _
  cases reader source <;> rfl

private theorem read_config {content : String} (htext : files.readText path = .ok content) :
    DescriptorFile.config.read reader files path =
      (Ini.readRecord content).mapError fun e => .config path e.line e.message := by
  simp only [DescriptorFile.read, readConfigFile, htext]
  rfl

theorem ComesOut.eq_outcomeOf {outcome : Outcome} (h : ComesOut reader files path kind outcome) :
    outcome = outcomeOf reader files path kind := by
  unfold outcomeOf
  cases h with
  | absent hfile => rw [if_neg (Bool.eq_false_iff.mp hfile)]
  | unreadable hfile htext => rw [if_pos hfile, read_of_unreadable htext]
  | invalidScript hfile htext hreader => rw [if_pos hfile, read_script htext, hreader]; rfl
  | script hfile htext hreader => rw [if_pos hfile, read_script htext, hreader]; rfl
  | invalidConfig hfile htext hrecord => rw [if_pos hfile, read_config htext, hrecord]; rfl
  | config hfile htext hrecord => rw [if_pos hfile, read_config htext, hrecord]; rfl

theorem comesOut_outcomeOf (reader : ScriptReader) (files : FileTree) (path : String)
    (kind : DescriptorFile) :
    ComesOut reader files path kind (outcomeOf reader files path kind) := by
  unfold outcomeOf
  split
  · next hfile =>
    cases htext : files.readText path with
    | error fault =>
      rw [read_of_unreadable htext]
      exact .unreadable hfile htext
    | ok text =>
      cases kind with
      | script =>
        rw [read_script htext]
        cases hreader : reader text with
        | error error => exact .invalidScript hfile htext hreader
        | ok statements => exact .script hfile htext hreader
      | config =>
        rw [read_config htext]
        cases hrecord : Ini.readRecord text with
        | error error => exact .invalidConfig hfile htext hrecord
        | ok record => exact .config hfile htext hrecord
  · next hfile => exact .absent (Bool.eq_false_iff.mpr hfile)

/-- A file that may not be opened is found and comes out as unreadable. -/
theorem ComesOut.of_locked {l : Files.Location} (h : files.find path = .ok (l, .locked)) :
    ComesOut reader files path kind (.failed (.io path .permissionDenied)) := by
  have hread : files.read path = .error .permissionDenied := by
    rw [FileTree.read, h]
    rfl
  refine .unreadable ?_ (by rw [FileTree.readText, hread]; rfl)
  rw [FileTree.isFile, FileTree.itemAt?, h]
  rfl

/-- A file comes out in exactly one way. -/
theorem comesOut_iff {outcome : Outcome} :
    ComesOut reader files path kind outcome ↔ outcome = outcomeOf reader files path kind := by
  refine ⟨ComesOut.eq_outcomeOf, ?_⟩
  rintro rfl
  exact comesOut_outcomeOf reader files path kind

/-- A file is there unless it is absent. -/
theorem ComesOut.isFile_iff {outcome : Outcome} (h : ComesOut reader files path kind outcome) :
    files.isFile path = true ↔ outcome ≠ .absent := by
  cases h <;> simp_all

/-- The error of a file names the file. -/
theorem ComesOut.path_eq {error : DescriptorError}
    (h : ComesOut reader files path kind (.failed error)) : error.path = path := by
  cases h <;> rfl

end Outcomes

/-! ### The run over the kinds of files -/

section Run

variable (reader : ScriptReader) (files : FileTree) (directory : String)

/-- The path of the file of a kind in a directory. -/
def pathOf (directory : String) (kind : DescriptorFile) : String := joinPath directory kind.name

/-- The outcome of the file of a kind in a directory. -/
def outcomeIn (kind : DescriptorFile) : Outcome :=
  outcomeOf reader files (pathOf directory kind) kind

/-- A reading with the file of a further kind, if it is there. -/
def readNext (r : Reading) (kind : DescriptorFile) : Reading :=
  if files.isFile (pathOf directory kind) then
    r.add (pathOf directory kind) (kind.read reader files (pathOf directory kind))
  else r

/-- A reading that tells what became of the files of some kinds, in their order, and of no others.
Only the files that give a record have a part in the merged one. -/
structure Accounts (kinds : List DescriptorFile) (r : Reading) : Prop where
  found : r.found = (kinds.map (pathOf directory)).filter files.isFile
  failures : r.failures =
    (kinds.map (outcomeIn reader files directory)).filterMap Outcome.error?
  record : r.record = mergedRecord (kinds.map (outcomeIn reader files directory))

variable {reader files directory}

/-- All that the file of a further kind can do to a reading. -/
theorem readNext_eq (r : Reading) (kind : DescriptorFile) :
    readNext reader files directory r kind =
      match outcomeIn reader files directory kind with
      | .absent => r
      | .failed e => r.add (pathOf directory kind) (.error e)
      | .read record => r.add (pathOf directory kind) (.ok record) := by
  unfold readNext outcomeIn outcomeOf
  split
  · cases kind.read reader files (pathOf directory kind) <;> rfl
  · rfl

theorem Accounts.readNext {kinds : List DescriptorFile} {r : Reading}
    (h : Accounts reader files directory kinds r) (kind : DescriptorFile) :
    Accounts reader files directory (kinds ++ [kind]) (readNext reader files directory r kind) := by
  have hfile := (comesOut_outcomeOf reader files (pathOf directory kind) kind).isFile_iff
  rw [← outcomeIn] at hfile
  rw [readNext_eq]
  cases houtcome : outcomeIn reader files directory kind with
  | absent =>
    exact ⟨by simp [h.found, hfile, houtcome], by simp [h.failures, houtcome, Outcome.error?],
      by simp [h.record, houtcome]⟩
  | failed error =>
    exact ⟨by simp [Reading.add, h.found, hfile, houtcome],
      by simp [Reading.add, h.failures, houtcome, Outcome.error?],
      by simp [Reading.add, h.record, houtcome]⟩
  | read record =>
    exact ⟨by simp [Reading.add, h.found, hfile, houtcome],
      by simp [Reading.add, h.failures, houtcome, Outcome.error?],
      by simp [Reading.add, h.record, houtcome]⟩

/-- A reading accounts for the files of all kinds that were read, whatever the kinds are. -/
theorem accounts_foldl (kinds : List DescriptorFile) :
    Accounts reader files directory kinds
      (kinds.foldl (Project.readNext reader files directory) .empty) := by
  induction kinds using List.reverseRecOn with
  | nil => exact ⟨rfl, rfl, rfl⟩
  | append_singleton kinds kind ih =>
    rw [List.foldl_append]
    exact ih.readNext kind

end Run

/-! ### The fields of the merged record -/

/-- The file gives a record, and the record knows a field. -/
def Outcome.Knows {α : Type} (outcome : Outcome) (field : Record.Field α) : Prop :=
  ∃ r, outcome = .read r ∧ field.Known (field.get r)

/-- The value of a field that two files may tell: that of the later file if it is read and knows the
field, else that of the earlier file if it is read and knows it, else the value of a package of
which nothing is known. -/
inductive Settled {α : Type} (field : Record.Field α) (earlier later : Outcome) : α → Prop
  | later {r : Record} (hlater : later = .read r) (hknown : field.Known (field.get r)) :
      Settled field earlier later (field.get r)
  | earlier {r : Record} (hlater : ¬ later.Knows field) (hearlier : earlier = .read r)
      (hknown : field.Known (field.get r)) :
      Settled field earlier later (field.get r)
  | unknown (hlater : ¬ later.Knows field) (hearlier : ¬ earlier.Knows field) :
      Settled field earlier later (field.get .unknown)

section MergedRecord

variable {α : Type} (field : Record.Field α) (outcomes : List Outcome)

theorem get_mergedRecord_append_of_known {r : Record} (hknown : field.Known (field.get r)) :
    field.get (mergedRecord (outcomes ++ [.read r])) = field.get r := by
  rw [mergedRecord_append_read, field.get_merge_of_known hknown]

theorem get_mergedRecord_append_of_not_knows {outcome : Outcome} (h : ¬ outcome.Knows field) :
    field.get (mergedRecord (outcomes ++ [outcome])) = field.get (mergedRecord outcomes) := by
  cases outcome with
  | absent => rw [mergedRecord_append_absent]
  | failed error => rw [mergedRecord_append_failed]
  | read r =>
    rw [mergedRecord_append_read, field.get_merge_of_not_known fun hknown => h ⟨r, rfl, hknown⟩]

/-- The record merged from those of two files settles every field. -/
theorem settled_mergedRecord (earlier later : Outcome) :
    Settled field earlier later (field.get (mergedRecord [earlier, later])) := by
  change Settled field earlier later (field.get (mergedRecord ([] ++ [earlier] ++ [later])))
  by_cases hlater : later.Knows field
  · obtain ⟨r, rfl, hknown⟩ := hlater
    rw [get_mergedRecord_append_of_known field _ hknown]
    exact .later rfl hknown
  rw [get_mergedRecord_append_of_not_knows field _ hlater]
  by_cases hearlier : earlier.Knows field
  · obtain ⟨r, rfl, hknown⟩ := hearlier
    rw [get_mergedRecord_append_of_known field _ hknown]
    exact .earlier hlater rfl hknown
  rw [get_mergedRecord_append_of_not_knows field _ hearlier]
  exact .unknown hlater hearlier

end MergedRecord

/-- A settled text is not empty. -/
theorem Settled.text_ne_empty {get : Record → Option String}
    {hmerge : ∀ a b, get (a.merge b) = Record.mergeText (get a) (get b)}
    {hunknown : get .unknown = none} {earlier later : Outcome} {value : Option String}
    (h : Settled (.text get hmerge hunknown) earlier later value) : value ≠ some "" := by
  cases h with
  | later _ hknown => exact hknown.2
  | earlier _ _ hknown => exact hknown.2
  | unknown => simp [Record.Field.text, hunknown]

/-- Files that give the same records amount to the same record, whatever the other files are. -/
theorem mergedRecord_congr {kinds : List DescriptorFile}
    {outcome outcome' : DescriptorFile → Outcome}
    (h : ∀ kind r, outcome kind = .read r ↔ outcome' kind = .read r) :
    mergedRecord (kinds.map outcome) = mergedRecord (kinds.map outcome') := by
  have hrecord (o : Outcome) (r : Record) : o.record? = some r ↔ o = .read r := by
    cases o <;> simp [Outcome.record?]
  have hsame : Outcome.record? ∘ outcome = Outcome.record? ∘ outcome' :=
    funext fun kind => Option.ext fun r => by
      rw [Function.comp_apply, Function.comp_apply, hrecord, hrecord, h]
  rw [mergedRecord, mergedRecord, List.filterMap_map, List.filterMap_map, hsame]

/-! ### The reading of a directory -/

namespace Reading

variable {r : Reading}

theorem toResult_eq_error_iff {e : DescriptorError} :
    r.toResult = .error e ↔ r.failures.head? = some e := by
  unfold toResult
  split <;> simp_all

theorem toResult_eq_ok_iff {record : Record} :
    r.toResult = .ok record ↔ r.failures = [] ∧ record = r.record := by
  unfold toResult
  split <;> simp_all [eq_comm]

end Reading

/-- What a reading tells of a directory in which one file comes out as `script` and the other as
`config`. -/
structure Tells (files : FileTree) (directory : String) (script config : Outcome)
    (reading : Reading) : Prop where
  found : reading.found =
    [joinPath directory "setup.py", joinPath directory "setup.cfg"].filter files.isFile
  failures : reading.failures = [script, config].filterMap Outcome.error?
  script_path : ∀ e, script = .failed e → e.path = joinPath directory "setup.py"
  config_path : ∀ e, config = .failed e → e.path = joinPath directory "setup.cfg"
  name : Settled .name script config reading.record.name
  version : Settled .version script config reading.record.version
  pythonRequires : Settled .pythonRequires script config reading.record.pythonRequires
  installRequires : Settled .installRequires script config reading.record.installRequires
  extrasRequire : Settled .extrasRequire script config reading.record.extrasRequire
  name_ne_empty : reading.record.name ≠ some ""
  version_ne_empty : reading.record.version ≠ some ""
  pythonRequires_ne_empty : reading.record.pythonRequires ≠ some ""
  error_iff : ∀ e, reading.toResult = .error e ↔ reading.failures.head? = some e
  ok_iff : ∀ record, reading.toResult = .ok record ↔ reading.failures = [] ∧ record = reading.record

/-- The reading of a directory tells of each file how it comes out, and its record depends on the
files that give one only: a failure leaves the same record as an absent file. -/
theorem readProjectWith_tells (reader : ScriptReader) (files : FileTree) (directory : String) :
    ∃ script config : Outcome,
      (∀ o, ComesOut reader files (joinPath directory "setup.py") .script o ↔ o = script) ∧
      (∀ o, ComesOut reader files (joinPath directory "setup.cfg") .config o ↔ o = config) ∧
      Tells files directory script config (readProjectWith reader files directory) ∧
      ∀ (reader' : ScriptReader) (files' : FileTree) (directory' : String),
        (∀ kind r, ComesOut reader' files' (joinPath directory' kind.name) kind (.read r) ↔
          ComesOut reader files (joinPath directory kind.name) kind (.read r)) →
        (readProjectWith reader' files' directory').record =
          (readProjectWith reader files directory).record := by
  have haccounts (reader files directory) : Accounts reader files directory DescriptorFile.all
      (readProjectWith reader files directory) := accounts_foldl DescriptorFile.all
  have h := haccounts reader files directory
  have hsettled {α : Type} (field : Record.Field α) :
      Settled field (outcomeIn reader files directory .script)
        (outcomeIn reader files directory .config)
        (field.get (readProjectWith reader files directory).record) := by
    rw [h.record]
    exact settled_mergedRecord field _ _
  refine ⟨outcomeIn reader files directory .script, outcomeIn reader files directory .config,
    fun _ => comesOut_iff, fun _ => comesOut_iff, ?tells, ?records⟩
  case tells =>
    exact {
      found := h.found
      failures := h.failures
      script_path := fun e he => (comesOut_iff.mpr he.symm).path_eq
      config_path := fun e he => (comesOut_iff.mpr he.symm).path_eq
      name := hsettled .name
      version := hsettled .version
      pythonRequires := hsettled .pythonRequires
      installRequires := hsettled .installRequires
      extrasRequire := hsettled .extrasRequire
      name_ne_empty := (hsettled .name).text_ne_empty
      version_ne_empty := (hsettled .version).text_ne_empty
      pythonRequires_ne_empty := (hsettled .pythonRequires).text_ne_empty
      error_iff := fun _ => Reading.toResult_eq_error_iff
      ok_iff := fun _ => Reading.toResult_eq_ok_iff }
  case records =>
    intro reader' files' directory' hsame
    rw [(haccounts reader' files' directory').record, h.record]
    refine mergedRecord_congr fun kind r => ?_
    have hkind := hsame kind r
    rw [comesOut_iff, comesOut_iff] at hkind
    exact eq_comm.trans (hkind.trans eq_comm)

end Descriptor.Project
