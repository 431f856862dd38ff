import Descriptor.CoreMetadata.Basic
import Mathlib.Data.List.Forall2
import Mathlib.Data.List.TakeWhile

/-!
# Folded headers

A header may go on in lines that start with a space or a tab. A block of such headers is read up to
the first line that is blank, which need not be the end of the block: a line that continues a header
may hold nothing but white space. The headers behind such a line are lost.

## Main definitions

* `headerBlock` : the lines of a text before its first empty line.
* `Field` : a header as it is written, with the lines that continue it.
* `reached`, `lost` : the headers that are read, and those behind a blank line.
* `Complete` : metadata in which no header of a block is missing.
* `LosesNothing` : the lost headers say nothing of what the metadata asks for.

## Main results

* `readBlock_fields` : the headers that are read.
* `read_complete_iff_losesNothing` : a block is read without loss if and only if the lost headers
  say nothing that counts.
* `not_complete_blankLicense` : a requirement that is lost behind a blank line.
-/

namespace Descriptor.CoreMetadata

open Text (trim isBlankText lowercaseAscii)

/-! ### Header blocks -/

/-- The lines of a text before its first empty line, or all of them. -/
def headerBlock (content : String) : List (List Char) :=
  (Text.lines content.toList).takeWhile (· ≠ [])

/-- A line that a header starts in: there is a colon in it, and no space or tab in front. -/
def IsHeaderLine (line : List Char) : Prop := ':' ∈ line ∧ isContinuation line = false

instance (line : List Char) : Decidable (IsHeaderLine line) := inferInstanceAs (Decidable (_ ∧ _))

/-- The lines of a header block: a header line, and then header lines and lines that continue the
header before them. -/
def IsHeaderBlock : List (List Char) → Prop
  | [] => False
  | line :: rest => IsHeaderLine line ∧ ∀ l ∈ rest, IsHeaderLine l ∨ isContinuation l = true

instance : DecidablePred IsHeaderBlock
  | [] => .isFalse id
  | line :: rest =>
    inferInstanceAs
      (Decidable (IsHeaderLine line ∧ ∀ l ∈ rest, IsHeaderLine l ∨ isContinuation l = true))

/-- A header as it is written: the line in which it starts, and the lines that continue it. -/
structure Field where
  line : List Char
  continuations : List (List Char)
  isHeaderLine : IsHeaderLine line
  isContinuation : ∀ l ∈ continuations, isContinuation l = true

namespace Field

/-- The lines of a header. -/
def lines (f : Field) : List (List Char) := f.line :: f.continuations

/-- The name of a header, in lower case. -/
def name (f : Field) : List Char := lowercaseAscii (trim (f.line.takeWhile (· ≠ ':')))

/-- The value of a header with some lines folded in, each behind a space. -/
def folded (f : Field) (continuations : List (List Char)) : List Char :=
  trim (f.line.dropWhile (· ≠ ':')).tail ++ continuations.flatMap (' ' :: trim ·)

/-- A header without a blank line in it. -/
def isWhole (f : Field) : Bool := f.continuations.all (!isBlankText ·)

/-- The lines of a header before the first that is blank. -/
def readLines (f : Field) : List (List Char) := f.continuations.takeWhile (!isBlankText ·)

/-- What is read of a header. -/
def header (f : Field) : Header := ⟨f.name, f.folded f.readLines⟩

end Field

theorem exists_fields_append {lines : List (List Char)}
    (h : ∀ l ∈ lines, IsHeaderLine l ∨ isContinuation l = true) :
    ∃ (continuations : List (List Char)) (fields : List Field),
      (∀ l ∈ continuations, isContinuation l = true) ∧
        lines = continuations ++ fields.flatMap Field.lines := by
  induction lines with
  | nil => exact ⟨[], [], by simp, rfl⟩
  | cons line lines ih =>
    obtain ⟨continuations, fields, hcontinuations, rfl⟩ :=
      ih fun l hl => h l (List.mem_cons_of_mem _ hl)
    rcases h line List.mem_cons_self with hline | hline
    · exact ⟨[], ⟨line, continuations, hline, hcontinuations⟩ :: fields, by simp, rfl⟩
    · exact ⟨line :: continuations, fields, by simpa [hline] using hcontinuations, rfl⟩

/-- A header block consists of headers. -/
theorem IsHeaderBlock.exists_fields {lines : List (List Char)} (h : IsHeaderBlock lines) :
    ∃ fields : List Field, lines = fields.flatMap Field.lines := by
  match lines, h with
  | line :: rest, ⟨hline, hrest⟩ =>
    obtain ⟨continuations, fields, hcontinuations, rfl⟩ := exists_fields_append hrest
    exact ⟨⟨line, continuations, hline, hcontinuations⟩ :: fields, rfl⟩

/-! ### Reading a block -/

/-- The headers that are read: those up to the first one with a blank line in it. -/
def reached : List Field → List Field
  | [] => []
  | f :: rest => f :: if f.isWhole then reached rest else []

/-- The headers that are not read: those behind the first one with a blank line in it. -/
def lost : List Field → List Field
  | [] => []
  | f :: rest => if f.isWhole then lost rest else rest

theorem reached_append_lost (fields : List Field) : reached fields ++ lost fields = fields := by
  induction fields with
  | nil => rfl
  | cons f rest ih =>
    rw [reached, lost]
    split
    · rw [List.cons_append, ih]
    · rfl

/-- Where no line is blank, nothing is lost. -/
theorem lost_eq_nil {fields : List Field} (h : ∀ f ∈ fields, f.isWhole = true) :
    lost fields = [] := by
  induction fields with
  | nil => rfl
  | cons f rest ih =>
    rw [lost, if_pos (h f List.mem_cons_self)]
    exact ih fun g hg => h g (List.mem_cons_of_mem _ hg)

/-- Where no line is blank, everything is read. -/
theorem reached_eq_self {fields : List Field} (h : ∀ f ∈ fields, f.isWhole = true) :
    reached fields = fields := by
  have happend := reached_append_lost fields
  rwa [lost_eq_nil h, List.append_nil] at happend

theorem readBlock_cons (headers : List Header) (number : ℕ) (line : List Char)
    (rest : List (List Char)) :
    readBlock headers number (line :: rest) =
      if isBlankText line then .ok headers
      else if isContinuation line then
        match headers with
        | [] => .error (.strayContinuation number)
        | last :: earlier => readBlock (last.continued line :: earlier) (number + 1) rest
      else
        match Header.ofLine? line with
        | none => .error (.missingColon number)
        | some h => readBlock (h :: headers) (number + 1) rest :=
  readBlock.eq_def headers number (line :: rest)

theorem takeWhile_ne_append {front : List Char} (h : ':' ∉ front) (value : List Char) :
    (front ++ ':' :: value).takeWhile (· ≠ ':') = front := by
  have hfront : ∀ c ∈ front, decide (c ≠ ':') = true := fun c hc =>
    decide_eq_true fun heq => h (heq ▸ hc)
  rw [List.takeWhile_append_of_pos hfront]
  simp

theorem dropWhile_ne_append {front : List Char} (h : ':' ∉ front) (value : List Char) :
    (front ++ ':' :: value).dropWhile (· ≠ ':') = ':' :: value := by
  have hfront : ∀ c ∈ front, decide (c ≠ ':') = true := fun c hc =>
    decide_eq_true fun heq => h (heq ▸ hc)
  rw [List.dropWhile_append_of_pos hfront]
  simp

/-- A line is split at its first colon. -/
theorem Header.ofLine?_append {front : List Char} (h : ':' ∉ front) (value : List Char) :
    Header.ofLine? (front ++ ':' :: value) = some ⟨lowercaseAscii (trim front), trim value⟩ := by
  rw [Header.ofLine?, takeWhile_ne_append h, dropWhile_ne_append h]

theorem Header.ofLine?_eq_none_iff {line : List Char} :
    Header.ofLine? line = none ↔ ':' ∉ line := by
  refine ⟨fun h hmem => ?_, fun h => ?_⟩
  · obtain ⟨front, value, rfl, hfront⟩ := List.eq_append_cons_of_mem hmem
    rw [Header.ofLine?_append hfront] at h
    exact absurd h (Option.some_ne_none _)
  · have hnil : line.dropWhile (· ≠ ':') = [] :=
      List.dropWhile_eq_nil_iff.mpr fun c hc => decide_eq_true fun heq => h (heq ▸ hc)
    rw [Header.ofLine?, hnil]

theorem Header.ofLine?_line (f : Field) : Header.ofLine? f.line = some ⟨f.name, f.folded []⟩ := by
  obtain ⟨front, value, hline, hfront⟩ := List.eq_append_cons_of_mem f.isHeaderLine.1
  rw [Field.name, Field.folded, hline, Header.ofLine?_append hfront, takeWhile_ne_append hfront,
    dropWhile_ne_append hfront, List.tail_cons, List.flatMap_nil, List.append_nil]

theorem isBlankText_line (f : Field) : isBlankText f.line = false := by
  rw [isBlankText, List.all_eq_false]
  exact ⟨':', f.isHeaderLine.1, by decide⟩

theorem Field.readLines_of_isWhole {f : Field} (h : f.isWhole = true) :
    f.readLines = f.continuations :=
  List.takeWhile_eq_self_iff.mpr (List.all_eq_true.mp h)

theorem Field.continued_folded (f : Field) (lines : List (List Char)) (line : List Char) :
    Header.continued ⟨f.name, f.folded lines⟩ line = ⟨f.name, f.folded (lines ++ [line])⟩ := by
  simp [Header.continued, Field.folded]

variable (f : Field) (headers : List Header) (number : Nat)

/-- Lines that continue a header are folded in, up to the first one that is blank. -/
theorem readBlock_continuations {continuations : List (List Char)} (seen rest : List (List Char))
    (h : ∀ l ∈ continuations, isContinuation l = true) :
    readBlock (⟨f.name, f.folded seen⟩ :: headers) number (continuations ++ rest) =
      if continuations.all (!isBlankText ·) then
        readBlock (⟨f.name, f.folded (seen ++ continuations)⟩ :: headers)
          (number + continuations.length) rest
      else
        .ok (⟨f.name, f.folded (seen ++ continuations.takeWhile (!isBlankText ·))⟩ :: headers) := by
  induction continuations generalizing seen number with
  | nil => simp
  | cons line continuations ih =>
    rw [List.cons_append, readBlock]
    cases hblank : isBlankText line with
    | true => simp [hblank]
    | false =>
      rw [if_neg Bool.false_ne_true, if_pos (h line List.mem_cons_self)]
      rw [f.continued_folded, ih _ _ fun l hl => h l (List.mem_cons_of_mem _ hl)]
      have hnumber : number + 1 + continuations.length = number + (continuations.length + 1) := by
        omega
      simp [hblank, hnumber]

/-- A header is read up to the first of its lines that is blank, where the block ends. -/
theorem readBlock_lines (rest : List (List Char)) :
    readBlock headers number (f.lines ++ rest) =
      if f.isWhole then readBlock (f.header :: headers) (number + 1 + f.continuations.length) rest
      else .ok (f.header :: headers) := by
  rw [Field.lines, List.cons_append, readBlock_cons, isBlankText_line, if_neg Bool.false_ne_true,
    f.isHeaderLine.2, if_neg Bool.false_ne_true, Header.ofLine?_line]
  dsimp only
  rw [readBlock_continuations f headers _ [] rest f.isContinuation, List.nil_append,
    List.nil_append]
  unfold Field.isWhole
  split
  · next hwhole => rw [Field.header, Field.readLines_of_isWhole hwhole]
  · rfl

/-- Of a block of headers, those that can be reached are read, and what stands behind the block is
never looked at. -/
theorem readBlock_fields (fields : List Field) {rest : List (List Char)}
    (hrest : ∀ headers number, readBlock headers number rest = .ok headers) :
    readBlock headers number (fields.flatMap Field.lines ++ rest) =
      .ok (((reached fields).map Field.header).reverse ++ headers) := by
  induction fields generalizing headers number with
  | nil => exact hrest headers number
  | cons f fields ih =>
    rw [List.flatMap_cons, List.append_assoc, readBlock_lines, reached]
    split
    · rw [ih, List.map_cons, List.reverse_cons, List.append_assoc, List.singleton_append]
    · rfl

/-- A block ends before a blank line, and where there are no more lines. -/
theorem readBlock_of_head? {behind : List (List Char)}
    (h : ∀ line ∈ behind.head?, isBlankText line = true) :
    readBlock headers number behind = .ok headers := by
  cases behind with
  | nil => rfl
  | cons line rest => rw [readBlock_cons, if_pos (h line rfl)]

theorem readBlock_dropWhile {p : List Char → Bool}
    (hp : ∀ line, p line = false → isBlankText line = true) (lines : List (List Char)) :
    readBlock headers number (lines.dropWhile p) = .ok headers := by
  refine readBlock_of_head? headers number fun line hline => hp line ?_
  have hhead := List.head?_dropWhile_not p lines
  rw [Option.mem_def] at hline
  rwa [hline] at hhead

theorem readHeaders_of_readBlock {content : String} {headers : List Header} (hne : headers ≠ [])
    (h : readBlock [] 1 (Text.lines content.toList) = .ok headers.reverse) :
    readHeaders content = .ok headers := by
  obtain ⟨last, earlier, hlast⟩ :=
    List.exists_cons_of_ne_nil (List.reverse_ne_nil_iff.mpr hne)
  rw [readHeaders, h, hlast]
  simp only [bind, Except.bind]
  rw [← hlast, List.reverse_reverse]

/-- The headers of a text whose header block consists of given ones. -/
theorem readHeaders_fields {content : String} {fields : List Field} (hne : fields ≠ [])
    (h : headerBlock content = fields.flatMap Field.lines) :
    readHeaders content = .ok ((reached fields).map Field.header) := by
  have hlines : Text.lines content.toList =
      fields.flatMap Field.lines ++ (Text.lines content.toList).dropWhile (· ≠ []) := by
    rw [← h, headerBlock, List.takeWhile_append_dropWhile]
  have hreached : (reached fields).map Field.header ≠ [] := by
    match fields, hne with
    | f :: rest, _ => simp [reached]
  refine readHeaders_of_readBlock hreached ?_
  have hempty (line : List Char) (h : decide (line ≠ []) = false) : isBlankText line = true := by
    obtain rfl : line = [] := by simpa using h
    rfl
  rw [hlines, readBlock_fields [] 1 fields fun _ _ => readBlock_dropWhile _ _ hempty _,
    List.append_nil]

/-! ### Metadata in which nothing is missing -/

/-- A text that is the value of a header with the first so many of its lines folded in. -/
def Field.Gives (f : Field) (text : String) : Prop :=
  ∃ n, text = String.ofList (f.folded (f.continuations.take n))

/-- The headers of some name. -/
def Field.isNamed (key : String) (f : Field) : Bool := f.name = key.toList

/-- Metadata in which every header of a block that it asks for has its place: the first of each
name, or all of them where there may be several. -/
structure Complete (fields : List Field) (m : CoreMetadata) : Prop where
  name : Option.Rel Field.Gives (fields.find? (·.isNamed "name")) m.name
  version : Option.Rel Field.Gives (fields.find? (·.isNamed "version")) m.version
  requiresPython :
    Option.Rel Field.Gives (fields.find? (·.isNamed "requires-python")) m.requiresPython
  requiresDist : List.Forall₂ Field.Gives (fields.filter (·.isNamed "requires-dist")) m.requiresDist

/-- What is lost of a block is not asked for: no requirement, and nothing that is asked for once
unless it has been read before. -/
def LosesNothing (fields : List Field) : Prop :=
  (∀ f ∈ lost fields, f.isNamed "requires-dist" = false) ∧
    ∀ key ∈ ["name", "version", "requires-python"],
      (∃ f ∈ lost fields, f.isNamed key = true) → ∃ f ∈ reached fields, f.isNamed key = true

theorem Field.gives_header (f : Field) : f.Gives (String.ofList f.header.value) := by
  have hprefix : f.readLines <+: f.continuations := List.takeWhile_prefix _
  exact ⟨f.readLines.length, by rw [← List.prefix_iff_eq_take.mp hprefix, header]⟩

/-- The values that are read under a name. -/
theorem valuesOf_header (fields : List Field) (key : String) :
    valuesOf (fields.map Field.header) key =
      (fields.filter (·.isNamed key)).map fun f => String.ofList f.header.value := by
  rw [valuesOf, List.filter_map, List.map_map]
  rfl

/-- Every header of a name has its value in order if and only if none is lost. -/
theorem forall₂_gives_iff (fields : List Field) (key : String) :
    List.Forall₂ Field.Gives (fields.filter (·.isNamed key))
        (valuesOf ((reached fields).map Field.header) key) ↔
      ∀ f ∈ lost fields, f.isNamed key = false := by
  have hfilter : fields.filter (·.isNamed key) =
      (reached fields).filter (·.isNamed key) ++ (lost fields).filter (·.isNamed key) := by
    rw [← List.filter_append, reached_append_lost]
  rw [valuesOf_header, hfilter]
  constructor
  · intro h
    have hlength := h.length_eq
    rw [List.length_append, List.length_map, Nat.add_eq_left, List.length_eq_zero_iff,
      List.filter_eq_nil_iff] at hlength
    exact fun f hf => Bool.eq_false_iff.mpr (hlength f hf)
  · intro h
    rw [List.filter_eq_nil_iff.mpr fun f hf => Bool.eq_false_iff.mp (h f hf), List.append_nil,
      List.forall₂_map_right_iff]
    exact List.forall₂_same.mpr fun f _ => f.gives_header

private theorem rel_none_iff {α β : Type} {r : α → β → Prop} {a : Option α} :
    Option.Rel r a none ↔ a = none := by
  constructor
  · rintro ⟨⟩
    rfl
  · rintro rfl
    exact .none

/-- The first header of a name has its value if and only if none is lost unless one is read. -/
theorem rel_gives_iff (fields : List Field) (key : String) :
    Option.Rel Field.Gives (fields.find? (·.isNamed key))
        (valuesOf ((reached fields).map Field.header) key).head? ↔
      ((∃ f ∈ lost fields, f.isNamed key = true) → ∃ f ∈ reached fields, f.isNamed key = true) := by
  have hfind : fields.find? (·.isNamed key) =
      ((reached fields).find? (·.isNamed key)).or ((lost fields).find? (·.isNamed key)) := by
    rw [← List.find?_append, reached_append_lost]
  rw [valuesOf_header, hfind, List.head?_map, List.head?_filter]
  cases hreached : (reached fields).find? (·.isNamed key) with
  | some f =>
    have hf := List.find?_some hreached
    exact ⟨fun _ _ => ⟨f, List.mem_of_find?_eq_some hreached, hf⟩, fun _ => .some f.gives_header⟩
  | none =>
    rw [Option.none_or, Option.map_none, rel_none_iff, List.find?_eq_none]
    refine ⟨fun h ⟨f, hf, hnamed⟩ => absurd hnamed (h f hf), fun h f hf hnamed => ?_⟩
    obtain ⟨g, hg, hread⟩ := h ⟨f, hf, hnamed⟩
    exact List.find?_eq_none.mp hreached g hg hread

theorem complete_iff_losesNothing (fields : List Field) :
    Complete fields (ofHeaders ((reached fields).map Field.header)) ↔ LosesNothing fields := by
  have hrel := rel_gives_iff fields
  constructor
  · intro h
    refine ⟨(forall₂_gives_iff fields _).mp h.requiresDist, ?_⟩
    simp only [List.forall_mem_cons]
    exact ⟨(hrel _).mp h.name, (hrel _).mp h.version, (hrel _).mp h.requiresPython, by simp⟩
  · rintro ⟨hrequiresDist, hfirst⟩
    simp only [List.forall_mem_cons] at hfirst
    obtain ⟨hname, hversion, hrequiresPython, -⟩ := hfirst
    exact ⟨(hrel _).mpr hname, (hrel _).mpr hversion, (hrel _).mpr hrequiresPython,
      (forall₂_gives_iff fields _).mpr hrequiresDist⟩

/-- A header block is read, and what is read is the first header of each name that is asked for, and
all the requirements, if and only if the headers behind a blank line say nothing of that. -/
theorem read_complete_iff_losesNothing {content : String}
    (h : IsHeaderBlock (headerBlock content)) :
    (∃ fields : List Field, headerBlock content = fields.flatMap Field.lines) ∧
      ∀ fields : List Field, headerBlock content = fields.flatMap Field.lines →
        ∃ m, CoreMetadata.read content = .ok m ∧
          m = ofHeaders ((reached fields).map Field.header) ∧
          (Complete fields m ↔ LosesNothing fields) := by
  refine ⟨h.exists_fields, fun fields hfields => ?_⟩
  have hne : fields ≠ [] := by
    rintro rfl
    rw [hfields] at h
    exact h
  refine ⟨_, ?_, rfl, complete_iff_losesNothing fields⟩
  rw [CoreMetadata.read, readHeaders_fields hne hfields]
  rfl

/-- A block with a folded summary and an empty line behind it. -/
def sampleContent : String :=
  "Name: foo\nSummary: A package\n  spanning two lines\nRequires-Dist: bar\n\nRequires-Dist: baz\n"

/-- The headers of the sample. -/
def sampleFields : List Field :=
  [⟨"Name: foo".toList, [], by decide, by decide⟩,
   ⟨"Summary: A package".toList, ["  spanning two lines".toList], by decide, by decide⟩,
   ⟨"Requires-Dist: bar".toList, [], by decide, by decide⟩]

theorem read_complete_iff_losesNothing_sample :
    IsHeaderBlock (headerBlock sampleContent) ∧
      headerBlock sampleContent = sampleFields.flatMap Field.lines ∧
      ∃ m, CoreMetadata.read sampleContent = .ok m ∧ Complete sampleFields m := by
  have hblock : IsHeaderBlock (headerBlock sampleContent) := by decide
  have hfields : headerBlock sampleContent = sampleFields.flatMap Field.lines := by decide
  have hlost : lost sampleFields = [] := lost_eq_nil (by decide)
  obtain ⟨m, hread, -, hcomplete⟩ := (read_complete_iff_losesNothing hblock).2 sampleFields hfields
  exact ⟨hblock, hfields, m, hread, hcomplete.mpr ⟨by simp [hlost], by simp [hlost]⟩⟩

/-- A block with a blank line in its license. -/
def blankLicenseContent : String := "Name: foo\nLicense: MIT\n \nRequires-Dist: bar\n"

/-- The headers of the block with the blank line. -/
def blankLicenseFields : List Field :=
  [⟨"Name: foo".toList, [], by decide, by decide⟩,
   ⟨"License: MIT".toList, [" ".toList], by decide, by decide⟩,
   ⟨"Requires-Dist: bar".toList, [], by decide, by decide⟩]

/-- A requirement behind a blank line of a license is lost, without an error. -/
theorem not_complete_blankLicense :
    IsHeaderBlock (headerBlock blankLicenseContent) ∧
      headerBlock blankLicenseContent = blankLicenseFields.flatMap Field.lines ∧
      CoreMetadata.read blankLicenseContent = .ok ⟨some "foo", none, none, []⟩ ∧
      ¬ Complete blankLicenseFields ⟨some "foo", none, none, []⟩ := by
  refine ⟨by decide, by decide, by decide, fun h => ?_⟩
  exact absurd h.requiresDist.length_eq (by decide)

end Descriptor.CoreMetadata
