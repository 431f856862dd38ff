import Descriptor.Proofs.CoreMetadata.Folding
import Descriptor.Proofs.Text.Squeeze

/-!
# The blanks around values

A value is put together of trimmed pieces, with a space before each piece that a further line adds.
Such a space is left in front of the value if there is nothing before it, that is, if the value
starts only on the line behind the name. Every other value has no outer blanks.

## Main definitions

* `linesRead` : the lines of a text before the first that is blank.
* `Field.startsLate` : a header whose value starts on a later line than its name.
* `asked` : the headers that the metadata is made of.
* `CoreMetadata.Trimmed` : metadata without outer blanks in any of its texts.

## Main results

* `readBlock_cons_eq_ok` : what becomes of a line that is read.
* `readHeaders_eq_ok` : the lines of a block that is read make up headers, and those are read.
* `read_trimmed_iff` : no text of the metadata has outer blanks if and only if no header it is made
  of has a value that starts late.
* `not_trimmed_lateName` : a name with a space in front of it.
-/

namespace Descriptor

open Text

/-! ### Metadata without outer blanks -/

/-- The texts of some metadata. -/
def CoreMetadata.texts (m : CoreMetadata) : List String :=
  m.name.toList ++ m.version.toList ++ m.requiresPython.toList ++ m.requiresDist

/-- Metadata in which no text has outer blanks. -/
def CoreMetadata.Trimmed (m : CoreMetadata) : Prop :=
  ∀ text ∈ m.texts, trim text.toList = text.toList

instance (m : CoreMetadata) : Decidable m.Trimmed :=
  inferInstanceAs (Decidable (∀ text ∈ m.texts, trim text.toList = text.toList))

namespace CoreMetadata

/-! ### What is read of a text -/

/-- The lines of a text before the first that is blank. -/
def linesRead (content : String) : List (List Char) :=
  (Text.lines content.toList).takeWhile (!isBlankText ·)

/-- A line that is read continues the last header or starts a further one. -/
theorem readBlock_cons_eq_ok {headers result : List Header} {number : ℕ} {line : List Char}
    {lines : List (List Char)} (hblank : isBlankText line = false)
    (h : readBlock headers number (line :: lines) = .ok result) :
    (∃ last earlier, isContinuation line = true ∧ headers = last :: earlier ∧
        readBlock (last.continued line :: earlier) (number + 1) lines = .ok result) ∨
      ∃ header, IsHeaderLine line ∧ Header.ofLine? line = some header ∧
        readBlock (header :: headers) (number + 1) lines = .ok result := by
  rw [readBlock_cons, hblank, if_neg Bool.false_ne_true] at h
  cases hcontinuation : isContinuation line with
  | true =>
    rw [hcontinuation, if_pos rfl] at h
    cases headers with
    | nil => exact absurd h (by simp)
    | cons last earlier => exact .inl ⟨last, earlier, rfl, rfl, h⟩
  | false =>
    rw [hcontinuation, if_neg Bool.false_ne_true] at h
    cases hheader : Header.ofLine? line with
    | none => simp [hheader] at h
    | some header =>
      have hcolon : ':' ∈ line := by
        by_contra hnot
        simp [Header.ofLine?_eq_none_iff.mpr hnot] at hheader
      rw [hheader] at h
      exact .inr ⟨header, ⟨hcolon, hcontinuation⟩, rfl, h⟩

/-- The lines of a block that is read start or continue headers. -/
theorem isHeaderLine_or_of_readBlock {headers result : List Header} {number : ℕ}
    {lines : List (List Char)} (h : readBlock headers number lines = .ok result) :
    ∀ l ∈ lines.takeWhile (!isBlankText ·), IsHeaderLine l ∨ isContinuation l = true := by
  induction lines generalizing headers number with
  | nil => exact fun l hl => absurd hl List.not_mem_nil
  | cons line lines ih =>
    cases hblank : isBlankText line with
    | true => simp [hblank]
    | false =>
      rw [List.takeWhile_cons_of_pos (by simp [hblank]), List.forall_mem_cons]
      obtain ⟨_, _, hline, _, hrest⟩ | ⟨_, hline, _, hrest⟩ := readBlock_cons_eq_ok hblank h
      · exact ⟨.inr hline, ih hrest⟩
      · exact ⟨.inl hline, ih hrest⟩

/-- With no header before it, the first line of a block that is read starts one. -/
theorem isHeaderBlock_of_readBlock {result : List Header} {number : ℕ} {lines : List (List Char)}
    (h : readBlock [] number lines = .ok result) (hne : lines.takeWhile (!isBlankText ·) ≠ []) :
    IsHeaderBlock (lines.takeWhile (!isBlankText ·)) := by
  have hlines := isHeaderLine_or_of_readBlock h
  cases lines with
  | nil => exact absurd rfl hne
  | cons line lines =>
    have hblank : isBlankText line = false := by
      by_contra hblank
      simp [hblank] at hne
    rw [List.takeWhile_cons_of_pos (by simp [hblank])] at hlines ⊢
    obtain ⟨_, _, _, hnil, _⟩ | ⟨_, hline, _, _⟩ := readBlock_cons_eq_ok hblank h
    · exact absurd hnil (List.cons_ne_nil _ _).symm
    · exact ⟨hline, (List.forall_mem_cons.mp hlines).2⟩

/-- Where a block is read, the lines before the first blank one make up headers, and what is read is
those headers, each of them as a whole. -/
theorem readHeaders_eq_ok {content : String} {headers : List Header}
    (h : readHeaders content = .ok headers) :
    (∃ fields : List Field, linesRead content = fields.flatMap Field.lines) ∧
      ∀ fields : List Field, linesRead content = fields.flatMap Field.lines →
        (∀ f ∈ fields, f.isWhole = true) ∧ headers = fields.map Field.header := by
  obtain ⟨result, hblock, hresult⟩ :
      ∃ result, readBlock [] 1 (Text.lines content.toList) = .ok result ∧
        headers = result.reverse := by
    rw [readHeaders] at h
    cases hblock : readBlock [] 1 (Text.lines content.toList) with
    | error fault => simp [hblock, bind, Except.bind] at h
    | ok result =>
      refine ⟨result, rfl, ?_⟩
      rw [hblock] at h
      cases result with
      | nil => exact absurd h (by simp [bind, Except.bind])
      | cons last earlier => exact (Except.ok.inj h).symm
  constructor
  · by_cases hne : linesRead content = []
    · exact ⟨[], hne⟩
    · exact (isHeaderBlock_of_readBlock hblock hne).exists_fields
  · intro fields hfields
    have hwhole : ∀ f ∈ fields, f.isWhole = true := fun f hf => by
      refine List.all_eq_true.mpr fun l hl => ?_
      have hread : l ∈ linesRead content := by
        rw [hfields]
        exact List.mem_flatMap.mpr ⟨f, hf, List.mem_cons_of_mem _ hl⟩
      exact List.mem_takeWhile_imp (p := (!isBlankText ·)) hread
    refine ⟨hwhole, ?_⟩
    have hlines : Text.lines content.toList = fields.flatMap Field.lines ++
        (Text.lines content.toList).dropWhile (!isBlankText ·) := by
      rw [← hfields, linesRead, List.takeWhile_append_dropWhile]
    rw [hlines, readBlock_fields [] 1 fields fun _ _ => readBlock_dropWhile _ _ (by simp) _,
      reached_eq_self hwhole, List.append_nil] at hblock
    rw [hresult, ← Except.ok.inj hblock, List.reverse_reverse]

/-! ### The value of a header -/

namespace Field

/-- What stands behind the colon of a header. -/
def opening (f : Field) : List Char := (f.line.dropWhile (· ≠ ':')).tail

/-- Whether the value of a header starts only on a line behind the one with the name. -/
def startsLate (f : Field) : Bool := isBlankText f.opening && !f.continuations.isEmpty

/-- The value of a header as a text. -/
def text (f : Field) : String := String.ofList f.header.value

end Field

/-- Lines that are folded into a value without outer blanks leave it without. -/
theorem trim_append_flatMap_eq_self {value : List Char} (hne : value ≠ [])
    (htrim : trim value = value) {lines : List (List Char)}
    (hlines : ∀ l ∈ lines, isBlankText l = false) :
    trim (value ++ lines.flatMap (' ' :: trim ·)) = value ++ lines.flatMap (' ' :: trim ·) := by
  -- what is folded in so far is the value that the next line is folded into
  induction lines generalizing value with
  | nil => simpa using htrim
  | cons line lines ih =>
    obtain ⟨hline, hlines⟩ := List.forall_mem_cons.mp hlines
    have hnext : trim (value ++ ' ' :: trim line) = value ++ ' ' :: trim line :=
      trim_append_space_eq_self hne htrim (trim_ne_nil hline) (trim_trim line)
    have hfold : value ++ (line :: lines).flatMap (' ' :: trim ·) =
        (value ++ ' ' :: trim line) ++ lines.flatMap (' ' :: trim ·) := by
      rw [List.flatMap_cons, List.append_assoc]
    rw [hfold]
    exact ih (by simp) hnext hlines

/-- A folded value ends without blanks, and it starts without them unless it starts late: then there
is one space in front of it. -/
theorem Field.value_spec {f : Field} (h : f.isWhole = true) :
    trimEnd f.header.value = f.header.value ∧
      f.header.value =
        if f.startsLate then ' ' :: trim f.header.value else trim f.header.value := by
  have hlines : ∀ l ∈ f.continuations, isBlankText l = false := fun l hl => by
    simpa using List.all_eq_true.mp h l hl
  have hvalue : f.header.value = trim f.opening ++ f.continuations.flatMap (' ' :: trim ·) := by
    rw [header, readLines_of_isWhole h, folded, opening]
  rw [startsLate, hvalue]
  cases hopening : isBlankText f.opening with
  | false =>
    have hne : trim f.opening ≠ [] := trim_ne_nil hopening
    have htrim := trim_append_flatMap_eq_self hne (trim_trim _) hlines
    rw [Bool.false_and, if_neg Bool.false_ne_true]
    exact ⟨trimEnd_eq_self_of_trim_eq_self htrim, htrim.symm⟩
  | true =>
    rw [trim_eq_nil_iff.mpr (isBlankText_iff.mp hopening), List.nil_append]
    cases hcontinuations : f.continuations with
    | nil => exact ⟨rfl, rfl⟩
    | cons line lines =>
      rw [hcontinuations, List.forall_mem_cons] at hlines
      have hne : trim line ≠ [] := trim_ne_nil hlines.1
      have htrim := trim_append_flatMap_eq_self hne (trim_trim line) hlines.2
      -- the first line is folded into nothing, and its space stays in front
      have hspace (text : List Char) : trim (' ' :: text) = trim text :=
        trim_blanks_append blanks_space text
      rw [List.flatMap_cons, List.cons_append, hspace, htrim, trimEnd_space_cons,
        trimEnd_eq_self_of_trim_eq_self htrim, if_neg (List.append_ne_nil_of_left_ne_nil hne _)]
      exact ⟨rfl, rfl⟩

theorem Field.trim_value_eq_self_iff {f : Field} (h : f.isWhole = true) :
    trim f.header.value = f.header.value ↔ f.startsLate = false := by
  have hvalue := (value_spec h).2
  cases hlate : f.startsLate with
  | false =>
    rw [hlate, if_neg Bool.false_ne_true] at hvalue
    exact ⟨fun _ => rfl, fun _ => hvalue.symm⟩
  | true =>
    rw [hlate, if_pos rfl] at hvalue
    refine ⟨fun htrim => ?_, fun hfalse => absurd hfalse.symm Bool.false_ne_true⟩
    have hlength := congrArg List.length hvalue
    rw [htrim, List.length_cons] at hlength
    omega

/-! ### The headers that are asked for -/

/-- The headers that metadata is made of: the first of each name that is asked for once, and all the
requirements. -/
def asked (fields : List Field) : List Field :=
  (fields.find? (·.isNamed "name")).toList ++ (fields.find? (·.isNamed "version")).toList ++
    (fields.find? (·.isNamed "requires-python")).toList ++
      fields.filter (·.isNamed "requires-dist")

theorem texts_ofHeaders (fields : List Field) :
    (ofHeaders (fields.map Field.header)).texts = (asked fields).map Field.text := by
  simp only [texts, ofHeaders, asked, valuesOf_header, List.head?_map, List.head?_filter,
    Option.toList_map, List.map_append]
  rfl

theorem mem_of_mem_asked {fields : List Field} {f : Field} (h : f ∈ asked fields) : f ∈ fields := by
  simp only [asked, List.mem_append, Option.mem_toList] at h
  rcases h with ((h | h) | h) | h
  · exact List.mem_of_find?_eq_some h
  · exact List.mem_of_find?_eq_some h
  · exact List.mem_of_find?_eq_some h
  · exact List.mem_of_mem_filter h

/-- **Exactly the values that start on a later line than their name come out with a blank at the
front.** Of a text that is read, the lines before the first blank one make up headers, and the
metadata is made of those. No text of it ends in a blank; the value of a header has one space in
front of it if it starts late, and else no outer blanks. So the metadata is without outer blanks if
and only if no header that it asks for starts late. -/
theorem read_trimmed_iff {content : String} {m : CoreMetadata}
    (h : CoreMetadata.read content = .ok m) :
    (∃ fields : List Field, linesRead content = fields.flatMap Field.lines) ∧
      ∀ fields : List Field, linesRead content = fields.flatMap Field.lines →
        m = ofHeaders (fields.map Field.header) ∧
        (∀ text ∈ m.texts, trimEnd text.toList = text.toList) ∧
        (∀ f ∈ fields, f.header.value =
          if f.startsLate then ' ' :: trim f.header.value else trim f.header.value) ∧
        (m.Trimmed ↔ ∀ f ∈ asked fields, f.startsLate = false) := by
  obtain ⟨headers, hheaders, rfl⟩ : ∃ headers, readHeaders content = .ok headers ∧
      m = ofHeaders headers := by
    rw [CoreMetadata.read] at h
    cases hheaders : readHeaders content with
    | error fault => simp [hheaders, Except.map] at h
    | ok headers =>
      rw [hheaders] at h
      exact ⟨headers, rfl, (Except.ok.inj h).symm⟩
  obtain ⟨hexists, hread⟩ := readHeaders_eq_ok hheaders
  refine ⟨hexists, fun fields hfields => ?_⟩
  obtain ⟨hwhole, rfl⟩ := hread fields hfields
  have hasked : ∀ f ∈ asked fields, f.isWhole = true := fun f hf => hwhole f (mem_of_mem_asked hf)
  refine ⟨rfl, ?_, fun f hf => (Field.value_spec (hwhole f hf)).2, ?_⟩
  · rw [texts_ofHeaders, List.forall_mem_map]
    exact fun f hf => by simpa [Field.text] using (Field.value_spec (hasked f hf)).1
  · rw [Trimmed, texts_ofHeaders, List.forall_mem_map]
    refine forall₂_congr fun f hf => ?_
    rw [Field.text, String.toList_ofList, Field.trim_value_eq_self_iff (hasked f hf)]

/-- A block with two folded headers. -/
def foldedBlockContent : String := "Summary: not\n  long\nRequires-Dist: baz\n\t>=1\n"

/-- The headers of the block. -/
def foldedBlockFields : List Field :=
  [⟨"Summary: not".toList, ["  long".toList], by decide, by decide⟩,
   ⟨"Requires-Dist: baz".toList, ["\t>=1".toList], by decide, by decide⟩]

theorem read_trimmed_iff_foldedBlock :
    CoreMetadata.read foldedBlockContent = .ok ⟨none, none, none, ["baz >=1"]⟩ ∧
      Trimmed ⟨none, none, none, ["baz >=1"]⟩ := by
  have hread : CoreMetadata.read foldedBlockContent = .ok ⟨none, none, none, ["baz >=1"]⟩ := by
    decide
  have hfields : linesRead foldedBlockContent = foldedBlockFields.flatMap Field.lines := by decide
  obtain ⟨-, -, -, htrimmed⟩ := (read_trimmed_iff hread).2 foldedBlockFields hfields
  exact ⟨hread, htrimmed.mpr (by decide)⟩

/-- A name that stands on the line behind its header comes out with a space in front. -/
theorem not_trimmed_lateName :
    CoreMetadata.read "Name:\n foo\n" = .ok ⟨some " foo", none, none, []⟩ ∧
      ¬ Trimmed ⟨some " foo", none, none, []⟩ := by
  exact ⟨by decide, by decide⟩

end CoreMetadata

end Descriptor
