import Descriptor.Proofs.CoreMetadata.Folding
import Descriptor.Proofs.Text.Lines
import Descriptor.Proofs.Text.Lowercase

/-!
# Headers as they are written

The ways in which a list of headers can be written: the names in any case of the ASCII letters,
blanks around the colons, a value on one line or folded, line feeds with or without carriage
returns, and behind an empty line any text at all. What is read does not depend on any of this.

## Main definitions

* `FoldedHeader` : a header apart from how it is written, its value cut into pieces.
* `HeaderLines` : the lines in which a list of headers can be written.
* `BeginsWith` : the texts that start with given lines.
* `metadataOf` : the metadata that a list of headers amounts to.

## Main results

* `readBlock_map_trimEnd` : blanks at the ends of lines have no meaning.
* `read_of_headerLines` : headers are read back however they are written.
-/

namespace Descriptor.CoreMetadata

open Text

/-! ### Blanks at the end of a line -/

theorem isContinuation_append {line : List Char} (hne : line ≠ []) (more : List Char) :
    isContinuation (line ++ more) = isContinuation line := by
  obtain ⟨c, line, rfl⟩ := List.exists_cons_of_ne_nil hne
  rfl

theorem Header.ofLine?_append_blanks {blanks : List Char} (h : Blanks blanks) (line : List Char) :
    Header.ofLine? (line ++ blanks) = Header.ofLine? line := by
  by_cases hline : ':' ∈ line
  · obtain ⟨front, value, rfl, hfront⟩ := List.eq_append_cons_of_mem hline
    rw [List.append_assoc, List.cons_append, Header.ofLine?_append hfront,
      Header.ofLine?_append hfront, trim_append_blanks h]
  · have hblanks : ':' ∉ blanks := fun hc => absurd (h ':' hc) (by decide)
    have hboth : ':' ∉ line ++ blanks := fun hc => (List.mem_append.mp hc).elim hline hblanks
    rw [Header.ofLine?_eq_none_iff.mpr hline, Header.ofLine?_eq_none_iff.mpr hboth]

/-- Blanks at the ends of lines have no meaning. -/
theorem readBlock_map_trimEnd (headers : List Header) (number : ℕ) (lines : List (List Char)) :
    readBlock headers number (lines.map trimEnd) = readBlock headers number lines := by
  induction lines generalizing headers number with
  | nil => rfl
  | cons line lines ih =>
    have hblank : isBlankText (trimEnd line) = isBlankText line :=
      apply_trimEnd isBlankText_append_blanks line
    have hheader : Header.ofLine? (trimEnd line) = Header.ofLine? line :=
      apply_trimEnd Header.ofLine?_append_blanks line
    have hcontinued (h : Header) : h.continued (trimEnd line) = h.continued line := by
      rw [Header.continued, Header.continued, trim_trimEnd]
    rw [List.map_cons, readBlock_cons, readBlock_cons, hblank, hheader]
    by_cases hempty : isBlankText line = true
    · rw [if_pos hempty, if_pos hempty]
    · -- only of a blank line would the blank that makes it a continuation be cut off
      have hne : trimEnd line ≠ [] := fun hnil =>
        hempty (isBlankText_iff.mpr (trimEnd_eq_nil_iff.mp hnil))
      have hcontinuation : isContinuation (trimEnd line) = isContinuation line := by
        obtain ⟨blanks, -, hline⟩ := trimEnd_decomposition line
        calc isContinuation (trimEnd line) = isContinuation (trimEnd line ++ blanks) :=
              (isContinuation_append hne _).symm
          _ = isContinuation line := by rw [← hline]
      simp only [hcontinuation, hcontinued, ih]

/-! ### Headers and their spellings -/

/-- A text of one line that is not empty and has no outer blanks. -/
structure IsPiece (cs : List Char) : Prop where
  ne_nil : cs ≠ []
  trim_eq : trim cs = cs
  newline_not_mem : '\n' ∉ cs

instance (cs : List Char) : Decidable (IsPiece cs) :=
  decidable_of_iff (cs ≠ [] ∧ trim cs = cs ∧ '\n' ∉ cs)
    ⟨fun ⟨hne, htrim, hnewline⟩ => ⟨hne, htrim, hnewline⟩,
      fun ⟨hne, htrim, hnewline⟩ => ⟨hne, htrim, hnewline⟩⟩

/-- A header apart from how it is written: its name, the first piece of its value, and the pieces
that further lines add. -/
structure FoldedHeader where
  name : List Char
  first : List Char
  more : List (List Char)

namespace FoldedHeader

/-- The name has no colon in it, and the name and every piece fit in a line. -/
structure WellFormed (h : FoldedHeader) : Prop where
  name : IsPiece h.name
  colon_not_mem : ':' ∉ h.name
  piece : ∀ piece ∈ h.first :: h.more, IsPiece piece

instance (h : FoldedHeader) : Decidable h.WellFormed :=
  decidable_of_iff (IsPiece h.name ∧ ':' ∉ h.name ∧ ∀ piece ∈ h.first :: h.more, IsPiece piece)
    ⟨fun ⟨hname, hcolon, hpiece⟩ => ⟨hname, hcolon, hpiece⟩,
      fun ⟨hname, hcolon, hpiece⟩ => ⟨hname, hcolon, hpiece⟩⟩

/-- The value of a header: its pieces, with single spaces between them. -/
def value (h : FoldedHeader) : List Char := [' '].intercalate (h.first :: h.more)

/-- The header that is meant. -/
def header (h : FoldedHeader) : Header := ⟨lowercaseAscii h.name, h.value⟩

/-- Whether a header has a name, which knows no case. -/
def isNamed (key : String) (h : FoldedHeader) : Bool := lowercaseAscii h.name = key.toList

/-- The value of a header as a text. -/
def text (h : FoldedHeader) : String := String.ofList h.value

end FoldedHeader

/-- The metadata that a list of headers amounts to: the first header of each name that is asked for
once, and all the requirements. -/
def metadataOf (hs : List FoldedHeader) : CoreMetadata where
  name := (hs.find? (·.isNamed "name")).map (·.text)
  version := (hs.find? (·.isNamed "version")).map (·.text)
  requiresPython := (hs.find? (·.isNamed "requires-python")).map (·.text)
  requiresDist := (hs.filter (·.isNamed "requires-dist")).map (·.text)

/-- Blanks that stand within a line. -/
def Padding (cs : List Char) : Prop := Blanks cs ∧ '\n' ∉ cs

instance (cs : List Char) : Decidable (Padding cs) := inferInstanceAs (Decidable (_ ∧ _))

/-- The lines in which a header can start: its name, in any case of the ASCII letters, a colon with
blanks around it, and the first piece of its value. -/
inductive NameLine (h : FoldedHeader) : List Char → Prop
  | intro {name before behind : List Char} (hname : lowercaseAscii name = lowercaseAscii h.name)
      (hbefore : Padding before) (hbehind : Padding behind) :
      NameLine h (name ++ before ++ ':' :: (behind ++ h.first))

/-- The lines that add a piece to a value: the piece behind at least one space or tab. -/
inductive PieceLine (piece : List Char) : List Char → Prop
  | intro {c : Char} {indent : List Char} (hindent : ∀ d ∈ c :: indent, d = ' ' ∨ d = '\t') :
      PieceLine piece (c :: indent ++ piece)

/-- The lines in which headers can be written, apart from blanks at their ends. -/
inductive HeaderLines : List FoldedHeader → List (List Char) → Prop
  | nil : HeaderLines [] []
  | cons {h : FoldedHeader} {hs : List FoldedHeader} {line : List Char}
      {more rest : List (List Char)} (hline : NameLine h line)
      (hmore : List.Forall₂ PieceLine h.more more) (hrest : HeaderLines hs rest) :
      HeaderLines (h :: hs) (line :: more ++ rest)

/-- A line feed, or a carriage return and a line feed. -/
inductive IsLineEnd : List Char → Prop
  | lf : IsLineEnd ['\n']
  | crlf : IsLineEnd ['\r', '\n']

/-- The texts that start with given lines. Behind each line stand any blanks and a line end, which
the last line of a text may lack. Behind all of them stands nothing, or an empty line and then any
text whatsoever. -/
inductive BeginsWith : List (List Char) → List Char → Prop
  | nothing : BeginsWith [] []
  | body {e : List Char} (he : IsLineEnd e) (body : List Char) : BeginsWith [] (e ++ body)
  | unended {line blanks : List Char} (hblanks : Padding blanks) :
      BeginsWith [line] (line ++ blanks)
  | ended {line blanks e text : List Char} {lines : List (List Char)} (hblanks : Padding blanks)
      (he : IsLineEnd e) (h : BeginsWith lines text) :
      BeginsWith (line :: lines) (line ++ blanks ++ (e ++ text))

theorem Padding.not_mem {blanks : List Char} (h : Padding blanks) {c : Char}
    (hc : isBlank c = false) : c ∉ blanks := fun hmem => by
  simpa [hc] using h.1 c hmem

namespace IsPiece

theorem exists_cons {cs : List Char} (h : IsPiece cs) :
    ∃ c rest, cs = c :: rest ∧ isBlank c = false := by
  obtain ⟨c, rest, rfl⟩ := List.exists_cons_of_ne_nil h.ne_nil
  exact ⟨c, rest, rfl, not_isBlank_of_trim_eq_self h.trim_eq⟩

/-- A line that starts with a piece continues no header. -/
theorem isContinuation_append {cs : List Char} (h : IsPiece cs) (more : List Char) :
    isContinuation (cs ++ more) = false := by
  obtain ⟨c, rest, rfl, hc⟩ := h.exists_cons
  have hne {d : Char} (hd : isBlank d) : decide (c = d) = false :=
    decide_eq_false fun heq => absurd (heq ▸ hd) (by simp [hc])
  rw [List.cons_append, isContinuation, hne (by decide), hne (by decide), Bool.or_false]

theorem isBlankText_append {cs : List Char} (h : IsPiece cs) (before : List Char) :
    isBlankText (before ++ cs) = false := by
  obtain ⟨c, rest, rfl, hc⟩ := h.exists_cons
  rw [isBlankText, List.all_eq_false]
  exact ⟨c, by simp, by simp [hc]⟩

/-- A piece in another case of its ASCII letters is a piece. -/
theorem of_lowercaseAscii_eq {written cs : List Char} (h : IsPiece cs)
    (heq : lowercaseAscii written = lowercaseAscii cs) : IsPiece written where
  ne_nil := by
    rintro rfl
    exact h.ne_nil (List.map_eq_nil_iff.mp heq.symm)
  trim_eq := trim_eq_self_of_lowercaseAscii_eq heq h.trim_eq
  newline_not_mem := by
    rw [← mem_lowercaseAscii_iff (by decide), heq, mem_lowercaseAscii_iff (by decide)]
    exact h.newline_not_mem

end IsPiece

/-! ### Reading what is written -/

/-- What a line in which a header starts is to the parser. -/
theorem NameLine.spec {h : FoldedHeader} (hwf : h.WellFormed) {line : List Char}
    (hline : NameLine h line) :
    '\n' ∉ line ∧ isContinuation line = false ∧
      ∃ front value, line = front ++ ':' :: value ∧ ':' ∉ front ∧
        lowercaseAscii (trim front) = lowercaseAscii h.name ∧ trim value = h.first := by
  obtain ⟨hname, hbefore, hbehind⟩ := hline
  next name before behind =>
  have hpiece := hwf.name.of_lowercaseAscii_eq hname
  have hfirst := hwf.piece h.first List.mem_cons_self
  have hcolon : ':' ∉ name := by
    rw [← mem_lowercaseAscii_iff (by decide), hname, mem_lowercaseAscii_iff (by decide)]
    exact hwf.colon_not_mem
  refine ⟨?_, ?_, name ++ before, behind ++ h.first, rfl, ?_, ?_, ?_⟩
  · simp [hpiece.newline_not_mem, hbefore.2, hbehind.2, hfirst.newline_not_mem]
  · rw [List.append_assoc, hpiece.isContinuation_append]
  · rw [List.mem_append, not_or]
    exact ⟨hcolon, hbefore.not_mem (by decide)⟩
  · rw [trim_append_blanks hbefore.1, hpiece.trim_eq, hname]
  · rw [trim_blanks_append hbehind.1, hfirst.trim_eq]

theorem PieceLine.spec {piece line : List Char} (hpiece : IsPiece piece)
    (hline : PieceLine piece line) :
    '\n' ∉ line ∧ isContinuation line = true ∧ isBlankText line = false ∧ trim line = piece := by
  obtain ⟨hindent⟩ := hline
  next c indent =>
  have hblanks : Blanks (c :: indent) := fun d hd => by
    rcases hindent d hd with rfl | rfl <;> decide
  have hnewline : '\n' ∉ c :: indent := fun hmem => by
    rcases hindent _ hmem with h | h <;> exact absurd h (by decide)
  refine ⟨?_, ?_, hpiece.isBlankText_append _, ?_⟩
  · rw [List.mem_append, not_or]
    exact ⟨hnewline, hpiece.newline_not_mem⟩
  · rcases hindent c List.mem_cons_self with rfl | rfl <;> rfl
  · rw [trim_blanks_append hblanks, hpiece.trim_eq]

theorem spec_of_pieceLines {pieces lines : List (List Char)} (hpieces : ∀ p ∈ pieces, IsPiece p)
    (h : List.Forall₂ PieceLine pieces lines) :
    lines.map trim = pieces ∧
      ∀ l ∈ lines, '\n' ∉ l ∧ isContinuation l = true ∧ isBlankText l = false := by
  induction h with
  | nil => exact ⟨rfl, fun l hl => absurd hl List.not_mem_nil⟩
  | @cons piece line pieces lines hline _ ih =>
    obtain ⟨hpiece, hpieces⟩ := List.forall_mem_cons.mp hpieces
    obtain ⟨htrim, hlines⟩ := ih hpieces
    obtain ⟨hnewline, hcontinuation, hblank, hline⟩ := hline.spec hpiece
    rw [List.map_cons, hline, htrim, List.forall_mem_cons]
    exact ⟨rfl, ⟨hnewline, hcontinuation, hblank⟩, hlines⟩

/-- The lines of a header make up one that is read as it is meant. -/
theorem NameLine.exists_field {h : FoldedHeader} (hwf : h.WellFormed) {line : List Char}
    (hline : NameLine h line) {more : List (List Char)}
    (hmore : List.Forall₂ PieceLine h.more more) :
    ∃ f : Field, f.lines = line :: more ∧ f.isWhole = true ∧ f.header = h.header := by
  obtain ⟨-, hcontinuation, front, value, rfl, hfront, hname, hvalue⟩ := hline.spec hwf
  obtain ⟨htrim, hlines⟩ :=
    spec_of_pieceLines (fun p hp => hwf.piece p (List.mem_cons_of_mem _ hp)) hmore
  let f : Field :=
    ⟨front ++ ':' :: value, more, ⟨by simp, hcontinuation⟩, fun l hl => (hlines l hl).2.1⟩
  have hwhole : f.isWhole = true := List.all_eq_true.mpr fun l hl => by simp [(hlines l hl).2.2]
  have hfname : f.name = lowercaseAscii h.name := by
    rw [Field.name, takeWhile_ne_append hfront, hname]
  have hfolded : f.folded more = h.value := by
    rw [Field.folded, dropWhile_ne_append hfront, List.tail_cons, hvalue, FoldedHeader.value,
      intercalate_cons_eq_flatMap, ← htrim, List.flatMap_map]
  refine ⟨f, rfl, hwhole, ?_⟩
  rw [Field.header, Field.readLines_of_isWhole hwhole, hfname, FoldedHeader.header, hfolded]

theorem HeaderLines.exists_fields {hs : List FoldedHeader} (hwf : ∀ h ∈ hs, h.WellFormed)
    {lines : List (List Char)} (hlines : HeaderLines hs lines) :
    ∃ fields : List Field, lines = fields.flatMap Field.lines ∧
      (∀ f ∈ fields, f.isWhole = true) ∧ fields.map Field.header = hs.map FoldedHeader.header := by
  induction hlines with
  | nil => exact ⟨[], rfl, by simp, rfl⟩
  | @cons h hs line more rest hline hmore _ ih =>
    obtain ⟨hh, hhs⟩ := List.forall_mem_cons.mp hwf
    obtain ⟨f, hf, hwhole, hheader⟩ := hline.exists_field hh hmore
    obtain ⟨fields, rfl, hall, hmap⟩ := ih hhs
    refine ⟨f :: fields, ?_, List.forall_mem_cons.mpr ⟨hwhole, hall⟩, ?_⟩
    · rw [List.flatMap_cons, hf]
    · rw [List.map_cons, List.map_cons, hheader, hmap]

theorem HeaderLines.isLine {hs : List FoldedHeader} (hwf : ∀ h ∈ hs, h.WellFormed)
    {lines : List (List Char)} (hlines : HeaderLines hs lines) :
    ∀ l ∈ lines, '\n' ∉ l ∧ l ≠ [] := by
  induction hlines with
  | nil => exact fun l hl => absurd hl List.not_mem_nil
  | @cons h hs line more rest hline hmore _ ih =>
    obtain ⟨hh, hhs⟩ := List.forall_mem_cons.mp hwf
    obtain ⟨hnewline, -, front, value, rfl, -⟩ := hline.spec hh
    obtain ⟨-, hpieces⟩ :=
      spec_of_pieceLines (fun p hp => hh.piece p (List.mem_cons_of_mem _ hp)) hmore
    rw [List.cons_append, List.forall_mem_cons, List.forall_mem_append]
    refine ⟨⟨hnewline, by simp⟩, fun l hl => ⟨(hpieces l hl).1, ?_⟩, ih hhs⟩
    rintro rfl
    exact absurd (hpieces [] hl).2.1 (by decide)

/-- A line end is a line feed behind blanks. -/
theorem IsLineEnd.exists_padding {e : List Char} (he : IsLineEnd e) :
    ∃ blanks, Padding blanks ∧ e = blanks ++ ['\n'] := by
  cases he with
  | lf => exact ⟨[], by decide, rfl⟩
  | crlf => exact ⟨['\r'], by decide, rfl⟩

/-- The lines of a text are those that it starts with, apart from blanks at their ends, and then
none at all or an empty one and any others. -/
theorem BeginsWith.exists_hasLines {lines : List (List Char)} {text : List Char}
    (h : BeginsWith lines text) (hlines : ∀ l ∈ lines, '\n' ∉ l ∧ l ≠ []) :
    ∃ ls behind, HasLines ls text ∧ ls.map trimEnd = (lines ++ behind).map trimEnd ∧
      ∀ line ∈ behind.head?, isBlankText line = true := by
  induction h with
  | nothing => exact ⟨[], [], .nil, rfl, by simp⟩
  | @body e he body =>
    obtain ⟨rest, hrest⟩ := Text.exists_hasLines body
    obtain ⟨blanks, ⟨hblanks, hnewline⟩, rfl⟩ := he.exists_padding
    refine ⟨blanks :: rest, [] :: rest, ?_, ?_, by simp [isBlankText]⟩
    · rw [List.append_assoc]
      exact .ended hnewline hrest
    · rw [List.map_cons, trimEnd_eq_nil_iff.mpr hblanks]
      rfl
  | @unended line blanks hblanks =>
    obtain ⟨hnewline, hne⟩ := hlines line List.mem_cons_self
    refine ⟨[line ++ blanks], [], .unended ?_ (by simp [hne]), ?_, by simp⟩
    · simp [hnewline, hblanks.2]
    · simp [trimEnd_append_blanks hblanks.1]
  | @ended line blanks e text lines hblanks he _ ih =>
    obtain ⟨⟨hnewline, -⟩, hlines⟩ := List.forall_mem_cons.mp hlines
    obtain ⟨ls, behind, hls, hmap, hbehind⟩ := ih hlines
    -- the carriage return of a line end is one more blank at the end of the line
    obtain ⟨blanks', hblanks', rfl⟩ := he.exists_padding
    refine ⟨(line ++ blanks ++ blanks') :: ls, behind, ?_, ?_, hbehind⟩
    · have htext : line ++ blanks ++ (blanks' ++ ['\n'] ++ text) =
          line ++ blanks ++ blanks' ++ '\n' :: text := by simp
      rw [htext]
      exact .ended (by simp [hnewline, hblanks.2, hblanks'.2]) hls
    · rw [List.map_cons, hmap, trimEnd_append_blanks hblanks'.1, trimEnd_append_blanks hblanks.1]
      rfl

theorem ofHeaders_header (hs : List FoldedHeader) :
    ofHeaders (hs.map FoldedHeader.header) = metadataOf hs := by
  have hvalues (key : String) : valuesOf (hs.map FoldedHeader.header) key =
      (hs.filter (·.isNamed key)).map FoldedHeader.text := by
    rw [valuesOf, List.filter_map, List.map_map]
    rfl
  simp only [ofHeaders, hvalues, metadataOf, List.head?_map, List.head?_filter]

/-- **Headers are read back however they are written.** Whatever the letter case of the names, the
blanks around the colons, the folding, the line ends, and the text behind an empty line: each header
is read with the pieces of its value joined by single spaces, and the metadata is that of the
headers. -/
theorem read_of_headerLines {hs : List FoldedHeader} (hne : hs ≠ []) (hwf : ∀ h ∈ hs, h.WellFormed)
    {lines : List (List Char)} (hlines : HeaderLines hs lines) {content : String}
    (hcontent : BeginsWith lines content.toList) :
    readHeaders content = .ok (hs.map FoldedHeader.header) ∧
      CoreMetadata.read content = .ok (metadataOf hs) := by
  obtain ⟨fields, hfields, hwhole, hheaders⟩ := hlines.exists_fields hwf
  obtain ⟨ls, behind, hls, hmap, hbehind⟩ := hcontent.exists_hasLines (hlines.isLine hwf)
  have hblock : readBlock [] 1 (Text.lines content.toList) =
      .ok (hs.map FoldedHeader.header).reverse := by
    calc readBlock [] 1 (Text.lines content.toList)
        = readBlock [] 1 ((Text.lines content.toList).map trimEnd) :=
          (readBlock_map_trimEnd ..).symm
      _ = readBlock [] 1 ((lines ++ behind).map trimEnd) := by
          rw [hls.map_lines (apply_dropReturn trimEnd_append_blanks), hmap]
      _ = readBlock [] 1 (fields.flatMap Field.lines ++ behind) := by
          rw [readBlock_map_trimEnd, hfields]
      _ = .ok (hs.map FoldedHeader.header).reverse := by
          rw [readBlock_fields [] 1 fields fun _ _ => readBlock_of_head? _ _ hbehind,
            reached_eq_self hwhole, hheaders, List.append_nil]
  have hread : readHeaders content = .ok (hs.map FoldedHeader.header) :=
    readHeaders_of_readBlock (by simpa using hne) hblock
  exact ⟨hread, by rw [CoreMetadata.read, hread, Except.map, ofHeaders_header]⟩

/-- Three headers, one of which has a value of three pieces. -/
def foldedHeaders : List FoldedHeader :=
  [⟨"Name".toList, "foo".toList, []⟩,
   ⟨"Summary".toList, "A: short".toList, ["and".toList, "simple one".toList]⟩,
   ⟨"Requires-Dist".toList, "bar".toList, []⟩]

/-- The lines of the three headers, with names in other letter case. -/
def foldedLines : List (List Char) :=
  ["NAME :  foo".toList, "summary:A: short".toList, "\tand".toList, "  simple one".toList,
   "Requires-Dist: bar".toList]

/-- A text with the three headers, and with another one behind the empty line. -/
def foldedContent : String :=
  "NAME :  foo\r\nsummary:A: short \n\tand\n  simple one\r\nRequires-Dist: bar\n\r\nName: baz"

theorem headerLines_foldedLines : HeaderLines foldedHeaders foldedLines := by
  have hname : NameLine ⟨"Name".toList, "foo".toList, []⟩ "NAME :  foo".toList :=
    @NameLine.intro _ "NAME".toList [' '] [' ', ' '] (by decide) (by decide) (by decide)
  have hsummary : NameLine
      ⟨"Summary".toList, "A: short".toList, ["and".toList, "simple one".toList]⟩
      "summary:A: short".toList :=
    @NameLine.intro _ "summary".toList [] [] (by decide) (by decide) (by decide)
  have hrequires : NameLine ⟨"Requires-Dist".toList, "bar".toList, []⟩
      "Requires-Dist: bar".toList :=
    @NameLine.intro _ "Requires-Dist".toList [] [' '] (by decide) (by decide) (by decide)
  have hand : PieceLine "and".toList "\tand".toList := @PieceLine.intro _ '\t' [] (by simp)
  have hone : PieceLine "simple one".toList "  simple one".toList :=
    @PieceLine.intro _ ' ' [' '] (by simp)
  exact .cons hname .nil (.cons hsummary (.cons hand (.cons hone .nil)) (.cons hrequires .nil .nil))

theorem beginsWith_foldedContent : BeginsWith foldedLines foldedContent.toList := by
  have hcontent : foldedContent.toList = "NAME :  foo".toList ++ [] ++ (['\r', '\n'] ++
      ("summary:A: short".toList ++ [' '] ++ (['\n'] ++ ("\tand".toList ++ [] ++ (['\n'] ++
        ("  simple one".toList ++ [] ++ (['\r', '\n'] ++ ("Requires-Dist: bar".toList ++ [] ++
          (['\n'] ++ (['\r', '\n'] ++ "Name: baz".toList)))))))))) := by decide
  rw [hcontent]
  exact .ended (by decide) .crlf (.ended (by decide) .lf (.ended (by decide) .lf
    (.ended (by decide) .crlf (.ended (by decide) .lf (.body .crlf _)))))

theorem read_of_headerLines_foldedContent :
    HeaderLines foldedHeaders foldedLines ∧ BeginsWith foldedLines foldedContent.toList ∧
      CoreMetadata.read foldedContent = .ok ⟨some "foo", none, none, ["bar"]⟩ := by
  have hread := read_of_headerLines (by decide) (by decide) headerLines_foldedLines
    beginsWith_foldedContent
  exact ⟨headerLines_foldedLines, beginsWith_foldedContent, hread.2⟩

end Descriptor.CoreMetadata
