import Descriptor.Ini.Document
import Descriptor.Proofs.Ini.Line
import Mathlib.Data.List.Nodup

/-!
# Documents as they are written

The layouts of a configuration document, and the way back. A document is given by its sections, its
options and the pieces of their values; a layout chooses the indentation of every line, the
delimiter behind every key, and where comments and blank lines stand. Whatever it chooses, reading
gives the sections and options in their order, with every value put together from its pieces.

## Main definitions

* `Parts`, `Block` : an option and a section, apart from how they are laid out.
* `MoreLines`, `EntryLines`, `EntriesLines`, `BlockLines`, `DocumentLines` : the lines that spell
  the further pieces of a value, an option, the options of a section, sections, and a document.
* `Draft.Takes` : what reading lines makes of a document under construction.

## Main results

* `MoreLines.takes`, `EntryLines.takes`, `EntriesLines.takes`, `BlockLines.takes` : what the lines
  of each kind add to a document under construction.
* `read_of_documentLines` : reading gives back what was written.
-/

namespace Descriptor.Ini

open Text

/-! ### What is written -/

/-- An option apart from its layout: its key, and its value piece by piece. The first piece stands
on the line of the key, each of the others on a line of its own. -/
structure Parts where
  key : List Char
  first : List Char
  more : List (List Char)

namespace Parts

/-- The value that the pieces amount to. -/
def value (e : Parts) : List Char := ['\n'].intercalate (e.first :: e.more)

/-- The option that is written. -/
def entry (e : Parts) : Entry := ⟨String.ofList e.key, String.ofList e.value⟩

/-- The key can be told from everything else on a line; pieces have no outer blanks, those on lines
of their own are no comments, and the last of these is not empty. -/
@[mk_iff]
structure WellFormed (e : Parts) : Prop where
  key : IsKey e.key
  first : trim e.first = e.first
  more : ∀ piece ∈ e.more, trim piece = piece ∧ startsComment piece = false
  last : ∀ piece ∈ e.more.getLast?, piece ≠ []

instance (e : Parts) : Decidable e.WellFormed := decidable_of_iff _ (wellFormed_iff e).symm

end Parts

/-- A section apart from its layout. -/
structure Block where
  name : List Char
  entries : List Parts

namespace Block

/-- The section that is written. -/
def toSection (b : Block) : Section := ⟨String.ofList b.name, b.entries.map Parts.entry⟩

/-- The name is not empty, and no two options have the same key. -/
@[mk_iff]
structure WellFormed (b : Block) : Prop where
  name : b.name ≠ []
  entries : ∀ e ∈ b.entries, e.WellFormed
  nodup : (b.entries.map Parts.key).Nodup

instance (b : Block) : Decidable b.WellFormed := decidable_of_iff _ (wellFormed_iff b).symm

end Block

/-! ### Layouts -/

/-- Lines that spell the further pieces of a value, each behind an indentation of more bytes than
its option has. A blank line spells an empty piece; comments spell nothing. -/
inductive MoreLines (depth : ℕ) : List (List Char) → List (List Char) → Prop
  | nil : MoreLines depth [] []
  | comment {line : List Char} {pieces lines : List (List Char)} (hline : IsComment line)
      (h : MoreLines depth pieces lines) : MoreLines depth pieces (line :: lines)
  | blank {line : List Char} {pieces lines : List (List Char)} (hline : Blanks line)
      (h : MoreLines depth pieces lines) : MoreLines depth ([] :: pieces) (line :: lines)
  | piece {indent piece : List Char} {pieces lines : List (List Char)} (hindent : Blanks indent)
      (hdepth : depth < byteLength indent) (hne : piece ≠ []) (h : MoreLines depth pieces lines) :
      MoreLines depth (piece :: pieces) ((indent ++ piece) :: lines)

/-- Lines that spell an option at a given depth, with comments and blank lines behind it. -/
inductive EntryLines (depth : ℕ) (e : Parts) : List (List Char) → Prop
  | intro {line : List Char} {lines trivia : List (List Char)}
      (hkey : KeyLine depth e.key e.first line) (hmore : MoreLines depth e.more lines)
      (htrivia : ∀ l ∈ trivia, IsTrivia l) : EntryLines depth e (line :: (lines ++ trivia))

/-- Lines that spell the options of a section, each no deeper than the option before it. -/
inductive EntriesLines : Option ℕ → List Parts → List (List Char) → Prop
  | nil {before : Option ℕ} : EntriesLines before [] []
  | cons {before : Option ℕ} {depth : ℕ} {e : Parts} {es : List Parts}
      {lines rest : List (List Char)} (hdepth : ∀ d ∈ before, depth ≤ d)
      (h : EntryLines depth e lines) (hrest : EntriesLines (some depth) es rest) :
      EntriesLines before (e :: es) (lines ++ rest)

/-- Lines that spell sections: for each its header at the margin, comments and blank lines, and its
options. -/
inductive BlockLines : List Block → List (List Char) → Prop
  | nil : BlockLines [] []
  | cons {b : Block} {bs : List Block} {trivia lines rest : List (List Char)}
      (htrivia : ∀ l ∈ trivia, IsTrivia l) (h : EntriesLines none b.entries lines)
      (hrest : BlockLines bs rest) :
      BlockLines (b :: bs) (('[' :: (b.name ++ [']'])) :: (trivia ++ lines ++ rest))

/-- Lines that spell a document, with comments and blank lines in front. -/
inductive DocumentLines (bs : List Block) : List (List Char) → Prop
  | intro {trivia lines : List (List Char)} (htrivia : ∀ l ∈ trivia, IsTrivia l)
      (h : BlockLines bs lines) : DocumentLines bs (trivia ++ lines)

/-! ### Reading lines into a draft -/

namespace Draft

/-- A draft becomes another one by taking in lines, one after the other. -/
inductive Takes : Draft → List (List Char) → Draft → Prop
  | nil (d : Draft) : Takes d [] d
  | cons {d d' d'' : Draft} {line : List Char} {lines : List (List Char)}
      (h : d.addLine (Line.ofText line) = .ok d') (hrest : Takes d' lines d'') :
      Takes d (line :: lines) d''

theorem Takes.append {d d' d'' : Draft} {lines rest : List (List Char)} (h : Takes d lines d')
    (hrest : Takes d' rest d'') : Takes d (lines ++ rest) d'' := by
  induction h with
  | nil => exact hrest
  | cons hline _ ih => exact .cons hline (ih hrest)

theorem Takes.addLines {d d' : Draft} {lines : List (List Char)} (h : Takes d lines d')
    (number : ℕ) : d.addLines number (lines.map Line.ofText) = .ok d' := by
  induction h generalizing number with
  | nil => rfl
  | cons hline _ ih =>
    rw [List.map_cons, Draft.addLines, hline]
    exact ih (number + 1)

/-- Before the first option of a section, lines that say nothing leave a draft as it is. -/
theorem takes_trivia {lines : List (List Char)} (h : ∀ l ∈ lines, IsTrivia l)
    (sections : List Section) : Takes ⟨sections, none⟩ lines ⟨sections, none⟩ := by
  induction lines with
  | nil => exact .nil _
  | cons line lines ih =>
    refine .cons ?_ (ih fun l hl => h l (List.mem_cons_of_mem line hl))
    rcases h line List.mem_cons_self with hblank | hcomment
    · rw [Line.ofText_of_blanks hblank]
      rfl
    · rw [Line.ofText_of_isComment hcomment]
      rfl

/-! #### The value of an option -/

section Value

variable (name key : String) (entries : List Entry) (sections : List Section) (depth : ℕ)

/-- A draft in which the value of the last option is known so far, up to some blank lines. -/
def withValue (value : List Char) (blanks : ℕ) : Draft :=
  ⟨⟨name, ⟨key, String.ofList value⟩ :: entries⟩ :: sections, some ⟨depth, blanks⟩⟩

/-- Behind an option, lines that say nothing leave its value as it is. -/
theorem withValue_takes_trivia {lines : List (List Char)} (h : ∀ l ∈ lines, IsTrivia l)
    (value : List Char) (blanks : ℕ) :
    ∃ blanks', Takes (withValue name key entries sections depth value blanks) lines
      (withValue name key entries sections depth value blanks') := by
  induction lines generalizing blanks with
  | nil => exact ⟨blanks, .nil _⟩
  | cons line lines ih =>
    have ih := ih fun l hl => h l (List.mem_cons_of_mem line hl)
    rcases h line List.mem_cons_self with hblank | hcomment
    · obtain ⟨blanks', htakes⟩ := ih (blanks + 1)
      refine ⟨blanks', .cons ?_ htakes⟩
      rw [Line.ofText_of_blanks hblank]
      rfl
    · obtain ⟨blanks', htakes⟩ := ih blanks
      refine ⟨blanks', .cons ?_ htakes⟩
      rw [Line.ofText_of_isComment hcomment]
      rfl

/-- The pieces on further lines go behind the value, each on a line of its own. The invariant counts
the blank lines that are pending as a part of the value, so that an empty piece is like any other;
none are pending behind a piece that is not empty. -/
theorem withValue_takes_more {pieces lines : List (List Char)} (h : MoreLines depth pieces lines)
    (hpieces : ∀ piece ∈ pieces, trim piece = piece ∧ startsComment piece = false)
    (hlast : ∀ piece ∈ pieces.getLast?, piece ≠ []) (value : List Char) (blanks : ℕ) :
    ∃ value' blanks', Takes (withValue name key entries sections depth value blanks) lines
        (withValue name key entries sections depth value' blanks') ∧
      value' ++ List.replicate blanks' '\n' =
        value ++ List.replicate blanks '\n' ++ pieces.flatMap ('\n' :: ·) ∧
      (blanks' = 0 ∨ pieces = [] ∧ blanks' = blanks) := by
  induction h generalizing value blanks with
  | nil => exact ⟨value, blanks, .nil _, by simp, .inr ⟨rfl, rfl⟩⟩
  | comment hline _ ih =>
    obtain ⟨value', blanks', htakes, hvalue, hblanks⟩ := ih hpieces hlast value blanks
    refine ⟨value', blanks', .cons ?_ htakes, hvalue, hblanks⟩
    rw [Line.ofText_of_isComment hline]
    rfl
  | @blank line pieces lines hline _ ih =>
    have hne : pieces ≠ [] := by
      rintro rfl
      exact hlast [] rfl rfl
    obtain ⟨value', blanks', htakes, hvalue, hblanks⟩ :=
      ih (fun piece hpiece => hpieces piece (List.mem_cons_of_mem _ hpiece))
        (fun piece hpiece => hlast piece (by rwa [List.getLast?_cons_of_ne_nil hne])) value
        (blanks + 1)
    refine ⟨value', blanks', .cons ?_ htakes, ?_, .inl (hblanks.resolve_right fun h => hne h.1)⟩
    · rw [Line.ofText_of_blanks hline]
      rfl
    · rw [hvalue, List.replicate_succ', List.flatMap_cons]
      simp
  | @piece indent piece pieces lines hindent hdepth hne _ ih =>
    obtain ⟨htrim, hmark⟩ := hpieces piece List.mem_cons_self
    have hlast' : ∀ p ∈ pieces.getLast?, p ≠ [] := fun p hp => by
      cases pieces with
      | nil => simp at hp
      | cons q pieces => exact hlast p (by rwa [List.getLast?_cons_cons])
    obtain ⟨value', blanks', htakes, hvalue, hblanks⟩ :=
      ih (fun p hp => hpieces p (List.mem_cons_of_mem _ hp)) hlast'
        (value ++ (List.replicate (blanks + 1) '\n' ++ piece)) 0
    refine ⟨value', blanks', .cons ?_ htakes, ?_, .inl (hblanks.elim id fun h => h.2)⟩
    · rw [Line.ofText_indented_of_trim_eq_self hindent hne htrim hmark, addLine, withValue]
      dsimp only
      rw [if_pos hdepth, withValue, continuation, extendLast, ← String.ofList_append]
    · rw [hvalue, List.replicate_succ', List.flatMap_cons]
      simp

end Value

/-- A line that is no deeper than the option before it starts a section or an option. -/
theorem addLine_content {sections : List Section} {openEntry : Option OpenEntry} {indent : ℕ}
    (hopen : ∀ o ∈ openEntry, indent ≤ o.indent) (text : List Char) :
    addLine ⟨sections, openEntry⟩ (.content indent text) =
      start ⟨sections, openEntry⟩ indent text := by
  cases openEntry with
  | none => rfl
  | some o => exact if_neg (Nat.not_lt.mpr (hopen o rfl))

end Draft

/-! #### Options, sections and documents -/

open Draft

section Reading

variable (name : String) (sections : List Section)

/-- The lines of an option add it to a section that does not have its key yet. -/
theorem EntryLines.takes {depth : ℕ} {e : Parts} {lines : List (List Char)}
    (h : EntryLines depth e lines) (he : e.WellFormed) {entries : List Entry}
    (hnew : ∀ entry ∈ entries, entry.key ≠ String.ofList e.key) {openEntry : Option OpenEntry}
    (hopen : ∀ o ∈ openEntry, depth ≤ o.indent) :
    ∃ blanks, Takes ⟨⟨name, entries⟩ :: sections, openEntry⟩ lines
      ⟨⟨name, e.entry :: entries⟩ :: sections, some ⟨depth, blanks⟩⟩ := by
  obtain ⟨hkey, hmore, htrivia⟩ := h
  next line lines trivia =>
  obtain ⟨text, htext, hheader, hsplit⟩ := hkey.exists_ofText he.key he.first
  have hunused : (entries.any fun entry => entry.key = String.ofList e.key) = false := by
    simpa using hnew
  have hstart : addLine ⟨⟨name, entries⟩ :: sections, openEntry⟩ (Line.ofText line) =
      .ok (withValue name (String.ofList e.key) entries sections depth e.first 0) := by
    rw [htext, addLine_content hopen, start, hheader]
    dsimp only
    rw [hsplit]
    dsimp only
    rw [hunused]
    rfl
  obtain ⟨value, blanks, htakes, hvalue, hblanks⟩ :=
    withValue_takes_more name (String.ofList e.key) entries sections depth hmore he.more he.last
      e.first 0
  obtain rfl : blanks = 0 := hblanks.elim id fun h => h.2
  obtain rfl : value = e.value := by
    rw [Parts.value, Text.intercalate_cons_eq_flatMap]
    simpa using hvalue
  obtain ⟨blanks', htrivia'⟩ :=
    withValue_takes_trivia name (String.ofList e.key) entries sections depth htrivia e.value 0
  exact ⟨blanks', .cons hstart (htakes.append htrivia')⟩

/-- The lines of the options of a section add them to it, in their order. -/
theorem EntriesLines.takes {before : Option ℕ} {es : List Parts} {lines : List (List Char)}
    (h : EntriesLines before es lines) (hes : ∀ e ∈ es, e.WellFormed)
    (hnodup : (es.map Parts.key).Nodup) (entries : List Entry)
    (hnew : ∀ e ∈ es, ∀ entry ∈ entries, entry.key ≠ String.ofList e.key)
    (openEntry : Option OpenEntry) (hopen : openEntry.map (·.indent) = before) :
    ∃ openEntry', Takes ⟨⟨name, entries⟩ :: sections, openEntry⟩ lines
      ⟨⟨name, (es.map Parts.entry).reverse ++ entries⟩ :: sections, openEntry'⟩ := by
  induction h generalizing entries openEntry with
  | nil => exact ⟨openEntry, .nil _⟩
  | @cons before depth e es lines rest hdepth h _ ih =>
    obtain ⟨hnot, hnodup⟩ := List.nodup_cons.mp hnodup
    have hopen' : ∀ o ∈ openEntry, depth ≤ o.indent := fun o ho =>
      hdepth o.indent (hopen ▸ Option.mem_map_of_mem _ ho)
    obtain ⟨blanks, htakes⟩ :=
      h.takes name sections (hes e List.mem_cons_self) (hnew e List.mem_cons_self) hopen'
    have hnew' : ∀ e' ∈ es, ∀ entry ∈ e.entry :: entries, entry.key ≠ String.ofList e'.key := by
      intro e' he' entry hentry
      rcases List.mem_cons.mp hentry with rfl | hentry
      · intro hsame
        exact hnot (String.ofList_inj.mp hsame ▸ List.mem_map_of_mem he')
      · exact hnew e' (List.mem_cons_of_mem e he') entry hentry
    obtain ⟨openEntry', hrest⟩ :=
      ih (fun e' he' => hes e' (List.mem_cons_of_mem e he')) hnodup _ hnew'
        (some ⟨depth, blanks⟩) rfl
    refine ⟨openEntry', htakes.append ?_⟩
    rw [List.map_cons, List.reverse_cons, List.append_assoc, List.singleton_append]
    exact hrest

end Reading

/-- The lines of sections add them to a draft that has none of their names yet. A draft keeps
options in reverse. -/
theorem BlockLines.takes {bs : List Block} {lines : List (List Char)} (h : BlockLines bs lines)
    (sections : List Section) (hbs : ∀ b ∈ bs, b.WellFormed) (hnodup : (bs.map Block.name).Nodup)
    (hnew : ∀ b ∈ bs, ∀ s ∈ sections, s.name ≠ String.ofList b.name)
    (openEntry : Option OpenEntry) :
    ∃ openEntry', Takes ⟨sections, openEntry⟩ lines
      ⟨(bs.map fun b => ⟨String.ofList b.name, (b.entries.map Parts.entry).reverse⟩).reverse ++
        sections, openEntry'⟩ := by
  induction h generalizing sections openEntry with
  | nil => exact ⟨openEntry, .nil _⟩
  | @cons b bs trivia lines rest htrivia h _ ih =>
    obtain ⟨hnot, hnodup⟩ := List.nodup_cons.mp hnodup
    have hb := hbs b List.mem_cons_self
    have hunused : (sections.any fun s => s.name = String.ofList b.name) = false := by
      simpa using hnew b List.mem_cons_self
    have hstart : addLine ⟨sections, openEntry⟩ (Line.ofText ('[' :: (b.name ++ [']']))) =
        .ok ⟨⟨String.ofList b.name, []⟩ :: sections, none⟩ := by
      rw [Line.ofText_bracketed, addLine_content fun o _ => Nat.zero_le o.indent, start,
        headerName?_bracketed hb.name]
      dsimp only
      rw [hunused]
      rfl
    obtain ⟨openEntry₁, hentries⟩ := h.takes (String.ofList b.name) sections hb.entries hb.nodup []
      (fun _ _ _ hentry => absurd hentry List.not_mem_nil) none rfl
    rw [List.append_nil] at hentries
    have hnew' : ∀ b' ∈ bs, ∀ s ∈ (⟨String.ofList b.name, (b.entries.map Parts.entry).reverse⟩ ::
        sections : List Section), s.name ≠ String.ofList b'.name := by
      intro b' hb' s hs
      rcases List.mem_cons.mp hs with rfl | hs
      · intro hsame
        exact hnot (String.ofList_inj.mp hsame ▸ List.mem_map_of_mem hb')
      · exact hnew b' (List.mem_cons_of_mem b hb') s hs
    obtain ⟨openEntry', hrest⟩ :=
      ih _ (fun b' hb' => hbs b' (List.mem_cons_of_mem b hb')) hnodup hnew' openEntry₁
    refine ⟨openEntry', .cons hstart (((takes_trivia htrivia _).append hentries).append ?_)⟩
    rw [List.map_cons, List.reverse_cons, List.append_assoc, List.singleton_append]
    exact hrest

/-- The lines of a document are read as its sections, in their order. -/
theorem ofLines_of_documentLines {bs : List Block} {lines : List (List Char)}
    (h : DocumentLines bs lines) (hbs : ∀ b ∈ bs, b.WellFormed)
    (hnodup : (bs.map Block.name).Nodup) :
    Document.ofLines (lines.map Line.ofText) = .ok ⟨bs.map Block.toSection⟩ := by
  obtain ⟨htrivia, h⟩ := h
  obtain ⟨openEntry, htakes⟩ :=
    h.takes [] hbs hnodup (fun _ _ _ hs => absurd hs List.not_mem_nil) none
  rw [Document.ofLines, Draft.empty, ((takes_trivia htrivia []).append htakes).addLines 1]
  simp [Except.map, toDocument, Block.toSection, Function.comp_def]

theorem read_eq_ofLines {lines : List (List Char)} {text : String}
    (h : HasLines lines text.toList) :
    Document.read text = Document.ofLines (lines.map Line.ofText) := by
  rw [Document.read, h.map_lines Line.ofText_dropReturn]

/-- **Reading undoes writing.** A text whose lines spell a document reads as the sections of the
document in their order, each with its options in their order, and every value is put together from
its pieces with line feeds between them. -/
theorem read_of_documentLines {bs : List Block} (hbs : ∀ b ∈ bs, b.WellFormed)
    (hnodup : (bs.map Block.name).Nodup) {lines : List (List Char)}
    (hlines : DocumentLines bs lines)
    {text : String} (htext : HasLines lines text.toList) :
    Document.read text = .ok ⟨bs.map Block.toSection⟩ := by
  rw [read_eq_ofLines htext, ofLines_of_documentLines hlines hbs hnodup]

private def listParts : Parts := ⟨"list".toList, [], ["x=1".toList, [], "[y]".toList]⟩

private def bracketParts : Parts := ⟨"k]".toList, "# z".toList, []⟩

/-- A section with brackets in its name, an option with a blank line in its value and one with a
bracket in its key, and a section without options. -/
def sampleBlocks : List Block := [⟨"a]b".toList, [listParts, bracketParts]⟩, ⟨" c".toList, []⟩]

/-- `sampleBlocks`, with a comment inside a value and a key in capitals. -/
def sampleText : String := "[a]b]\n  LIST =\n\t  x=1\n# note\n\n   [y]\n k]: # z\n[ c]"

private def sampleLines : List (List Char) :=
  ["[a]b]".toList, "  LIST =".toList, "\t  x=1".toList, "# note".toList, [], "   [y]".toList,
    " k]: # z".toList, "[ c]".toList]

private theorem listParts_lines : EntryLines 2 listParts
    ["  LIST =".toList, "\t  x=1".toList, "# note".toList, [], "   [y]".toList] := by
  have hkey : KeyLine 2 "list".toList [] "  LIST =".toList :=
    @KeyLine.intro 2 _ [] "  ".toList "LIST".toList " ".toList [] '=' (by decide)
      (by decide) (by decide) (by decide) (by decide) (by decide)
  have hlast : MoreLines 2 ["[y]".toList] ["   [y]".toList] :=
    @MoreLines.piece 2 "   ".toList _ _ _ (by decide) (by decide) (by decide) .nil
  have hnote : IsComment "# note".toList := ⟨[], _, by decide, by decide, rfl⟩
  have hmore : MoreLines 2 ["x=1".toList, [], "[y]".toList]
      ["\t  x=1".toList, "# note".toList, [], "   [y]".toList] :=
    @MoreLines.piece 2 "\t  ".toList _ _ _ (by decide) (by decide) (by decide)
      (.comment hnote (.blank (by decide) hlast))
  exact @EntryLines.intro 2 listParts _ _ [] hkey hmore (by simp)

private theorem bracketParts_lines : EntryLines 1 bracketParts [" k]: # z".toList] := by
  have hkey : KeyLine 1 "k]".toList "# z".toList " k]: # z".toList :=
    @KeyLine.intro 1 _ _ " ".toList "k]".toList [] " ".toList ':'
      (by decide) (by decide) (by decide) (by decide) (by decide)
      (by decide)
  exact @EntryLines.intro 1 bracketParts _ _ [] hkey .nil (by simp)

private theorem sampleLines_documentLines : DocumentLines sampleBlocks sampleLines := by
  have hentries : EntriesLines none [listParts, bracketParts] (["  LIST =".toList,
      "\t  x=1".toList, "# note".toList, [], "   [y]".toList] ++ ([" k]: # z".toList] ++ [])) :=
    .cons (by simp) listParts_lines (.cons (by simp) bracketParts_lines .nil)
  have hnone : ∀ l ∈ ([] : List (List Char)), IsTrivia l := fun l hl => absurd hl List.not_mem_nil
  have hlast : BlockLines [⟨" c".toList, []⟩] ["[ c]".toList] :=
    @BlockLines.cons ⟨" c".toList, []⟩ [] [] [] [] hnone .nil .nil
  exact @DocumentLines.intro sampleBlocks [] sampleLines hnone
    (@BlockLines.cons ⟨"a]b".toList, [listParts, bracketParts]⟩ _ [] _ _ hnone hentries hlast)

private theorem sampleText_hasLines : HasLines sampleLines sampleText.toList :=
  .ended (by decide) <| .ended (by decide) <| .ended (by decide) <| .ended (by decide) <|
    .ended (by decide) <| .ended (by decide) <| .ended (by decide) <|
    .unended (by decide) (by decide)

theorem read_of_documentLines_sampleText :
    (∀ b ∈ sampleBlocks, b.WellFormed) ∧ (sampleBlocks.map Block.name).Nodup ∧
      DocumentLines sampleBlocks sampleLines ∧ HasLines sampleLines sampleText.toList ∧
      Document.read sampleText = .ok ⟨sampleBlocks.map Block.toSection⟩ :=
  ⟨by decide, by decide, sampleLines_documentLines, sampleText_hasLines,
    read_of_documentLines (by decide) (by decide) sampleLines_documentLines sampleText_hasLines⟩

end Descriptor.Ini
