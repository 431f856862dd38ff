import Descriptor.Proofs.Text.Ascii
import Descriptor.Proofs.Toml.Quoted
import Descriptor.Toml.Document

/-!
# Written lines read back

A line that gives a key a text or a list of texts is read as just that, whatever characters the key
and the texts have, and whatever line stands behind it. So a file that has such lines only is read
as the keys with their values, in order, as long as no key occurs twice; and behind the header of a
table they are read into that table, and into no other.

## Main definitions

* `Leaf` : what is written under a key.
* `linesText`, `entriesOf` : lines as they are written, and what they say.
* `Draft.take?` : what a line does to a file under construction.

## Main results

* `readKeys?_writeKey`, `readValue?_written` : keys and values are read back.
* `readLines?_linesText` : lines do one after the other what each of them does.
* `readDocument?_lines`, `readDocument?_table` : files of lines, without and with a table behind.
-/

namespace Descriptor.Toml

variable {c : Char} {cs rest : List Char}

/-! ### Layout -/

/-- A character that is neither blank nor starts a comment or the end of a line. -/
structure StartsContent (c : Char) : Prop where
  space : isSpace c = false
  comment : c ≠ '#'
  line : c ≠ '\n'
  feed : c ≠ '\r'

theorem skipSpace_cons (h : isSpace c = false) (cs : List Char) : skipSpace (c :: cs) = c :: cs :=
  List.dropWhile_cons_of_neg (by simp [h])

theorem skipSpace_replicate (n : Nat) (cs : List Char) :
    skipSpace (List.replicate n ' ' ++ cs) = skipSpace cs :=
  List.dropWhile_append_of_pos fun c hc => by
    obtain rfl := List.eq_of_mem_replicate hc
    rfl

theorem skipToEnd?_newline (cs : List Char) : skipToEnd? ('\n' :: cs) = some ('\n' :: cs) := rfl

theorem endOfLine?_newline (cs : List Char) : endOfLine? ('\n' :: cs) = some cs := rfl

namespace StartsContent

variable (h : StartsContent c)

include h

theorem skipToEnd?_spaces (n : Nat) (cs : List Char) :
    skipToEnd? (List.replicate n ' ' ++ c :: cs) = some (c :: cs) := by
  rw [skipToEnd?, skipSpace_replicate, skipSpace_cons h.space]
  split
  · next heq => exact absurd (List.cons.inj heq).1 h.comment
  · rfl

theorem lineEnd?_eq (cs : List Char) : lineEnd? (c :: cs) = none := by
  rw [lineEnd?]
  · exact fun _ heq => h.line (List.cons.inj heq).1
  · exact fun _ heq => h.feed (List.cons.inj heq).1

theorem skipLines?_spaces (fuel n : Nat) (cs : List Char) :
    skipLines? (fuel + 1) (List.replicate n ' ' ++ c :: cs) = some (c :: cs) := by
  rw [skipLines?, h.skipToEnd?_spaces, Option.bind_eq_bind, Option.bind_some, h.lineEnd?_eq]

/-- Nothing is passed over where content starts. -/
theorem skipTrivia?_eq (cs : List Char) : skipTrivia? (c :: cs) = some (c :: cs) :=
  h.skipLines?_spaces _ 0 cs

/-- The end of a line and the blanks that the next one starts with are passed over. -/
theorem skipTrivia?_newline (n : Nat) (cs : List Char) :
    skipTrivia? ('\n' :: (List.replicate n ' ' ++ c :: cs)) = some (c :: cs) := by
  rw [skipTrivia?, List.length_cons, skipLines?, skipToEnd?_newline, Option.bind_eq_bind,
    Option.bind_some]
  exact h.skipLines?_spaces _ n cs

end StartsContent

/-! ### Keys -/

/-- The characters that texts start with as they are written. -/
inductive IsQuote : Char → Prop
  | basic : IsQuote '"'
  | literal : IsQuote '\''

theorem IsQuote.startsContent (h : IsQuote c) : StartsContent c := by
  cases h <;> exact ⟨rfl, by decide, by decide, by decide⟩

theorem IsQuote.isBareChar (h : IsQuote c) : isBareChar c = false := by
  cases h <;> rfl

theorem exists_cons_of_writeStyle (cs : List Char) (style : Style) :
    ∃ c tail, writeStyle cs style = c :: tail ∧ IsQuote c := by
  cases style
  · exact ⟨_, _, rfl, .basic⟩
  · exact ⟨_, _, rfl, .literal⟩
  · exact ⟨_, _, rfl, .basic⟩
  · exact ⟨_, _, rfl, .literal⟩

/-- A key as it is written: as it is, or quoted on one line. -/
theorem writeKey_spec (s : String) :
    (s.toList ≠ [] ∧ (∀ c ∈ s.toList, isBareChar c = true) ∧ writeKey s = s.toList) ∨
      writeKey s = writeStyle s.toList .basic ∨
      Suits s.toList .literal ∧ writeKey s = writeStyle s.toList .literal := by
  simp only [writeKey]
  split_ifs with hbare hbasic hliteral
  · exact .inl (by simpa using hbare)
  · exact .inr (.inl rfl)
  · refine .inr (.inr ⟨fun c hc => ?_, rfl⟩)
    simp only [Bool.and_eq_true, Bool.not_eq_true', List.any_eq_false, Bool.or_eq_true,
      decide_eq_true_eq, not_or, Bool.not_eq_true, List.contains_eq_mem,
      decide_eq_false_iff_not] at hliteral
    exact ⟨(hliteral.1 c hc).1, (hliteral.1 c hc).2, ne_of_mem_of_not_mem hc hliteral.2⟩
  · exact .inr (.inl rfl)

theorem ne_of_isBareChar {d : Char} (h : isBareChar c = true) (hd : isBareChar d = false) :
    c ≠ d := by
  rintro rfl
  exact Bool.noConfusion (h.symm.trans hd)

theorem startsContent_of_isBareChar (h : isBareChar c = true) : StartsContent c where
  space := by
    have hspace : c ≠ ' ' := ne_of_isBareChar h rfl
    have htab : c ≠ '\t' := ne_of_isBareChar h rfl
    simp [isSpace, hspace, htab]
  comment := ne_of_isBareChar h rfl
  line := ne_of_isBareChar h rfl
  feed := ne_of_isBareChar h rfl

/-- The first character of a key. -/
theorem exists_cons_of_writeKey (s : String) :
    ∃ c tail, writeKey s = c :: tail ∧ StartsContent c ∧ c ≠ '[' ∧ c ≠ '\ufeff' := by
  have hstyle (style : Style) : ∃ c tail, writeStyle s.toList style = c :: tail ∧
      StartsContent c ∧ c ≠ '[' ∧ c ≠ '\ufeff' := by
    obtain ⟨c, tail, htext, hquote⟩ := exists_cons_of_writeStyle s.toList style
    refine ⟨c, tail, htext, hquote.startsContent, ?_⟩
    cases hquote <;> decide
  obtain ⟨hne, hbare, htext⟩ | htext | ⟨-, htext⟩ := writeKey_spec s
  · obtain ⟨c, tail, hcs⟩ := List.exists_cons_of_ne_nil hne
    have hc : isBareChar c = true := hbare c (hcs ▸ List.mem_cons_self)
    exact ⟨c, tail, htext.trans hcs, startsContent_of_isBareChar hc, ne_of_isBareChar hc rfl,
      ne_of_isBareChar hc rfl⟩
  · exact htext ▸ hstyle .basic
  · exact htext ▸ hstyle .literal

theorem readKey?_quoted (s : String) {style : Style}
    (h : readShort? (writeStyle s.toList style ++ rest) = some (s.toList, rest)) :
    readKey? (writeStyle s.toList style ++ rest) = some (s, rest) := by
  obtain ⟨c, tail, htext, hquote⟩ := exists_cons_of_writeStyle s.toList style
  have hc : (decide (c = '"') || decide (c = '\'')) = true := by cases hquote <;> rfl
  rw [htext, List.cons_append] at h ⊢
  rw [readKey?, if_pos hc, h]
  simp

/-- A key is read back, unless it is continued by what follows. -/
theorem readKey?_writeKey (s : String) (hrest : ∀ c ∈ rest.head?, isBareChar c = false) :
    readKey? (writeKey s ++ rest) = some (s, rest) := by
  obtain ⟨hne, hbare, htext⟩ | htext | ⟨hsuits, htext⟩ := writeKey_spec s
  · obtain ⟨c, tail, hcs⟩ := List.exists_cons_of_ne_nil hne
    have hc : isBareChar c = true := hbare c (hcs ▸ List.mem_cons_self)
    have hquote : ¬(decide (c = '"') || decide (c = '\'')) = true := by
      have hbasic : c ≠ '"' := ne_of_isBareChar hc rfl
      have hliteral : c ≠ '\'' := ne_of_isBareChar hc rfl
      simp [hbasic, hliteral]
    have hbehind : rest.takeWhile isBareChar = [] ∧ rest.dropWhile isBareChar = rest := by
      cases rest with
      | nil => exact ⟨rfl, rfl⟩
      | cons d rest => simp [hrest d rfl]
    rw [htext, hcs, List.cons_append, readKey?, if_neg hquote, if_pos hc, ← List.cons_append, ← hcs,
      List.takeWhile_append_of_pos hbare, List.dropWhile_append_of_pos hbare, hbehind.1, hbehind.2,
      List.append_nil, String.ofList_toList]
  · rw [htext]
    refine readKey?_quoted s ?_
    simp only [writeStyle, List.cons_append, List.append_assoc, List.nil_append]
    rw [readShort?, readBasic?_written]
  · rw [htext]
    refine readKey?_quoted s ?_
    simp only [writeStyle, List.cons_append, List.append_assoc, List.nil_append]
    rw [readShort?, readLiteral?_written hsuits]

/-- A key without dots is read back with the blanks behind it. -/
theorem readKeys?_writeKey (s : String) (rest : List Char)
    (hrest : ∀ c ∈ rest.head?, isBareChar c = false)
    (hdot : (skipSpace rest).head? ≠ some '.') :
    readKeys? (writeKey s ++ rest) = some ([s], skipSpace rest) := by
  obtain ⟨c, tail, htext, hc, -⟩ := exists_cons_of_writeKey s
  have hspace : skipSpace (writeKey s ++ rest) = writeKey s ++ rest := by
    rw [htext, List.cons_append, skipSpace_cons hc.space]
  rw [readKeys?, readKeyParts?, hspace, readKey?_writeKey s hrest, Option.bind_eq_bind,
    Option.bind_some]
  simp only
  split
  · next heq => exact absurd (heq ▸ rfl) hdot
  · rfl

/-! ### Values -/

/-- What is written under a key: a text, or a list of texts. -/
inductive Leaf where
  | text (value : String)
  | texts (values : List String)
  deriving DecidableEq, Repr

/-- The value that is written. -/
def Leaf.value : Leaf → Value
  | text s => .text s
  | texts values => .array (values.map .text)

/-- A value as it is written. -/
def Leaf.written : Leaf → List Char
  | text s => writeText s
  | texts values => writeTexts values

theorem exists_cons_of_writeText (s : String) :
    ∃ c tail, writeText s = c :: tail ∧ IsQuote c :=
  exists_cons_of_writeStyle s.toList (styleOf s.toList)

theorem readValue?_writeText (fuel depth : Nat) (s : String) (rest : List Char)
    (hbasic : rest.head? ≠ some '"') (hliteral : rest.head? ≠ some '\'') :
    readValue? (fuel + 1) depth (writeText s ++ rest) = some (.text s, rest) := by
  have hread := readQuoted?_writeText s hbasic hliteral
  obtain ⟨c, tail, htext, hquote⟩ := exists_cons_of_writeText s
  have hc : (decide (c = '"') || decide (c = '\'')) = true := by cases hquote <;> rfl
  rw [htext, List.cons_append] at hread ⊢
  rw [readValue?, if_pos hc, hread]
  · simp
  · rintro rfl
    cases hquote
  · rintro rfl
    cases hquote

/-- An element of a list that has a line for each is read, with its comma. -/
theorem readElements?_line (fuel depth : Nat) (s : String) (rest : List Char) :
    readElements? (fuel + 2) depth ('\n' :: (writeElement s ++ rest)) =
      (readElements? (fuel + 1) depth ('\n' :: rest)).map fun (vs, rest) =>
        (.text s :: vs, rest) := by
  obtain ⟨c, tail, htext, hquote⟩ := exists_cons_of_writeText s
  have hcomma : StartsContent ',' := ⟨rfl, by decide, by decide, by decide⟩
  have hread := readValue?_writeText fuel depth s (',' :: '\n' :: rest) (by simp) (by simp)
  have hline : writeElement s ++ rest =
      List.replicate 4 ' ' ++ (writeText s ++ ',' :: '\n' :: rest) := by
    simp [writeElement]
  rw [htext, List.cons_append] at hread
  rw [hline, htext, List.cons_append, readElements?, hquote.startsContent.skipTrivia?_newline]
  simp only [Option.bind_eq_bind, Option.bind_some]
  split
  · next heq =>
    obtain rfl := (List.cons.inj heq).1
    cases hquote
  · rw [hread, Option.bind_some]
    simp only [hcomma.skipTrivia?_eq, Option.bind_some]

/-- The elements of a list that has a line for each are read up to its closing bracket. -/
theorem readElements?_lines (fuel depth : Nat) (values : List String) (rest : List Char) :
    readElements? (values.length + fuel + 1) depth
      ('\n' :: (values.flatMap writeElement ++ ']' :: rest)) =
        some (values.map .text, rest) := by
  induction values with
  | nil =>
    have hclose : StartsContent ']' := ⟨rfl, by decide, by decide, by decide⟩
    have hskip : skipTrivia? ('\n' :: ']' :: rest) = some (']' :: rest) :=
      hclose.skipTrivia?_newline 0 rest
    rw [readElements?, List.flatMap_nil, List.nil_append, hskip]
    rfl
  | cons s values ih =>
    have hfuel : (s :: values).length + fuel + 1 = values.length + fuel + 2 := by
      rw [List.length_cons]
      omega
    rw [hfuel, List.flatMap_cons, List.append_assoc, readElements?_line, ih]
    rfl

/-- A list on one line is read up to its closing bracket. -/
theorem readElements?_single (fuel depth : Nat) (s : String) (rest : List Char) :
    readElements? (fuel + 2) depth (writeText s ++ ']' :: rest) = some ([.text s], rest) := by
  obtain ⟨c, tail, htext, hquote⟩ := exists_cons_of_writeText s
  have hclose : StartsContent ']' := ⟨rfl, by decide, by decide, by decide⟩
  have hread := readValue?_writeText fuel depth s (']' :: rest) (by simp) (by simp)
  rw [htext, List.cons_append] at hread ⊢
  rw [readElements?, hquote.startsContent.skipTrivia?_eq]
  simp only [Option.bind_eq_bind, Option.bind_some]
  split
  · next heq =>
    obtain rfl := (List.cons.inj heq).1
    cases hquote
  · rw [hread, Option.bind_some]
    simp only [hclose.skipTrivia?_eq, Option.bind_some]

theorem readValue?_bracket (fuel depth : Nat) (cs : List Char) :
    readValue? (fuel + 1) (depth + 1) ('[' :: cs) =
      (readElements? fuel depth cs).map fun (es, rest) => (.array es, rest) := by
  rw [readValue?, if_neg (Nat.succ_ne_zero depth), Nat.add_sub_cancel]

theorem length_writeElement_pos (s : String) : 0 < (writeElement s).length := by
  simp [writeElement]

theorem length_le_length_flatMap {α β : Type} {f : α → List β} (hf : ∀ a, 0 < (f a).length)
    (as : List α) : as.length ≤ (as.flatMap f).length := by
  induction as with
  | nil => exact Nat.le_refl 0
  | cons a as ih =>
    have ha := hf a
    rw [List.flatMap_cons, List.length_append, List.length_cons]
    omega

theorem writeTexts_cons_cons (s s' : String) (values : List String) :
    writeTexts (s :: s' :: values) =
      '[' :: '\n' :: ((s :: s' :: values).flatMap writeElement ++ [']']) :=
  rfl

/-- A list of texts is read back. -/
theorem readValue?_writeTexts {fuel : Nat} (depth : Nat) (values : List String) (rest : List Char)
    (hfuel : (writeTexts values).length < fuel) :
    readValue? fuel (depth + 1) (writeTexts values ++ rest) =
      some (.array (values.map .text), rest) := by
  rcases values with _ | ⟨s, _ | ⟨s', values⟩⟩
  · have hclose : StartsContent ']' := ⟨rfl, by decide, by decide, by decide⟩
    obtain ⟨fuel, rfl⟩ := Nat.exists_eq_add_of_le' (m := 2) (Nat.le_of_lt hfuel)
    rw [writeTexts, List.cons_append, readValue?_bracket, List.cons_append, List.nil_append,
      readElements?, hclose.skipTrivia?_eq]
    rfl
  · have hthree : 3 ≤ fuel := by
      simp only [writeTexts, List.length_cons, List.length_append, List.length_nil] at hfuel
      omega
    obtain ⟨fuel, rfl⟩ := Nat.exists_eq_add_of_le' hthree
    rw [writeTexts, List.cons_append, List.append_assoc, readValue?_bracket, List.cons_append,
      List.nil_append, readElements?_single]
    rfl
  · have hlength := length_le_length_flatMap length_writeElement_pos (s :: s' :: values)
    rw [writeTexts_cons_cons] at hfuel ⊢
    generalize s :: s' :: values = values at hfuel hlength ⊢
    simp only [List.length_cons, List.length_append, List.length_nil] at hfuel
    obtain ⟨more, rfl⟩ : ∃ more, fuel = values.length + more + 1 + 1 :=
      ⟨fuel - (values.length + 2), by omega⟩
    rw [List.cons_append, List.cons_append, List.append_assoc, List.cons_append, List.nil_append,
      readValue?_bracket, readElements?_lines]
    rfl

/-- What is written under a key is read back at the end of its line. -/
theorem Leaf.readValue?_written (leaf : Leaf) (fuel depth : Nat) (rest : List Char)
    (hfuel : leaf.written.length < fuel) :
    readValue? fuel (depth + 1) (leaf.written ++ '\n' :: rest) =
      some (leaf.value, '\n' :: rest) := by
  cases leaf with
  | text s =>
    obtain ⟨fuel, rfl⟩ := Nat.exists_eq_add_of_lt hfuel
    exact readValue?_writeText _ _ s _ (by simp) (by simp)
  | texts values => exact readValue?_writeTexts depth values _ hfuel

/-! ### Lines -/

/-- A line as it is written. -/
def lineText (line : String × Leaf) : List Char := writeEntry line.1 line.2.written

/-- Lines as they are written. -/
def linesText (lines : List (String × Leaf)) : List Char := lines.flatMap lineText

/-- What a line says. -/
def entryOf (line : String × Leaf) : String × Value := (line.1, line.2.value)

/-- What lines say. -/
def entriesOf (lines : List (String × Leaf)) : Entries := lines.map entryOf

/-- A file under construction, with what a line says. -/
def Draft.take? (d : Draft) (line : String × Leaf) : Option Draft :=
  (d.root.assignIn? d.path line.2.value [line.1]).map fun root => ⟨root, d.path⟩

/-- The first character of a line. -/
theorem exists_cons_of_lineText (line : String × Leaf) :
    ∃ c tail, lineText line = c :: tail ∧ StartsContent c ∧ c ≠ '[' ∧ c ≠ '\ufeff' := by
  obtain ⟨c, tail, htext, hc⟩ := exists_cons_of_writeKey line.1
  exact ⟨c, _, by rw [lineText, writeEntry, htext]; rfl, hc⟩

/-- A line says what is written under its key. -/
theorem readAssignment?_lineText (d : Draft) (line : String × Leaf) (rest : List Char) :
    readAssignment? d (lineText line ++ rest) = (d.take? line).map fun d => (d, rest) := by
  obtain ⟨c, tail, htext, hc⟩ : ∃ c tail, line.2.written = c :: tail ∧ isSpace c = false := by
    obtain ⟨key, s | values⟩ := line
    · obtain ⟨c, tail, htext, hquote⟩ := exists_cons_of_writeText s
      exact ⟨c, tail, htext, hquote.startsContent.space⟩
    · rcases values with _ | ⟨s, _ | ⟨s', values⟩⟩ <;> exact ⟨'[', _, rfl, rfl⟩
  let behind := line.2.written ++ '\n' :: rest
  have hline : lineText line ++ rest = writeKey line.1 ++ ' ' :: '=' :: ' ' :: behind := by
    simp [lineText, writeEntry, behind]
  have hequals : skipSpace (' ' :: '=' :: ' ' :: behind) = '=' :: ' ' :: behind := rfl
  have hkeys := readKeys?_writeKey line.1 (' ' :: '=' :: ' ' :: behind)
    (by simp [isBareChar]) (by simp [hequals])
  have hafter : afterEquals? ('=' :: ' ' :: behind) = some behind := by
    rw [afterEquals?, skipSpace, List.dropWhile_cons_of_pos rfl]
    simp only [behind, htext, List.cons_append]
    rw [List.dropWhile_cons_of_neg (by simp [hc])]
  have hvalue := line.2.readValue?_written (2 * ('=' :: ' ' :: behind).length + 1)
    (nestingLimit - 1) rest (by simp only [behind, List.length_cons, List.length_append]; omega)
  rw [readAssignment?, hline, hkeys, hequals]
  simp only [Option.bind_eq_bind, Option.bind_some, hafter]
  rw [show nestingLimit = nestingLimit - 1 + 1 from rfl, hvalue]
  simp only [Option.bind_some, endOfLine?_newline, Draft.take?]
  cases d.root.assignIn? d.path line.2.value [line.1] <;> rfl

theorem readLine?_lineText (d : Draft) (line : String × Leaf) (rest : List Char) :
    readLine? d (lineText line ++ rest) = (d.take? line).map fun d => (d, rest) := by
  rw [← readAssignment?_lineText]
  obtain ⟨c, tail, htext, -, hc, -⟩ := exists_cons_of_lineText line
  rw [htext, List.cons_append, readLine?]
  · exact fun _ heq => hc (List.cons.inj heq).1
  · exact fun _ heq => hc (List.cons.inj heq).1

/-- Lines do one after the other what each of them does. -/
theorem readLines?_linesText {d d' : Draft} {lines : List (String × Leaf)}
    (h : lines.foldlM Draft.take? d = some d') (fuel : Nat) (rest : List Char) :
    readLines? (lines.length + fuel) d (linesText lines ++ rest) = readLines? fuel d' rest := by
  induction lines generalizing d with
  | nil =>
    obtain rfl := Option.some.inj h
    rw [List.length_nil, Nat.zero_add]
    rfl
  | cons line lines ih =>
    rw [List.foldlM_cons, Option.bind_eq_bind, Option.bind_eq_some_iff] at h
    obtain ⟨next, hnext, htail⟩ := h
    obtain ⟨c, tail, htext, hc, -⟩ := exists_cons_of_lineText line
    have hline := readLine?_lineText d line (linesText lines ++ rest)
    have hcons : linesText (line :: lines) ++ rest =
        lineText line ++ (linesText lines ++ rest) := by
      rw [linesText, List.flatMap_cons, List.append_assoc, linesText]
    rw [htext, List.cons_append, hnext, Option.map_some] at hline
    rw [hcons, htext, List.cons_append, List.length_cons, Nat.add_right_comm, readLines?,
      hc.skipTrivia?_eq]
    simp only [Option.bind_eq_bind, Option.bind_some, hline, ih htail]

/-! ### Tables -/

variable {root inner : Entries} {name : String}

theorem Entries.find?_eq_none {entries : Entries} {key : String} (h : key ∉ entries.map (·.1)) :
    entries.find? (·.1 = key) = none := by
  refine List.find?_eq_none.mpr fun e he => ?_
  have hne : e.1 ≠ key := ne_of_mem_of_not_mem (List.mem_map_of_mem he) h
  simpa using hne

theorem Entries.get?_eq_none {entries : Entries} {key : String} (h : key ∉ entries.map (·.1)) :
    entries.get? key = none := by
  rw [Entries.get?, Entries.find?_eq_none h, Option.map_none]

theorem Entries.get?_concat {entries : Entries} {key : String} (h : key ∉ entries.map (·.1))
    (value : Value) : Entries.get? (entries ++ [(key, value)]) key = some value := by
  rw [Entries.get?, List.find?_append, Entries.find?_eq_none h]
  simp

theorem Entries.get?_concat_of_ne {key other : String} (h : key ≠ other) (entries : Entries)
    (value : Value) : Entries.get? (entries ++ [(other, value)]) key = entries.get? key := by
  rw [Entries.get?, Entries.get?, List.find?_append]
  simp [h.symm]

theorem Entries.put_of_notMem {entries : Entries} {key : String} (h : key ∉ entries.map (·.1))
    (value : Value) : entries.put key value = entries ++ [(key, value)] := by
  induction entries with
  | nil => rfl
  | cons e entries ih =>
    obtain ⟨he, hentries⟩ := List.ne_and_not_mem_of_not_mem_cons h
    rw [Entries.put, if_neg he.symm, ih hentries, List.cons_append]

theorem Entries.put_concat {entries : Entries} {key : String} (h : key ∉ entries.map (·.1))
    (before value : Value) :
    Entries.put key value (entries ++ [(key, before)]) = entries ++ [(key, value)] := by
  induction entries with
  | nil => simp [Entries.put]
  | cons e entries ih =>
    obtain ⟨he, hentries⟩ := List.ne_and_not_mem_of_not_mem_cons h
    rw [List.cons_append, Entries.put, if_neg he.symm, ih hentries, List.cons_append]

theorem Entries.assign?_single {entries : Entries} {key : String} (h : key ∉ entries.map (·.1))
    (value : Value) : entries.assign? value [key] = some (entries ++ [(key, value)]) := by
  rw [Entries.assign?, Entries.get?_eq_none h]
  rfl

theorem map_fst_entriesOf (lines : List (String × Leaf)) :
    (entriesOf lines).map (·.1) = lines.map (·.1) := by
  rw [entriesOf, List.map_map]
  rfl

/-- Lines with keys of their own add to the root table what they say. -/
theorem foldlM_take?_root {lines : List (String × Leaf)}
    (h : (root.map (·.1) ++ lines.map (·.1)).Nodup) :
    lines.foldlM Draft.take? ⟨root, []⟩ = some ⟨root ++ entriesOf lines, []⟩ := by
  induction lines generalizing root with
  | nil => simp [entriesOf]
  | cons line lines ih =>
    have hkey : line.1 ∉ root.map (·.1) := fun hmem =>
      (List.nodup_append.mp h).2.2 _ hmem _ List.mem_cons_self rfl
    have htake : Draft.take? ⟨root, []⟩ line = some ⟨root ++ [entryOf line], []⟩ := by
      simp only [Draft.take?, Entries.assignIn?, List.isEmpty_nil, if_true,
        Entries.assign?_single hkey, Option.map_some, entryOf]
    have hnext : ((root ++ [entryOf line]).map (·.1) ++ lines.map (·.1)).Nodup := by
      simpa [entryOf] using h
    rw [List.foldlM_cons, htake, Option.bind_eq_bind, Option.bind_some, ih hnext]
    simp [entriesOf]

/-- Lines with keys of their own add what they say to the table that they stand in, and to no
other. -/
theorem foldlM_take?_table {lines : List (String × Leaf)} (hname : name ∉ root.map (·.1))
    (h : (inner.map (·.1) ++ lines.map (·.1)).Nodup) :
    lines.foldlM Draft.take? ⟨root ++ [(name, .table .header inner)], [name]⟩ =
      some ⟨root ++ [(name, .table .header (inner ++ entriesOf lines))], [name]⟩ := by
  induction lines generalizing inner with
  | nil => simp [entriesOf]
  | cons line lines ih =>
    have hkey : line.1 ∉ inner.map (·.1) := fun hmem =>
      (List.nodup_append.mp h).2.2 _ hmem _ List.mem_cons_self rfl
    have htake : Draft.take? ⟨root ++ [(name, .table .header inner)], [name]⟩ line =
        some ⟨root ++ [(name, .table .header (inner ++ [entryOf line]))], [name]⟩ := by
      simp only [Draft.take?, Entries.assignIn?, List.isEmpty_cons, Bool.false_eq_true, if_false,
        Entries.alter?, Entries.get?_concat hname, Entries.assign?_single hkey, Option.map_some,
        Entries.put_concat hname, entryOf]
    have hnext : ((inner ++ [entryOf line]).map (·.1) ++ lines.map (·.1)).Nodup := by
      simpa [entryOf] using h
    rw [List.foldlM_cons, htake, Option.bind_eq_bind, Option.bind_some, ih hnext]
    simp [entriesOf]

/-- The header of a table behind an empty line. -/
def headerText (name : String) : List Char := '\n' :: '[' :: (writeKey name ++ [']', '\n'])

/-- A header opens a table behind what was read before. -/
theorem readLines?_headerText (fuel : Nat) {path : List String} (hname : name ∉ root.map (·.1))
    (rest : List Char) :
    readLines? (fuel + 1) ⟨root, path⟩ (headerText name ++ rest) =
      readLines? fuel ⟨root ++ [(name, .table .header [])], [name]⟩ rest := by
  have hbracket : StartsContent '[' := ⟨rfl, by decide, by decide, by decide⟩
  have hskip (cs : List Char) : skipTrivia? ('\n' :: '[' :: cs) = some ('[' :: cs) :=
    hbracket.skipTrivia?_newline 0 cs
  have hclose : skipSpace (']' :: '\n' :: rest) = ']' :: '\n' :: rest := rfl
  have hkeys := readKeys?_writeKey name (']' :: '\n' :: rest) (by simp [isBareChar])
    (by simp [hclose])
  have hdefine : Entries.define? root [name] = some (root ++ [(name, .table .header [])]) := by
    simp only [Entries.define?, Entries.alter?, Entries.get?_eq_none hname, Option.map_some,
      Entries.put_of_notMem hname]
  obtain ⟨c, tail, htext, -, hc, -⟩ := exists_cons_of_writeKey name
  have hline : readLine? ⟨root, path⟩ ('[' :: (writeKey name ++ ']' :: '\n' :: rest)) =
      readHeader? ⟨root, path⟩ (writeKey name ++ ']' :: '\n' :: rest) := by
    rw [htext, List.cons_append, readLine?]
    exact fun _ heq => hc (List.cons.inj heq).1
  have hheader : headerText name ++ rest =
      '\n' :: '[' :: (writeKey name ++ ']' :: '\n' :: rest) := by
    simp [headerText]
  rw [hheader, readLines?, hskip]
  simp only [Option.bind_eq_bind, Option.bind_some, hline, readHeader?, hkeys, hclose, hdefine,
    endOfLine?_newline]
  rfl

/-! ### Fields -/

/-- The lines of fields, one for each that has a value. -/
def fieldLines (fields : List (String × Option Leaf)) : List (String × Leaf) :=
  fields.filterMap fun field => field.2.map fun leaf => (field.1, leaf)

theorem linesText_fieldLines (fields : List (String × Option Leaf)) :
    linesText (fieldLines fields) =
      fields.flatMap fun field => field.2.elim [] fun leaf => writeEntry field.1 leaf.written := by
  induction fields with
  | nil => rfl
  | cons field fields ih =>
    obtain ⟨key, _ | leaf⟩ := field
    · exact ih
    · exact congrArg (lineText (key, leaf) ++ ·) ih

theorem map_fst_fieldLines_sublist (fields : List (String × Option Leaf)) :
    ((fieldLines fields).map (·.1)).Sublist (fields.map (·.1)) := by
  induction fields with
  | nil => exact .slnil
  | cons field fields ih =>
    obtain ⟨key, _ | leaf⟩ := field
    · exact ih.cons key
    · exact ih.cons_cons key

/-- Under the key of a field stands its value, if it has one. -/
theorem get?_fieldLines {fields : List (String × Option Leaf)} (h : (fields.map (·.1)).Nodup)
    {key : String} {value : Option Leaf} (hmem : (key, value) ∈ fields) :
    (entriesOf (fieldLines fields)).get? key = value.map Leaf.value := by
  induction fields with
  | nil => cases hmem
  | cons field fields ih =>
    obtain ⟨hfirst, hfields⟩ := List.nodup_cons.mp h
    have hrest {key : String} (hkey : key ∉ fields.map (·.1)) :
        (entriesOf (fieldLines fields)).get? key = none :=
      Entries.get?_eq_none (map_fst_entriesOf _ ▸ fun hmem =>
        hkey ((map_fst_fieldLines_sublist fields).mem hmem))
    rcases List.mem_cons.mp hmem with rfl | htail
    · cases value with
      | none => exact hrest hfirst
      | some leaf => simp [Entries.get?, entriesOf, fieldLines, entryOf]
    · have hne : key ≠ field.1 :=
        ne_of_mem_of_not_mem (List.mem_map_of_mem (f := (·.1)) htail) hfirst
      obtain ⟨first, _ | leaf⟩ := field
      · exact ih hfields htail
      · rw [← ih hfields htail]
        simp [Entries.get?, entriesOf, fieldLines, entryOf, hne.symm]

/-! ### Files -/

theorem length_le_length_linesText (lines : List (String × Leaf)) :
    lines.length ≤ (linesText lines).length :=
  length_le_length_flatMap (fun line => by simp [lineText, writeEntry]) lines

theorem dropByteOrderMark_of_head? (h : cs.head? ≠ some '\ufeff') : dropByteOrderMark cs = cs := by
  unfold dropByteOrderMark
  split
  · exact absurd rfl h
  · rfl

theorem head?_linesText_append (lines : List (String × Leaf)) (rest : List Char)
    (h : rest.head? ≠ some '\ufeff') :
    (linesText lines ++ rest).head? ≠ some '\ufeff' := by
  cases lines with
  | nil => exact h
  | cons line lines =>
    obtain ⟨c, tail, htext, -, -, hc⟩ := exists_cons_of_lineText line
    simpa [linesText, htext] using hc

/-- A file of lines with keys of their own says what they say. -/
theorem readDocument?_lines {lines : List (String × Leaf)} (h : (lines.map (·.1)).Nodup) :
    readDocument? (String.ofList (linesText lines)) = some (entriesOf lines) := by
  have hhead := head?_linesText_append lines [] (by simp)
  have hlength := length_le_length_linesText lines
  obtain ⟨fuel, hfuel⟩ := Nat.exists_eq_add_of_le hlength
  have htake : lines.foldlM Draft.take? ⟨[], []⟩ = some ⟨entriesOf lines, []⟩ :=
    foldlM_take?_root h
  have hread := readLines?_linesText htake (fuel + 1) []
  rw [List.append_nil] at hhead hread
  simp only [readDocument?, String.toList_ofList, dropByteOrderMark_of_head? hhead]
  rw [hfuel, Nat.add_assoc, hread]
  rfl

/-- A file of lines with a table behind them says what they say, and under the name of the table
what its lines say. -/
theorem readDocument?_table {lines more : List (String × Leaf)} (h : (lines.map (·.1)).Nodup)
    (hname : name ∉ lines.map (·.1)) (hmore : (more.map (·.1)).Nodup) :
    readDocument? (String.ofList (linesText lines ++ (headerText name ++ linesText more))) =
      some (entriesOf lines ++ [(name, .table .header (entriesOf more))]) := by
  have hhead := head?_linesText_append lines (headerText name ++ linesText more)
    (by simp [headerText])
  have hname' : name ∉ (entriesOf lines).map (·.1) := by rwa [map_fst_entriesOf]
  obtain ⟨fuel, hfuel⟩ : ∃ fuel,
      (linesText lines ++ (headerText name ++ linesText more)).length + 1 =
        lines.length + (more.length + (fuel + 1) + 1) := by
    have hlines := length_le_length_linesText lines
    have hmore := length_le_length_linesText more
    refine ⟨(linesText lines ++ (headerText name ++ linesText more)).length -
      lines.length - more.length - 1, ?_⟩
    simp only [List.length_append, headerText, List.length_cons]
    omega
  have htake : lines.foldlM Draft.take? ⟨[], []⟩ = some ⟨entriesOf lines, []⟩ :=
    foldlM_take?_root h
  have htakeMore :
      more.foldlM Draft.take? ⟨entriesOf lines ++ [(name, .table .header [])], [name]⟩ =
        some ⟨entriesOf lines ++ [(name, .table .header (entriesOf more))], [name]⟩ :=
    foldlM_take?_table hname' hmore
  have hroot := readLines?_linesText htake (more.length + (fuel + 1) + 1)
    (headerText name ++ linesText more)
  have htable := readLines?_linesText htakeMore (fuel + 1) []
  rw [List.append_nil] at htable
  simp only [readDocument?, String.toList_ofList, dropByteOrderMark_of_head? hhead]
  rw [hfuel, hroot, readLines?_headerText _ hname', htable]
  rfl

end Descriptor.Toml
