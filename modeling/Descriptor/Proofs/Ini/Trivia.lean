import Descriptor.Proofs.Ini.Layout

/-!
# Lines that say nothing

What can be put into a text, or taken out of it, without a difference to the document that it
spells: comments anywhere, white space at the end of a line, and blank lines behind which no value
goes on. Between an option and the further lines of its value a blank line counts, but a comment
does not, not even among the blank lines there. A line that cannot be read stays the first one, and
only its number changes, by as much as the lines before it.

## Main definitions

* `StartsBehind`, `Idle` : a line that starts something where it stands, and one that says nothing.
* `Edit`, `Edits` : a change of lines that makes no difference, and several of them, with the new
  numbers of the lines.

## Main results

* `Draft.addLines_append`, `Draft.addLines_succ` : reading on, and reading under other numbers.
* `Idle.addLines` : the effect of a line that says nothing.
* `ofLines_insert` : lines before and after one that says nothing is put in.
* `Edits.ofLines_eq` : lines before and after any edits.
* `read_of_edits` : texts before and after any edits.
-/

namespace Descriptor.Ini

open Text

/-! ### Numbers of lines -/

/-- An error under another number. -/
def ReadError.renumber (f : ℕ → ℕ) (e : ReadError) : ReadError := { e with line := f e.line }

/-- The number of a line once there is one more behind the first `k`. -/
def shiftBehind (k n : ℕ) : ℕ := if n ≤ k then n else n + 1

/-- The number of a line once there is one less behind the first `k`. -/
def unshiftBehind (k n : ℕ) : ℕ := if n ≤ k then n else n - 1

theorem unshiftBehind_shiftBehind (k n : ℕ) : unshiftBehind k (shiftBehind k n) = n := by
  unfold unshiftBehind shiftBehind
  split_ifs <;> omega

/-! ### Edits -/

/-- A line that starts a section or an option where it stands, behind the given lines: one whose
content is no deeper than the option that could still be continued there. -/
def StartsBehind (before : List (List Char)) (line : List Char) : Prop :=
  ∃ indent text, Line.ofText line = .content indent text ∧
    ∀ d, Draft.empty.addLines 1 (before.map Line.ofText) = .ok d →
      ∀ o ∈ d.openEntry, indent ≤ o.indent

/-- A line that says nothing where it stands: a comment, or a blank line at the end of the text or
right before a line that starts a section or an option. What comes after it is read behind the lines
`before`. -/
inductive Idle (before : List (List Char)) (line : List Char) : List (List Char) → Prop
  | comment {after : List (List Char)} (h : IsComment line) : Idle before line after
  | atEnd (h : Blanks line) : Idle before line []
  | beforeStart {next : List Char} {rest : List (List Char)} (h : Blanks line)
      (hnext : StartsBehind before next) : Idle before line (next :: rest)

/-- A change of lines that makes no difference, and the new numbers of the lines. A line feed is no
part of a line, but a carriage return before it is. -/
inductive Edit : List (List Char) → List (List Char) → (ℕ → ℕ) → Prop
  | insert {before after : List (List Char)} {line : List Char} (h : Idle before line after) :
      Edit (before ++ after) (before ++ line :: after) (shiftBehind before.length)
  | delete {before after : List (List Char)} {line : List Char}
      (h : Idle (before ++ [line]) line after) :
      Edit (before ++ line :: after) (before ++ after) (unshiftBehind before.length)
  | pad {before after : List (List Char)} {line blanks blanks' : List Char} (h : Blanks blanks)
      (h' : Blanks blanks') :
      Edit (before ++ (line ++ blanks) :: after) (before ++ (line ++ blanks') :: after) id

/-- Any number of changes that make no difference. -/
inductive Edits : List (List Char) → List (List Char) → (ℕ → ℕ) → Prop
  | refl (raw : List (List Char)) : Edits raw raw id
  | step {raw raw' raw'' : List (List Char)} {f g : ℕ → ℕ} (h : Edits raw raw' f)
      (hedit : Edit raw' raw'' g) : Edits raw raw'' (g ∘ f)

theorem Edits.trans {raw raw' raw'' : List (List Char)} {f g : ℕ → ℕ} (h : Edits raw raw' f)
    (h' : Edits raw' raw'' g) : Edits raw raw'' (g ∘ f) := by
  induction h' with
  | refl => exact h
  | step _ hedit ih =>
    rw [Function.comp_assoc]
    exact ih.step hedit

/-- Line feeds become pairs of a carriage return and a line feed. -/
theorem Edits.returns (raw : List (List Char)) : Edits raw (raw.map (· ++ ['\r'])) id := by
  suffices ∀ before, Edits (before ++ raw) (before ++ raw.map (· ++ ['\r'])) id from this []
  induction raw with
  | nil => exact fun before => .refl _
  | cons line raw ih =>
    intro before
    have hrest := ih (before ++ [line])
    rw [List.append_assoc, List.append_assoc] at hrest
    have hline : Edit (before ++ line :: raw.map (· ++ ['\r']))
        (before ++ (line ++ ['\r']) :: raw.map (· ++ ['\r'])) id := by
      have hpad := @Edit.pad before (raw.map (· ++ ['\r'])) line [] ['\r'] (by decide) (by decide)
      rwa [List.append_nil] at hpad
    exact .step hrest hline

/-! ### Reading on -/

namespace Draft

theorem addLines_append (d : Draft) (number : ℕ) (before after : List Line) :
    d.addLines number (before ++ after) =
      (d.addLines number before).bind fun d' => d'.addLines (number + before.length) after := by
  induction before generalizing d number with
  | nil => rfl
  | cons line before ih =>
    rw [List.cons_append, addLines, addLines]
    cases d.addLine line with
    | error fault => rfl
    | ok next =>
      dsimp only
      rw [ih, List.length_cons, Nat.add_right_comm, Nat.add_assoc]

/-- The numbers of the lines have no influence on what is read. -/
theorem addLines_succ (d : Draft) (number : ℕ) (lines : List Line) :
    d.addLines (number + 1) lines =
      (d.addLines number lines).mapError (ReadError.renumber (· + 1)) := by
  induction lines generalizing d number with
  | nil => rfl
  | cons line lines ih =>
    rw [addLines, addLines]
    cases d.addLine line with
    | error fault => rfl
    | ok next => exact ih next (number + 1)

/-- The line that cannot be read is one of those that are read. -/
theorem line_mem_of_addLines {d : Draft} {number : ℕ} {lines : List Line} {e : ReadError}
    (h : d.addLines number lines = .error e) :
    number ≤ e.line ∧ e.line < number + lines.length := by
  induction lines generalizing d number with
  | nil => cases h
  | cons line lines ih =>
    rw [addLines] at h
    rw [List.length_cons]
    cases hline : d.addLine line with
    | error fault =>
      rw [hline] at h
      obtain rfl := Except.error.inj h
      dsimp only
      omega
    | ok next =>
      rw [hline] at h
      have := ih h
      omega

/-- A blank line changes nothing but the number of pending blank lines, which is forgotten when a
section or an option starts. -/
theorem addLine_content_of_blank {d : Draft} {indent : ℕ}
    (hopen : ∀ o ∈ d.openEntry, indent ≤ o.indent) (text : List Char) {d' : Draft}
    (hblank : d.addLine .blank = .ok d') :
    d'.addLine (.content indent text) = d.addLine (.content indent text) := by
  obtain ⟨sections, openEntry⟩ := d
  obtain rfl := Except.ok.inj hblank
  have hopen' : ∀ o ∈ openEntry.map fun o => { o with blanks := o.blanks + 1 },
      indent ≤ o.indent := by
    intro _ hlater
    obtain ⟨o, ho, rfl⟩ := Option.map_eq_some_iff.mp hlater
    exact hopen o ho
  rw [addLine_content hopen', addLine_content hopen]
  rfl

end Draft

/-! ### Lines that say nothing -/

/-- A line that says nothing leaves a draft on which the lines after it do what they do without
it. -/
theorem Idle.addLines {before after : List (List Char)} {line : List Char}
    (h : Idle before line after) {d : Draft}
    (hd : Draft.empty.addLines 1 (before.map Line.ofText) = .ok d) (number : ℕ) :
    (d.addLines number (Line.ofText line :: after.map Line.ofText)).map (·.toDocument) =
      (d.addLines (number + 1) (after.map Line.ofText)).map (·.toDocument) := by
  cases h with
  | comment h => rw [Line.ofText_of_isComment h]; rfl
  | atEnd h => rw [Line.ofText_of_blanks h]; rfl
  | @beforeStart next rest h hnext =>
    obtain ⟨indent, text, hcontent, hopen⟩ := hnext
    rw [Line.ofText_of_blanks h, List.map_cons, hcontent, Draft.addLines]
    dsimp only [Draft.addLine]
    rw [Draft.addLines, Draft.addLine_content_of_blank (hopen d hd) text rfl, Draft.addLines]

/-- The line that is taken out may itself stand among the lines before. -/
theorem Idle.of_concat {before after : List (List Char)} {line : List Char}
    (h : Idle (before ++ [line]) line after) : Idle before line after := by
  cases h with
  | comment h => exact .comment h
  | atEnd h => exact .atEnd h
  | beforeStart h hnext =>
    obtain ⟨indent, text, hcontent, hopen⟩ := hnext
    refine .beforeStart h ⟨indent, text, hcontent, fun d hd o ho => ?_⟩
    -- a blank line leaves the depth of the open option as it is
    refine hopen { d with openEntry := d.openEntry.map fun o => { o with blanks := o.blanks + 1 } }
      ?_ { o with blanks := o.blanks + 1 } (Option.mem_map_of_mem _ ho)
    rw [List.map_append, Draft.addLines_append, hd, List.map_singleton, Line.ofText_of_blanks h]
    rfl

/-- Putting in a line that says nothing. -/
theorem ofLines_insert {before after : List (List Char)} {line : List Char}
    (h : Idle before line after) :
    Document.ofLines ((before ++ line :: after).map Line.ofText) =
      (Document.ofLines ((before ++ after).map Line.ofText)).mapError
        (.renumber (shiftBehind before.length)) := by
  rw [Document.ofLines, Document.ofLines, List.map_append, List.map_append, List.map_cons,
    Draft.addLines_append, Draft.addLines_append, List.length_map]
  cases hbefore : Draft.empty.addLines 1 (before.map Line.ofText) with
  | error e =>
    have hline : e.line ≤ before.length := by
      have := (Draft.line_mem_of_addLines hbefore).2
      rw [List.length_map] at this
      omega
    simp [Except.bind, Except.map, Except.mapError, ReadError.renumber, shiftBehind, hline]
  | ok d =>
    dsimp only [Except.bind]
    rw [h.addLines hbefore, Draft.addLines_succ]
    cases hafter : d.addLines (1 + before.length) (after.map Line.ofText) with
    | error e =>
      have hline : ¬e.line ≤ before.length := by
        have := (Draft.line_mem_of_addLines hafter).1
        omega
      simp [Except.map, Except.mapError, ReadError.renumber, shiftBehind, hline]
    | ok d => rfl

theorem mapError_renumber_comp {α : Type} (f g : ℕ → ℕ) (r : Except ReadError α) :
    (r.mapError (ReadError.renumber f)).mapError (ReadError.renumber g) =
      r.mapError (ReadError.renumber (g ∘ f)) := by
  cases r <;> rfl

theorem mapError_renumber_of_forall {α : Type} {f : ℕ → ℕ} (hf : ∀ n, f n = n)
    (r : Except ReadError α) : r.mapError (ReadError.renumber f) = r := by
  cases r with
  | error e => exact congrArg Except.error (by rw [ReadError.renumber, hf])
  | ok d => rfl

/-- One change of lines. -/
theorem Edit.ofLines_eq {raw raw' : List (List Char)} {f : ℕ → ℕ} (h : Edit raw raw' f) :
    Document.ofLines (raw'.map Line.ofText) =
      (Document.ofLines (raw.map Line.ofText)).mapError (.renumber f) := by
  cases h with
  | insert h => exact ofLines_insert h
  | delete h =>
    rw [ofLines_insert h.of_concat, mapError_renumber_comp]
    exact (mapError_renumber_of_forall (unshiftBehind_shiftBehind _) _).symm
  | pad h h' =>
    rw [mapError_renumber_of_forall (f := id) fun _ => rfl]
    simp only [List.map_append, List.map_cons, Line.ofText_append_blanks h,
      Line.ofText_append_blanks h']

/-- Any number of changes of lines. -/
theorem Edits.ofLines_eq {raw raw' : List (List Char)} {f : ℕ → ℕ} (h : Edits raw raw' f) :
    Document.ofLines (raw'.map Line.ofText) =
      (Document.ofLines (raw.map Line.ofText)).mapError (.renumber f) := by
  induction h with
  | refl => exact (mapError_renumber_of_forall (fun _ => rfl) _).symm
  | step _ hedit ih => rw [hedit.ofLines_eq, ih, mapError_renumber_comp]

/-- **What says nothing makes no difference.** Every text has lines. However often lines that say
nothing are put into them or taken out, and the white space at their ends is changed, a text with
the lines that come about reads as the same document, or stops for the same reason at the same line
under its new number. -/
theorem read_of_edits (content : String) :
    (∃ raw, HasLines raw content.toList) ∧
      ∀ raw raw' renumber content', HasLines raw content.toList → Edits raw raw' renumber →
        HasLines raw' content'.toList →
        Document.read content' = (Document.read content).mapError (.renumber renumber) := by
  refine ⟨exists_hasLines _, fun raw raw' renumber content' hraw hedits hraw' => ?_⟩
  rw [read_eq_ofLines hraw', read_eq_ofLines hraw, hedits.ofLines_eq]

private def plainLines : List (List Char) :=
  ["[a]".toList, "k = x".toList, [], "  y".toList, "[b]".toList, "?".toList]

/-- A value with a blank line in it, and a line that cannot be read. -/
def plainText : String := "[a]\nk = x\n\n  y\n[b]\n?\n"

private def editedLines : List (List Char) :=
  ["[a]\r".toList, "k = x\r".toList, " ; note\r".toList, "\r".toList, "  y\r".toList,
    " \r".toList, "[b]\r".toList, "?\r".toList]

/-- `plainText` with carriage returns, a comment inside the value and a blank line behind it. -/
def editedText : String := "[a]\r\nk = x\r\n ; note\r\n\r\n  y\r\n \r\n[b]\r\n?\r\n"

private theorem plainText_hasLines : HasLines plainLines plainText.toList :=
  @HasLines.of_flatMap plainLines (by decide)

private theorem editedText_hasLines : HasLines editedLines editedText.toList :=
  @HasLines.of_flatMap editedLines (by decide)

private theorem plainLines_edits :
    Edits plainLines editedLines (shiftBehind 5 ∘ shiftBehind 2) := by
  have hnote : IsComment " ; note".toList := ⟨" ".toList, "; note".toList, by decide⟩
  have hcomment : Edit plainLines ["[a]".toList, "k = x".toList, " ; note".toList, [],
      "  y".toList, "[b]".toList, "?".toList] (shiftBehind 2) :=
    @Edit.insert ["[a]".toList, "k = x".toList] _ _ (.comment hnote)
  have hstart : StartsBehind ["[a]".toList, "k = x".toList, " ; note".toList, [], "  y".toList]
      "[b]".toList := ⟨0, "[b]".toList, by decide, fun _ _ _ _ => Nat.zero_le _⟩
  have hblank : Edit ["[a]".toList, "k = x".toList, " ; note".toList, [], "  y".toList,
      "[b]".toList, "?".toList] ["[a]".toList, "k = x".toList, " ; note".toList, [],
      "  y".toList, " ".toList, "[b]".toList, "?".toList] (shiftBehind 5) :=
    @Edit.insert ["[a]".toList, "k = x".toList, " ; note".toList, [], "  y".toList] _ " ".toList
      (.beforeStart (by decide) hstart)
  exact ((Edits.refl plainLines).step hcomment |>.step hblank).trans (.returns _)

theorem read_of_edits_editedText :
    HasLines plainLines plainText.toList ∧
      Edits plainLines editedLines (shiftBehind 5 ∘ shiftBehind 2) ∧
      HasLines editedLines editedText.toList ∧
      Document.read plainText = .error ⟨6, .unreadable "?"⟩ ∧
      Document.read editedText = .error ⟨8, .unreadable "?"⟩ := by
  have hplain : Document.read plainText = .error ⟨6, .unreadable "?"⟩ := by decide +kernel
  refine ⟨plainText_hasLines, plainLines_edits, editedText_hasLines, hplain, ?_⟩
  rw [(read_of_edits plainText).2 _ _ _ _ plainText_hasLines plainLines_edits editedText_hasLines,
    hplain]
  rfl

end Descriptor.Ini
