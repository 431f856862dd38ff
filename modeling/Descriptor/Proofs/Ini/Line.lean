import Descriptor.Ini.Line
import Descriptor.Proofs.Text.Lines
import Descriptor.Proofs.Text.Lowercase
import Mathlib.Tactic.MkIffOfInductiveProp

/-!
# Written lines of a configuration document

The forms that a line of a configuration document is written in, and what each of them reads as. An
option line is taken apart at its first delimiter, so that a key has none, while a value may have
any; a header is taken apart at its last bracket, so that a name may have brackets of its own.

## Main definitions

* `IsComment`, `IsTrivia` : comments, and the lines that say nothing.
* `IsKey` : the keys that a line gives back.
* `KeyLine` : the lines that start an option.

## Main results

* `Line.ofText_dropReturn` : a carriage return at its end makes no difference to a line.
* `Line.ofText_indented` : content behind an indentation.
* `headerName?_bracketed` : the name of a written header.
* `KeyLine.exists_ofText` : the key and the value of a written option line.
-/

namespace Descriptor.Ini

open Text

/-- A line with nothing but blanks before a comment mark. -/
def IsComment (line : List Char) : Prop :=
  ∃ indent text, Blanks indent ∧ startsComment text = true ∧ line = indent ++ text

/-- A line that says nothing: a blank one, or a comment. -/
def IsTrivia (line : List Char) : Prop := Blanks line ∨ IsComment line

/-- A key that is given back by a line on which it stands, whatever the value is. -/
@[mk_iff]
structure IsKey (key : List Char) : Prop where
  ne_nil : key ≠ []
  trimmed : trim key = key
  lowercase : lowercase key = key
  not_isDelimiter : ∀ c ∈ key, isDelimiter c = false
  not_startsComment : startsComment key = false
  not_bracket : key.head? ≠ some '['

instance (key : List Char) : Decidable (IsKey key) :=
  -- a search through the key, rather than through all characters
  have : Decidable (∀ c ∈ key, isDelimiter c = false) :=
    List.decidableBAll (isDelimiter · = false) key
  decidable_of_iff _ (isKey_iff key).symm

/-- The lines that start an option at a given depth: an indentation of so many bytes, the key in any
case of its ASCII letters, a delimiter with any blanks around it, and what stands of the value on
the line. -/
inductive KeyLine (depth : ℕ) (key value : List Char) : List Char → Prop
  | intro {indent written before after : List Char} {delimiter : Char} (hindent : Blanks indent)
      (hdepth : byteLength indent = depth) (hwritten : lowercaseAscii written = key)
      (hbefore : Blanks before) (hdelimiter : isDelimiter delimiter = true)
      (hafter : Blanks after) :
      KeyLine depth key value (indent ++ (written ++ before ++ delimiter :: (after ++ value)))

/-! ### Lines and the blanks around them -/

theorem Line.ofText_of_blanks {line : List Char} (h : Blanks line) : Line.ofText line = .blank := by
  simp [Line.ofText, trim_eq_nil_of_blanks h, startsComment]

theorem Line.ofText_of_isComment {line : List Char} (h : IsComment line) :
    Line.ofText line = .comment := by
  obtain ⟨indent, text, hindent, hmark, rfl⟩ := h
  cases text with
  | nil => simp [startsComment] at hmark
  | cons mark text =>
    have hblank : isBlank mark = false := by
      simp only [startsComment, Bool.or_eq_true, decide_eq_true_eq] at hmark
      rcases hmark with rfl | rfl <;> decide
    have hstart : startsComment (trim (indent ++ mark :: text)) = true := by
      rw [trim_blanks_append hindent, trim_cons_of_not_blank hblank]
      exact hmark
    rw [Line.ofText, if_pos hstart]

/-- Content behind an indentation, blanks at the end of the line aside. -/
theorem Line.ofText_indented {indent text : List Char} {c : Char} (hindent : Blanks indent)
    (hblank : isBlank c = false) (hmark : startsComment (c :: text) = false) :
    Line.ofText (indent ++ c :: text) = .content (byteLength indent) (c :: trimEnd text) := by
  have htrim : trim (indent ++ c :: text) = c :: trimEnd text := by
    rw [trim_blanks_append hindent, trim_cons_of_not_blank hblank]
  have hstart : startsComment (c :: trimEnd text) = false := hmark
  have hspan : (indent ++ c :: text).takeWhile isBlank = indent := by
    rw [List.takeWhile_append_of_pos hindent, List.takeWhile_cons_of_neg (by simp [hblank]),
      List.append_nil]
  rw [Line.ofText, htrim, hstart, hspan]
  rfl

/-- A text that is its own trimmed form, behind an indentation. -/
theorem Line.ofText_indented_of_trim_eq_self {indent text : List Char} (hindent : Blanks indent)
    (hne : text ≠ []) (htrim : trim text = text) (hmark : startsComment text = false) :
    Line.ofText (indent ++ text) = .content (byteLength indent) text := by
  obtain ⟨c, text, rfl⟩ := List.exists_cons_of_ne_nil hne
  have hblank := not_isBlank_of_trim_eq_self htrim
  rw [trim_cons_of_not_blank hblank] at htrim
  rw [Line.ofText_indented hindent hblank hmark, htrim]

/-- Blanks at its end make no difference to a line. -/
theorem Line.ofText_append_blanks {blanks : List Char} (h : Blanks blanks)
    (line : List Char) : Line.ofText (line ++ blanks) = Line.ofText line := by
  unfold Line.ofText
  rw [trim_append_blanks h]
  dsimp only
  split_ifs with hcomment hempty
  · rfl
  · rfl
  · -- the line is not all blanks, so its indentation ends before the further ones
    have hrest : line.dropWhile isBlank ≠ [] := fun hnil =>
      hempty (List.isEmpty_iff.mpr (trim_eq_nil_of_blanks (List.dropWhile_eq_nil_iff.mp hnil)))
    obtain ⟨c, rest, hc⟩ := List.exists_cons_of_ne_nil hrest
    have hblank : isBlank c = false := by
      have := List.head?_dropWhile_not isBlank line
      rw [hc] at this
      simpa using this
    have hspan : ∀ more : List Char,
        (line.takeWhile isBlank ++ c :: more).takeWhile isBlank = line.takeWhile isBlank := by
      intro more
      rw [List.takeWhile_append_of_pos fun d hd => List.mem_takeWhile_imp hd,
        List.takeWhile_cons_of_neg (by simp [hblank]), List.append_nil]
    have hline : line ++ blanks = line.takeWhile isBlank ++ c :: (rest ++ blanks) := by
      rw [← List.cons_append, ← hc, ← List.append_assoc, List.takeWhile_append_dropWhile]
    rw [hline, hspan]

/-- A carriage return at its end makes no difference to a line. -/
theorem Line.ofText_dropReturn (line : List Char) :
    Line.ofText (dropReturn line) = Line.ofText line :=
  apply_dropReturn Line.ofText_append_blanks line

/-! ### Headers -/

private theorem beforeLast?_concat (c : Char) (cs : List Char) :
    beforeLast? c (cs ++ [c]) = some cs := by
  induction cs with
  | nil => simp [beforeLast?]
  | cons d cs ih => rw [List.cons_append, beforeLast?, ih]

/-- A written header gives its name, which may have brackets in it. -/
theorem headerName?_bracketed {name : List Char} (h : name ≠ []) :
    headerName? ('[' :: (name ++ [']'])) = some name := by
  rw [headerName?, beforeLast?_concat]
  simp [h]

theorem Line.ofText_bracketed (name : List Char) :
    Line.ofText ('[' :: (name ++ [']'])) = .content 0 ('[' :: (name ++ [']'])) := by
  have hindent : Blanks [] := fun c hc => absurd hc List.not_mem_nil
  have h := @Line.ofText_indented [] (name ++ [']']) '[' hindent (by decide) rfl
  rwa [trimEnd_append_of_not_blank (by decide)] at h

/-! ### Option lines -/

/-- The marks of comments and delimiters come in pairs, and what neither mark of a pair is, they are
not. -/
private theorem isMark_eq_false {p : Char → Bool} {a b c : Char} (ha : p a = false)
    (hb : p b = false) (hc : p c = true) : (decide (c = a) || decide (c = b)) = false := by
  have hne : ∀ mark, p mark = false → c ≠ mark := by
    rintro mark hmark rfl
    exact absurd (hc.symm.trans hmark) (by decide)
  simp [hne a ha, hne b hb]

private theorem not_isDelimiter_of_isBlank {c : Char} (h : isBlank c = true) :
    isDelimiter c = false :=
  isMark_eq_false (p := isBlank) (by decide) (by decide) h

private theorem isDelimiter_toLower (c : Char) : isDelimiter c.toLower = isDelimiter c :=
  apply_toLower (fun _ hd => isMark_eq_false (p := Char.isAlpha) (by decide) (by decide) hd) c

private theorem startsComment_toLower (c : Char) (text text' : List Char) :
    startsComment (c.toLower :: text) = startsComment (c :: text') :=
  apply_toLower (p := fun d => d = '#' || d = ';')
    (fun _ hd => isMark_eq_false (p := Char.isAlpha) (by decide) (by decide) hd) c

/-- A key in any case starts with a character that is neither blank nor a mark. -/
private theorem IsKey.exists_eq_cons {key written : List Char} (hkey : IsKey key)
    (hwritten : lowercaseAscii written = key) :
    ∃ c rest, written = c :: rest ∧ isBlank c = false ∧ c ≠ '[' ∧
      ∀ text, startsComment (c :: text) = false := by
  cases written with
  | nil => exact absurd hwritten.symm hkey.ne_nil
  | cons c rest =>
    have hfirst : key = c.toLower :: lowercaseAscii rest := hwritten.symm
    refine ⟨c, rest, rfl, ?_, ?_, fun text => ?_⟩
    · rw [← isBlank_toLower]
      exact not_isBlank_of_trim_eq_self (hfirst ▸ hkey.trimmed)
    · rintro rfl
      exact hkey.not_bracket (by rw [hfirst]; rfl)
    · rw [← startsComment_toLower c (lowercaseAscii rest), ← hfirst]
      exact hkey.not_startsComment

/-- An option line is taken apart at its first delimiter. -/
theorem splitOption?_append {key rest : List Char} {delimiter : Char}
    (hkey : ∀ c ∈ key, isDelimiter c = false) (hdelimiter : isDelimiter delimiter = true)
    (hne : trim key ≠ []) :
    splitOption? (key ++ delimiter :: rest) = some (lowercase (trim key), trim rest) := by
  have hkey' : ∀ c ∈ key, (!isDelimiter c) = true := fun c hc => by simp [hkey c hc]
  have hspan : (key ++ delimiter :: rest).takeWhile (!isDelimiter ·) = key := by
    rw [List.takeWhile_append_of_pos hkey', List.takeWhile_cons_of_neg (by simp [hdelimiter]),
      List.append_nil]
  have hrest : (key ++ delimiter :: rest).dropWhile (!isDelimiter ·) = delimiter :: rest := by
    rw [List.dropWhile_append_of_pos hkey', List.dropWhile_cons_of_neg (by simp [hdelimiter])]
  rw [splitOption?, hrest, hspan]
  simp [hne]

theorem headerName?_of_ne_bracket {c : Char} (h : c ≠ '[') (text : List Char) :
    headerName? (c :: text) = none := by
  unfold headerName?
  split
  · next heq => exact absurd (List.cons.inj heq).1 h
  · rfl

/-- The key of an option line, in any case and with blanks behind it, and what stands of the value
behind the delimiter. -/
private theorem IsKey.splitOption?_written {key written before value : List Char} {delimiter : Char}
    (hkey : IsKey key) (hwritten : lowercaseAscii written = key) (hbefore : Blanks before)
    (hdelimiter : isDelimiter delimiter = true) :
    splitOption? (written ++ before ++ delimiter :: value) = some (key, trim value) := by
  have hfront : ∀ d ∈ written ++ before, isDelimiter d = false := by
    intro d hd
    rcases List.mem_append.mp hd with hd | hd
    · rw [← isDelimiter_toLower]
      exact hkey.not_isDelimiter _ (hwritten ▸ List.mem_map_of_mem hd)
    · exact not_isDelimiter_of_isBlank (hbefore d hd)
  have htrim : lowercaseAscii (trim (written ++ before)) = key := by
    rw [trim_append_blanks hbefore, lowercaseAscii_trim, hwritten, hkey.trimmed]
  have hne : trim (written ++ before) ≠ [] := by
    intro hnil
    rw [hnil] at htrim
    exact hkey.ne_nil htrim.symm
  rw [splitOption?_append hfront hdelimiter hne,
    lowercase_of_lowercaseAscii hkey.lowercase htrim]

/-- A written option line is content at its depth that is no header, and gives the key and what
stands of the value. -/
theorem KeyLine.exists_ofText {depth : ℕ} {key value line : List Char}
    (h : KeyLine depth key value line) (hkey : IsKey key) (hvalue : trim value = value) :
    ∃ text, Line.ofText line = .content depth text ∧ headerName? text = none ∧
      splitOption? text = some (key, value) := by
  obtain ⟨hindent, rfl, hwritten, hbefore, hdelimiter, hafter⟩ := h
  next indent written before after delimiter =>
  obtain ⟨c, rest, rfl, hblank, hbracket, hmark⟩ := hkey.exists_eq_cons hwritten
  have hdelimiter' : isBlank delimiter = false := by
    refine Bool.eq_false_iff.mpr fun hcon => ?_
    rw [not_isDelimiter_of_isBlank hcon] at hdelimiter
    exact absurd hdelimiter (by decide)
  -- what is left of the line once the blanks at both ends are gone
  have hend : trimEnd (rest ++ before ++ delimiter :: (after ++ value)) =
      rest ++ before ++ delimiter :: trimEnd (after ++ value) := by
    rw [trimEnd_append, trimEnd_cons_of_not_blank hdelimiter', if_neg (List.cons_ne_nil _ _)]
  refine ⟨c :: (rest ++ before ++ delimiter :: trimEnd (after ++ value)), ?content,
    headerName?_of_ne_bracket hbracket _, ?option⟩
  case content =>
    rw [← hend]
    exact Line.ofText_indented hindent hblank (hmark _)
  case option =>
    have htrim : trim (trimEnd (after ++ value)) = value := by
      rw [trim_trimEnd, trim_blanks_append hafter, hvalue]
    refine (hkey.splitOption?_written hwritten hbefore hdelimiter).trans ?_
    rw [htrim]

end Descriptor.Ini
