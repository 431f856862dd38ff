import Descriptor.Proofs.Text.Digits
import Descriptor.Toml.Quoted
import Mathlib.Tactic.IntervalCases

/-!
# Quoted texts read back

Each of the four forms of a text is undone by reading it. A form that knows escapes can hold any
text; a form without them only texts in which nothing needs one and the closing marks do not occur.
The form that is taken for a text can always hold it, so every text is read back, as long as it is
not a quotation mark that follows.

Marks inside a text between three of them are told from the closing ones by their number: never
three in a row stand in the text, and up to two right in front of the closing ones are taken into
it.

## Main definitions

* `Suits` : the texts that a form can hold.

## Main results

* `readBasic?_written`, `readLiteral?_written`, `readLongBasic?_written`,
  `readLongLiteral?_written` : each form is read back.
* `suits_styleOf` : the form that is taken for a text can hold it.
* `readQuoted?_writeText` : a text is read back.
-/

namespace Descriptor.Toml

open Text (charOfCode?_toNat digitsValue_hexDigits hexDigits isHexDigit isHexDigit_of_mem_hexDigits
  length_hexDigits)

variable {c : Char} {cs rest : List Char}

/-! ### Escapes -/

theorem readEscape?_simple {mark : Char} (hwidth : codeWidth? mark = none)
    (h : simpleEscape? mark = some c) (rest : List Char) :
    readEscape? (mark :: rest) = some (c, rest) := by
  rw [readEscape?, hwidth, h]
  rfl

theorem readEscape?_code (hc : c.toNat < 16 ^ 4) (rest : List Char) :
    readEscape? ('u' :: (hexDigits 'A' 4 c.toNat ++ rest)) = some (c, rest) := by
  have hwidth : codeWidth? 'u' = some 4 := rfl
  have htake : (hexDigits 'A' 4 c.toNat ++ rest).take 4 = hexDigits 'A' 4 c.toNat :=
    List.take_left' (length_hexDigits ..)
  have hdrop : (hexDigits 'A' 4 c.toNat ++ rest).drop 4 = rest :=
    List.drop_left' (length_hexDigits ..)
  have hall : (hexDigits 'A' 4 c.toNat).all isHexDigit = true :=
    List.all_eq_true.mpr fun d hd => isHexDigit_of_mem_hexDigits .upper hd
  simp only [readEscape?, hwidth, htake, hdrop, length_hexDigits, hall,
    digitsValue_hexDigits .upper hc, charOfCode?_toNat, decide_true, Bool.and_self, if_true,
    Option.map_some]

/-- The ways to write a character where escapes are known: as itself, or behind a backslash that
ends no line. -/
inductive Spells (c : Char) : List Char → Prop
  | plain (hcontrol : isControl c = false) (hquote : c ≠ '"') (hescape : c ≠ '\\') : Spells c [c]
  | escaped {mark : Char} {body : List Char} (hline : isFolded mark = false)
      (h : ∀ rest, readEscape? (mark :: body ++ rest) = some (c, rest)) :
      Spells c ('\\' :: mark :: body)

theorem Spells.simple {mark : Char} (hline : isFolded mark = false)
    (hwidth : codeWidth? mark = none) (h : simpleEscape? mark = some c) : Spells c ['\\', mark] :=
  .escaped hline (readEscape?_simple hwidth h)

theorem spells_escapeControl (hquote : c ≠ '"') : Spells c (escapeControl c) := by
  unfold escapeControl
  split_ifs with h₁ h₂ h₃ h₄ h₅ hcontrol
  · subst h₁
    exact .simple rfl rfl rfl
  · subst h₂
    exact .simple rfl rfl rfl
  · subst h₃
    exact .simple rfl rfl rfl
  · subst h₄
    exact .simple rfl rfl rfl
  · subst h₅
    exact .simple rfl rfl rfl
  · refine .escaped rfl (readEscape?_code ?_)
    have hbound : c.toNat ≤ 0x7f := by
      simp only [isControl, Bool.or_eq_true, Bool.and_eq_true, decide_eq_true_eq] at hcontrol
      omega
    exact Nat.lt_of_le_of_lt hbound (by decide)
  · exact .plain (Bool.eq_false_iff.mpr hcontrol) hquote h₅

theorem spells_escapeBasic (c : Char) : Spells c (escapeBasic c) := by
  unfold escapeBasic
  split_ifs with hquote hline
  · subst hquote
    exact .simple rfl rfl rfl
  · subst hline
    exact .simple rfl rfl rfl
  · exact spells_escapeControl hquote

/-- No line end is written as itself where a text has to stay on its line. -/
theorem escapeBasic_ne_newline (c : Char) : escapeBasic c ≠ ['\n'] := by
  unfold escapeBasic
  split_ifs with hquote hline
  · decide
  · decide
  · intro h
    have hspells := spells_escapeControl hquote
    rw [h] at hspells
    cases hspells
    exact hline rfl

/-! ### Texts on one line -/

theorem readBasic?_escape {body after : List Char} (h : readEscape? body = some (c, after)) :
    readBasic? ('\\' :: body) = (readBasic? after).map fun (text, rest) => (c :: text, rest) := by
  rw [readBasic?]
  split
  · next hnone => cases h.symm.trans hnone
  · next heq =>
    cases h.symm.trans heq
    rfl

theorem Spells.readBasic? {spelling : List Char} (h : Spells c spelling) (hline : spelling ≠ ['\n'])
    (rest : List Char) :
    readBasic? (spelling ++ rest) =
      (readBasic? rest).map fun (text, rest) => (c :: text, rest) := by
  cases h with
  | plain hcontrol hquote hescape =>
    have hc : c ≠ '\n' := fun hc => hline (hc ▸ rfl)
    rw [List.singleton_append, Toml.readBasic?, if_neg (by simp [hcontrol, hc])]
    · exact hquote
    · exact hescape
  | escaped _ hread => exact readBasic?_escape (hread rest)

/-- A text on one line that knows escapes is read back. -/
theorem readBasic?_written (cs rest : List Char) :
    readBasic? (cs.flatMap escapeBasic ++ '"' :: rest) = some (cs, rest) := by
  induction cs with
  | nil => rw [List.flatMap_nil, List.nil_append, readBasic?]
  | cons c cs ih =>
    rw [List.flatMap_cons, List.append_assoc,
      (spells_escapeBasic c).readBasic? (escapeBasic_ne_newline c), ih]
    rfl

/-- A text on one line without escapes is read back. -/
theorem readLiteral?_written (h : ∀ c ∈ cs, isControl c = false ∧ c ≠ '\n' ∧ c ≠ '\'')
    (rest : List Char) : readLiteral? (cs ++ '\'' :: rest) = some (cs, rest) := by
  induction cs with
  | nil => rfl
  | cons c cs ih =>
    obtain ⟨hcontrol, hline, hquote⟩ := h c List.mem_cons_self
    rw [List.cons_append, readLiteral?, if_neg (by simp [hcontrol, hline]),
      ih fun d hd => h d (List.mem_cons_of_mem c hd)]
    · rfl
    · exact hquote

/-! ### Texts on several lines -/

theorem closeLong_marks {quote : Char} {run : Nat} (hrun : run ≤ 2)
    (hrest : rest.head? ≠ some quote) :
    closeLong quote (List.replicate run quote ++ rest) = (List.replicate run quote, rest) := by
  rcases rest with _ | ⟨a, _ | ⟨b, rest⟩⟩
  · interval_cases run <;> simp [closeLong]
  · have ha : a ≠ quote := fun h => hrest (h ▸ rfl)
    interval_cases run <;> simp [closeLong, ha]
  · have ha : a ≠ quote := fun h => hrest (h ▸ rfl)
    interval_cases run <;> simp [closeLong, ha]

theorem tripled_append (quote : Char) (rest : List Char) :
    tripled quote ++ rest = quote :: quote :: quote :: rest := rfl

/-- Marks in front of three others are as good behind them. -/
theorem replicate_append_tripled (quote : Char) (run : Nat) (rest : List Char) :
    List.replicate run quote ++ (tripled quote ++ rest) =
      quote :: quote :: quote :: (List.replicate run quote ++ rest) := by
  have hmarks : tripled quote = List.replicate 3 quote := rfl
  rw [hmarks, ← List.append_assoc, List.replicate_append_replicate, Nat.add_comm,
    ← List.replicate_append_replicate, List.append_assoc]
  rfl

theorem readLongBasic?_closing {run : Nat} (hrun : run ≤ 2) (hrest : rest.head? ≠ some '"') :
    readLongBasic? (List.replicate run '"' ++ (tripled '"' ++ rest)) =
      some (List.replicate run '"', rest) := by
  rw [replicate_append_tripled, readLongBasic?, closeLong_marks hrun hrest]

theorem readLongLiteral?_closing {run : Nat} (hrun : run ≤ 2) (hrest : rest.head? ≠ some '\'') :
    readLongLiteral? (List.replicate run '\'' ++ (tripled '\'' ++ rest)) =
      some (List.replicate run '\'', rest) := by
  rw [replicate_append_tripled, readLongLiteral?, closeLong_marks hrun hrest]

/-- A mark that two others do not follow belongs to a text. -/
theorem readLongBasic?_mark (rest : List Char) (h : ¬['"', '"'] <+: rest) :
    readLongBasic? ('"' :: rest) =
      (readLongBasic? rest).map fun (text, rest) => ('"' :: text, rest) := by
  rw [readLongBasic?]
  · rfl
  · exact fun tail _ htail => h ⟨tail, htail.symm⟩
  · exact fun hescape => absurd hescape (by decide)
  · exact fun _ hreturn => absurd hreturn (by decide)

theorem readLongLiteral?_mark (rest : List Char) (h : ¬['\'', '\''] <+: rest) :
    readLongLiteral? ('\'' :: rest) =
      (readLongLiteral? rest).map fun (text, rest) => ('\'' :: text, rest) := by
  rw [readLongLiteral?]
  · rfl
  · exact fun tail _ htail => h ⟨tail, htail.symm⟩
  · exact fun _ hreturn => absurd hreturn (by decide)

/-- Up to two marks in front of another character belong to a text. -/
theorem readLongBasic?_marks {run : Nat} (hrun : run ≤ 2) (hc : c ≠ '"') (rest : List Char) :
    readLongBasic? (List.replicate run '"' ++ c :: rest) =
      (readLongBasic? (c :: rest)).map fun (text, rest) =>
        (List.replicate run '"' ++ text, rest) := by
  interval_cases run
  · simp
  · simpa using readLongBasic?_mark (c :: rest) (by simp [hc.symm])
  · have hone := readLongBasic?_mark (c :: rest) (by simp [hc.symm])
    have htwo := readLongBasic?_mark ('"' :: c :: rest) (by simp [hc.symm])
    simp [htwo, hone, List.replicate, Function.comp_def]

theorem readLongLiteral?_marks {run : Nat} (hrun : run ≤ 2) (hc : c ≠ '\'') (rest : List Char) :
    readLongLiteral? (List.replicate run '\'' ++ c :: rest) =
      (readLongLiteral? (c :: rest)).map fun (text, rest) =>
        (List.replicate run '\'' ++ text, rest) := by
  interval_cases run
  · simp
  · simpa using readLongLiteral?_mark (c :: rest) (by simp [hc.symm])
  · have hone := readLongLiteral?_mark (c :: rest) (by simp [hc.symm])
    have htwo := readLongLiteral?_mark ('\'' :: c :: rest) (by simp [hc.symm])
    simp [htwo, hone, List.replicate, Function.comp_def]

theorem readLongBasic?_escape {mark : Char} {body after : List Char}
    (hline : isFolded mark = false) (h : readEscape? (mark :: body) = some (c, after)) :
    readLongBasic? ('\\' :: mark :: body) =
      (readLongBasic? after).map fun (text, rest) => (c :: text, rest) := by
  have hcontinued : continuedLine? (mark :: body) = none := by
    simp only [isFolded, Bool.or_eq_false_iff, decide_eq_false_iff_not] at hline
    obtain ⟨⟨⟨hspace, htab⟩, hnewline⟩, hreturn⟩ := hline
    rw [continuedLine?, List.dropWhile_cons_of_neg (by simp [hspace, htab])]
    split
    · next heq => exact absurd (List.cons.inj heq).1 hnewline
    · next heq => exact absurd (List.cons.inj heq).1 hreturn
    · rfl
  rw [readLongBasic?]
  split
  · next heq => cases hcontinued.symm.trans heq
  · split
    · next hnone => cases h.symm.trans hnone
    · next heq =>
      cases h.symm.trans heq
      rfl

theorem Spells.readLongBasic? {spelling : List Char} (h : Spells c spelling) (rest : List Char) :
    readLongBasic? (spelling ++ rest) =
      (readLongBasic? rest).map fun (text, rest) => (c :: text, rest) := by
  cases h with
  | plain hcontrol hquote hescape =>
    rw [List.singleton_append, Toml.readLongBasic?, if_neg (by simp [hcontrol])]
    · exact fun _ hmark => absurd hmark hquote
    · exact hescape
    · rintro _ rfl
      exact absurd hcontrol (by decide)
  | escaped hline hread => exact readLongBasic?_escape hline (hread rest)

/-- The first character of a spelling. -/
theorem Spells.exists_cons {spelling : List Char} (h : Spells c spelling) :
    ∃ d tail, spelling = d :: tail ∧ d ≠ '"' ∧ d ≠ '\r' ∧ (d = '\n' → c = '\n') := by
  cases h with
  | plain hcontrol hquote =>
    exact ⟨c, [], rfl, hquote, fun hreturn => absurd hcontrol (by subst hreturn; decide), id⟩
  | escaped => exact ⟨'\\', _, rfl, by decide, by decide, fun hline => absurd hline (by decide)⟩

/-- A spelled character behind marks, of which there are never three. -/
theorem Spells.readLongBasic?_marks {spelling : List Char} (h : Spells c spelling) {run : Nat}
    (hrun : run ≤ 2) (rest : List Char) :
    Toml.readLongBasic? (List.replicate run '"' ++ (spelling ++ rest)) =
      (Toml.readLongBasic? rest).map fun (text, rest) =>
        (List.replicate run '"' ++ c :: text, rest) := by
  obtain ⟨d, tail, rfl, hd, -⟩ := h.exists_cons
  rw [List.cons_append, Toml.readLongBasic?_marks hrun hd, ← List.cons_append, h.readLongBasic?,
    Option.map_map]
  rfl

theorem replicate_append_cons (quote : Char) (run : Nat) (rest : List Char) :
    List.replicate run quote ++ quote :: rest = List.replicate (run + 1) quote ++ rest := by
  rw [List.replicate_succ', List.append_assoc, List.singleton_append]

/-- A text on several lines that knows escapes is read back, behind the marks that stand in front of
it already. -/
theorem readLongBasic?_written {run : Nat} (hrun : run ≤ 2) (cs : List Char)
    (hrest : rest.head? ≠ some '"') :
    readLongBasic? (List.replicate run '"' ++ (escapeLong run cs ++ (tripled '"' ++ rest))) =
      some (List.replicate run '"' ++ cs, rest) := by
  induction cs generalizing run with
  | nil => simpa [escapeLong] using readLongBasic?_closing hrun hrest
  | cons c cs ih =>
    have hzero := ih (Nat.zero_le 2)
    rw [List.replicate_zero, List.nil_append, List.nil_append] at hzero
    rw [escapeLong]
    split_ifs with hquote hfull
    · -- The third mark in a row is the one that is escaped, and the count starts anew.
      have hspells : Spells '"' ['\\', '"'] := .simple rfl rfl rfl
      have hmarks := hspells.readLongBasic?_marks hrun
        (escapeLong 0 cs ++ (tripled '"' ++ rest))
      rw [hzero] at hmarks
      exact hquote ▸ hmarks
    · have hnext := @ih (run + 1) (by omega)
      rw [← replicate_append_cons, ← replicate_append_cons] at hnext
      exact hquote ▸ hnext
    · have hspells := spells_escapeControl hquote
      rw [List.append_assoc, hspells.readLongBasic?_marks hrun, hzero]
      rfl

/-- A text on several lines without escapes is read back, behind the marks that stand in front of it
already. -/
theorem readLongLiteral?_written {run : Nat} (hplain : ∀ c ∈ cs, isControl c = false)
    (hrun : longestRunFrom '\'' run cs ≤ 2) (hrest : rest.head? ≠ some '\'') :
    readLongLiteral? (List.replicate run '\'' ++ (cs ++ (tripled '\'' ++ rest))) =
      some (List.replicate run '\'' ++ cs, rest) := by
  induction cs generalizing run with
  | nil =>
    rw [longestRunFrom] at hrun
    simpa using readLongLiteral?_closing hrun hrest
  | cons c cs ih =>
    have htail : ∀ d ∈ cs, isControl d = false := fun d hd => hplain d (List.mem_cons_of_mem c hd)
    rw [longestRunFrom] at hrun
    split_ifs at hrun with hquote
    · have hnext := ih htail hrun
      rw [← replicate_append_cons, ← replicate_append_cons] at hnext
      exact hquote ▸ hnext
    · obtain ⟨hrun, hbehind⟩ := Nat.max_le.mp hrun
      have hcontrol := hplain c List.mem_cons_self
      have hzero := ih htail hbehind
      rw [List.replicate_zero, List.nil_append, List.nil_append] at hzero
      rw [List.cons_append, readLongLiteral?_marks hrun hquote, readLongLiteral?,
        if_neg (by simp [hcontrol]), hzero]
      · rfl
      · exact fun _ hmark => absurd hmark hquote
      · rintro _ rfl
        exact absurd hcontrol (by decide)

/-! ### The form that is taken -/

/-- The texts that a form can hold. -/
def Suits (cs : List Char) : Style → Prop
  | .basic => True
  | .literal => ∀ c ∈ cs, isControl c = false ∧ c ≠ '\n' ∧ c ≠ '\''
  | .longBasic => True
  | .longLiteral => (∀ c ∈ cs, isControl c = false) ∧ longestRun '\'' cs ≤ 2

/-- The form that is taken for a text can hold it. -/
theorem suits_styleOf (cs : List Char) : Suits cs (styleOf cs) := by
  simp only [styleOf]
  split_ifs with hbasic hliteral hlongBasic hlongLiteral
  · trivial
  · simp only [Bool.and_eq_true, Bool.not_eq_true', List.any_eq_false, Bool.not_eq_true,
      List.contains_eq_mem, decide_eq_false_iff_not] at hliteral
    obtain ⟨⟨hplain, hline⟩, hquote⟩ := hliteral
    exact fun c hc => ⟨hplain c hc, ne_of_mem_of_not_mem hc hline, ne_of_mem_of_not_mem hc hquote⟩
  · trivial
  · simpa only [Suits, Bool.and_eq_true, Bool.not_eq_true', List.any_eq_false, Bool.not_eq_true,
      decide_eq_true_eq] using hlongLiteral
  · trivial
  · trivial

/-- The line end behind the opening marks is not part of a text. -/
theorem dropLineEnd_of_head? {text : List Char} (hline : text.head? ≠ some '\n')
    (hreturn : text.head? ≠ some '\r') : dropLineEnd text = text := by
  unfold dropLineEnd
  split
  · exact absurd rfl hline
  · exact absurd rfl hreturn
  · rfl

theorem dropLineEnd_leadingLine {text : List Char} (hline : '\n' ∉ cs → text.head? ≠ some '\n')
    (hreturn : text.head? ≠ some '\r') : dropLineEnd (leadingLine cs ++ text) = text := by
  unfold leadingLine
  split_ifs with hmem
  · rfl
  · exact dropLineEnd_of_head? (hline (by simpa using hmem)) hreturn

theorem head?_escapeLong (cs rest : List Char) :
    (escapeLong 0 cs ++ (tripled '"' ++ rest)).head? ≠ some '\r' ∧
      ('\n' ∉ cs → (escapeLong 0 cs ++ (tripled '"' ++ rest)).head? ≠ some '\n') := by
  cases cs with
  | nil => simp [escapeLong, tripled]
  | cons c cs =>
    rw [escapeLong]
    by_cases hquote : c = '"'
    · simp [hquote]
    · rw [if_neg hquote]
      obtain ⟨d, tail, hspelling, -, hreturn, hline⟩ := (spells_escapeControl hquote).exists_cons
      rw [hspelling]
      refine ⟨by simpa using hreturn, fun hmem hd => hmem ?_⟩
      rw [hline (Option.some.inj hd)]
      exact List.mem_cons_self

theorem readQuoted?_eq_readShort? {text : List Char} (hbasic : ¬tripled '"' <+: text)
    (hliteral : ¬tripled '\'' <+: text) : readQuoted? text = readShort? text := by
  rw [readQuoted?]
  · exact fun tail htext => hbasic ⟨tail, htext.symm⟩
  · exact fun tail htext => hliteral ⟨tail, htext.symm⟩

theorem not_tripled_prefix {quote : Char} (hcs : cs.head? ≠ some quote)
    (hrest : rest.head? ≠ some quote) (mark : Char) :
    ¬tripled mark <+: quote :: (cs ++ quote :: rest) := by
  rintro ⟨tail, htail⟩
  rw [tripled_append] at htail
  obtain ⟨rfl, htail⟩ := List.cons.inj htail
  cases cs with
  | nil =>
    obtain ⟨-, htail⟩ := List.cons.inj htail
    exact hrest (htail ▸ rfl)
  | cons c cs => exact hcs (congrArg some (List.cons.inj htail).1.symm)

/-- A text in a form that can hold it is read back, unless a quotation mark follows. -/
theorem readQuoted?_writeStyle {style : Style} (h : Suits cs style)
    (hbasic : rest.head? ≠ some '"') (hliteral : rest.head? ≠ some '\'') :
    readQuoted? (writeStyle cs style ++ rest) = some (cs, rest) := by
  cases style with
  | basic =>
    have hhead : (cs.flatMap escapeBasic).head? ≠ some '"' := by
      cases cs with
      | nil => simp
      | cons c cs =>
        obtain ⟨d, tail, hspelling, hd, -⟩ := (spells_escapeBasic c).exists_cons
        simpa [hspelling] using hd
    have hshort := not_tripled_prefix hhead hbasic
    simp only [writeStyle, List.cons_append, List.append_assoc, List.nil_append]
    rw [readQuoted?_eq_readShort? (hshort _) (hshort _), readShort?, readBasic?_written]
  | literal =>
    have hhead : cs.head? ≠ some '\'' := fun hquote => (h _ (List.mem_of_head? hquote)).2.2 rfl
    have hshort := not_tripled_prefix hhead hliteral
    simp only [writeStyle, List.cons_append, List.append_assoc, List.nil_append]
    rw [readQuoted?_eq_readShort? (hshort _) (hshort _), readShort?, readLiteral?_written h]
  | longBasic =>
    obtain ⟨hreturn, hline⟩ := head?_escapeLong cs rest
    simp only [writeStyle, List.append_assoc]
    rw [tripled_append, readQuoted?, dropLineEnd_leadingLine hline hreturn]
    exact readLongBasic?_written (Nat.zero_le 2) cs hbasic
  | longLiteral =>
    obtain ⟨hplain, hrun⟩ := h
    have hhead {c : Char} (hc : c ∉ cs) (hquote : c ≠ '\'') :
        (cs ++ (tripled '\'' ++ rest)).head? ≠ some c := by
      cases cs with
      | nil => simpa [tripled] using hquote.symm
      | cons d cs => simpa using (List.ne_of_not_mem_cons hc).symm
    have hreturn : '\r' ∉ cs := fun hmem => absurd (hplain _ hmem) (by decide)
    simp only [writeStyle, List.append_assoc]
    rw [tripled_append, readQuoted?, dropLineEnd_leadingLine (hhead · (by decide))
      (hhead hreturn (by decide))]
    exact @readLongLiteral?_written _ _ 0 hplain hrun hliteral

/-- **A text is read back** from the form that it is written in, unless a quotation mark follows. -/
theorem readQuoted?_writeText (s : String) (hbasic : rest.head? ≠ some '"')
    (hliteral : rest.head? ≠ some '\'') :
    readQuoted? (writeText s ++ rest) = some (s.toList, rest) :=
  readQuoted?_writeStyle (suits_styleOf s.toList) hbasic hliteral

end Descriptor.Toml
