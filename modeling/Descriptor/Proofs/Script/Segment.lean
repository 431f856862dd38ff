import Descriptor.Proofs.Script.Source.Print
import Descriptor.Proofs.Text.Numeral
import Descriptor.Script.Literal
import Mathlib.Data.List.Forall2

/-!
# The segments of the body of a literal

A scan takes the body of a literal apart from its front. A backslash always goes with the character
behind it, its mark, and with what the mark takes along: digits, or the line feed of a line end. How
a body comes apart depends on the marks alone, and not on whether anything has a meaning; what the
segments mean is a second question.

## Main definitions

* `Segment`, `Segment.IsFirst`, `Splits` : the segments that a body comes apart into.
* `Segment.Spells` : the text that a segment stands for. An escape by character name stands for
  none; an escape that means nothing stands for itself.

## Main results

* `exists_splits`, `Splits.unique` : every body comes apart, and in one way.
* `Segment.IsFirst.unescape_append` : the first segment of a body, decoded.
* `unescape_segments` : a body is refused where it names a character by its name, and otherwise
  decodes to what its segments spell.
-/

namespace Descriptor.Script

open Text

/-! ### Coming apart -/

/-- A part of the body of a literal that is decoded by itself. -/
inductive Segment where
  | plain (c : Char)
  /-- A backslash, its mark, and what the mark takes along. -/
  | escape (mark : Char) (more : List Char)
  /-- A backslash at the end of the body. -/
  | backslash

/-- A segment as it is written. -/
def Segment.source : Segment → List Char
  | .plain c => [c]
  | .escape mark more => '\\' :: mark :: more
  | .backslash => ['\\']

/-- The characters that a mark takes along. -/
inductive TakesAlong : Char → Char → Prop
  | octal {mark d : Char} {k l : ℕ} (hmark : IsDigit 8 k mark) (hd : IsDigit 8 l d) :
      TakesAlong mark d
  | code {mark d : Char} {width k : ℕ} (hmark : (mark, width) ∈ codeEscapes)
      (hd : IsDigit 16 k d) : TakesAlong mark d
  | lineEnd : TakesAlong '\r' '\n'

/-- The number of characters that a mark takes along at most. An octal number has three digits, one
of which is its mark. -/
def reach (mark : Char) : ℕ :=
  (codeEscapes.lookup mark).getD (if mark = '\r' then 1 else 2)

/-- A segment is what a scan takes from the front of a text, when the given rest stands behind
it. -/
inductive Segment.IsFirst : Segment → List Char → Prop
  | plain {c : Char} {rest : List Char} (h : c ≠ '\\') : IsFirst (.plain c) rest
  | escape {mark : Char} {more rest : List Char}
      (h : IsRun (TakesAlong mark) (reach mark) more rest) : IsFirst (.escape mark more) rest
  | backslash : IsFirst .backslash []

/-- The segments that a body comes apart into when it is scanned from its front. -/
inductive Splits : List Char → List Segment → Prop
  | nil : Splits [] []
  | cons {s : Segment} {rest : List Char} {ss : List Segment} (h : s.IsFirst rest)
      (hrest : Splits rest ss) : Splits (s.source ++ rest) (s :: ss)

theorem Segment.IsFirst.unique {s s' : Segment} {rest rest' : List Char} (h : s.IsFirst rest)
    (h' : s'.IsFirst rest') (heq : s.source ++ rest = s'.source ++ rest') :
    s = s' ∧ rest = rest' := by
  cases h with
  | plain hne =>
    cases h' with
    | plain => simpa [Segment.source] using heq
    | escape => exact absurd (List.cons.inj heq).1 hne
    | backslash => exact absurd (List.cons.inj heq).1 hne
  | escape hrun =>
    cases h' with
    | plain hne => exact absurd (List.cons.inj heq).1.symm hne
    | escape hrun' =>
      simp only [Segment.source, List.cons_append, List.cons.injEq, true_and] at heq
      obtain ⟨rfl, heq⟩ := heq
      obtain ⟨rfl, rfl⟩ := hrun.unique hrun' heq
      exact ⟨rfl, rfl⟩
    | backslash => simp [Segment.source] at heq
  | backslash =>
    cases h' with
    | plain hne => exact absurd (List.cons.inj heq).1.symm hne
    | escape => simp [Segment.source] at heq
    | backslash => exact ⟨rfl, rfl⟩

theorem exists_isFirst {cs : List Char} (h : cs ≠ []) :
    ∃ (s : Segment) (rest : List Char), cs = s.source ++ rest ∧ s.IsFirst rest := by
  obtain ⟨c, cs, rfl⟩ := List.exists_cons_of_ne_nil h
  by_cases hc : c = '\\'
  · subst hc
    cases cs with
    | nil => exact ⟨.backslash, [], rfl, .backslash⟩
    | cons mark cs =>
      obtain ⟨more, rest, rfl, hrun⟩ := exists_isRun (TakesAlong mark) (reach mark) cs
      exact ⟨.escape mark more, rest, rfl, .escape hrun⟩
  · exact ⟨.plain c, cs, rfl, .plain hc⟩

theorem Segment.length_source_pos (s : Segment) : 0 < s.source.length := by
  cases s <;> exact Nat.succ_pos _

/-- Every body comes apart into segments. -/
theorem exists_splits (body : List Char) : ∃ ss, Splits body ss := by
  induction hlength : body.length using Nat.strong_induction_on generalizing body with
  | _ n ih =>
    by_cases hbody : body = []
    · exact ⟨[], hbody ▸ .nil⟩
    · obtain ⟨s, rest, rfl, hfirst⟩ := exists_isFirst hbody
      have hshorter : rest.length < n := by
        have := s.length_source_pos
        rw [List.length_append] at hlength
        omega
      obtain ⟨ss, hss⟩ := ih rest.length hshorter rest rfl
      exact ⟨s :: ss, .cons hfirst hss⟩

/-- No body comes apart in two ways. -/
theorem Splits.unique {body : List Char} {ss ss' : List Segment} (h : Splits body ss)
    (h' : Splits body ss') : ss = ss' := by
  induction h generalizing ss' with
  | nil =>
    generalize hbody : ([] : List Char) = body at h'
    cases h' with
    | nil => rfl
    | @cons s => cases s <;> simp [Segment.source] at hbody
  | @cons s rest ss hfirst _ ih =>
    generalize hbody : s.source ++ rest = body at h'
    cases h' with
    | nil => cases s <;> simp [Segment.source] at hbody
    | cons hfirst' hrest' =>
      obtain ⟨rfl, rfl⟩ := hfirst.unique hfirst' hbody
      rw [ih hrest']

/-! ### Meaning -/

/-- The ends of lines. -/
def lineEnds : List (List Char) := [['\n'], ['\r'], ['\r', '\n']]

/-- A mark that gives a backslash no meaning. -/
structure IsIdleMark (mark : Char) : Prop where
  notLineEnd : mark ≠ '\n' ∧ mark ≠ '\r'
  notLetter : ∀ c, (mark, c) ∉ letterEscapes
  notOctal : ∀ k, ¬IsDigit 8 k mark
  notCode : ∀ width, (mark, width) ∉ codeEscapes
  notName : mark ≠ 'N'

/-- The text that a segment stands for. -/
inductive Segment.Spells : Segment → List Char → Prop
  | plain (c : Char) : Spells (.plain c) [c]
  | lineEnd {mark : Char} {more : List Char} (h : mark :: more ∈ lineEnds) :
      Spells (.escape mark more) []
  | letter {mark c : Char} (h : (mark, c) ∈ letterEscapes) : Spells (.escape mark []) [c]
  | octal {mark c : Char} {more : List Char} (h : Numeral 8 c.toNat (mark :: more)) :
      Spells (.escape mark more) [c]
  | code {mark c : Char} {width : ℕ} {digits : List Char} (hmark : (mark, width) ∈ codeEscapes)
      (hwidth : digits.length = width) (h : Numeral 16 c.toNat digits) :
      Spells (.escape mark digits) [c]
  /-- There are too few digits, or they write no code point. -/
  | misspelled {mark : Char} {width : ℕ} {digits : List Char}
      (hmark : (mark, width) ∈ codeEscapes)
      (h : ∀ c : Char, digits.length = width → ¬Numeral 16 c.toNat digits) :
      Spells (.escape mark digits) ('\\' :: mark :: digits)
  | idle {mark : Char} (h : IsIdleMark mark) : Spells (.escape mark []) ['\\', mark]
  | backslash : Spells .backslash ['\\']

theorem simpleEscape?_eq_some_iff {mark c : Char} :
    simpleEscape? mark = some c ↔ (mark, c) ∈ letterEscapes := by
  constructor
  · intro h
    unfold simpleEscape? at h
    split at h <;> first | (obtain rfl := Option.some.inj h; decide) | simp at h
  · intro h
    simp only [letterEscapes, List.mem_cons, Prod.mk.injEq, List.not_mem_nil, or_false] at h
    rcases h with h | h | h | h | h | h | h | h | h | h <;> obtain ⟨rfl, rfl⟩ := h <;> rfl

theorem simpleEscape?_eq_none_iff {mark : Char} :
    simpleEscape? mark = none ↔ ∀ c, (mark, c) ∉ letterEscapes := by
  rw [Option.eq_none_iff_forall_ne_some]
  exact forall_congr' fun c => not_congr simpleEscape?_eq_some_iff

theorem codeWidth?_eq_some_iff {mark : Char} {width : ℕ} :
    codeWidth? mark = some width ↔ (mark, width) ∈ codeEscapes := by
  constructor
  · intro h
    unfold codeWidth? at h
    split at h <;> first | (obtain rfl := Option.some.inj h; decide) | simp at h
  · intro h
    simp only [codeEscapes, List.mem_cons, Prod.mk.injEq, List.not_mem_nil, or_false] at h
    rcases h with h | h | h <;> obtain ⟨rfl, rfl⟩ := h <;> rfl

theorem codeWidth?_eq_none_iff {mark : Char} :
    codeWidth? mark = none ↔ ∀ width, (mark, width) ∉ codeEscapes := by
  rw [Option.eq_none_iff_forall_ne_some]
  exact forall_congr' fun width => not_congr codeWidth?_eq_some_iff

/-! ### Decoding -/

theorem unescape_plain {c : Char} (h : c ≠ '\\') (cs : List Char) :
    unescape (c :: cs) = (unescape cs).map (c :: ·) := by
  rw [unescape]
  all_goals simp [h]

/-- What stands behind the backslash decides, once it is no line end. -/
theorem unescape_escape {mark : Char} (h : mark ≠ '\n' ∧ mark ≠ '\r') (cs : List Char) :
    unescape ('\\' :: mark :: cs) =
      if mark = 'N' then none
      else
        match simpleEscape? mark with
        | some e => (unescape cs).map (e :: ·)
        | none =>
          if isOctalDigit mark then
            let taken := takeDigits isOctalDigit 2 cs
            (unescape taken.2).map (octalEscape (mark :: taken.1) ++ ·)
          else
            match codeWidth? mark with
            | some width =>
              let taken := takeDigits isHexDigit width cs
              (unescape taken.2).map (codeEscape mark width taken.1 ++ ·)
            | none => (unescape cs).map ('\\' :: mark :: ·) :=
  unescape.eq_6 mark cs h.1 (fun _ hmark _ => h.2 hmark) h.2

theorem unescape_join {lineEnd rest : List Char} (h : lineEnd ∈ lineEnds)
    (hrest : lineEnd = ['\r'] → rest.head? ≠ some '\n') :
    unescape ('\\' :: (lineEnd ++ rest)) = unescape rest := by
  simp only [lineEnds, List.mem_cons, List.not_mem_nil, or_false] at h
  rcases h with rfl | rfl | rfl
  · simp [unescape]
  · rw [List.singleton_append, unescape]
    rintro cs rfl
    exact hrest rfl rfl
  · simp [unescape]

theorem charOfCode?_eq_some_iff {n : ℕ} {c : Char} : charOfCode? n = some c ↔ c.toNat = n := by
  constructor
  · intro h
    rw [charOfCode?] at h
    obtain ⟨hvalid, hc⟩ := Option.dite_none_right_eq_some.mp h
    obtain rfl := Option.some.inj hc
    rfl
  · rintro rfl
    exact charOfCode?_toNat c

/-- An octal escape always has a character. -/
theorem octalEscape_eq {digits : List Char} {n : ℕ} (h : Numeral 8 n digits)
    (hlength : digits.length ≤ 3) : ∃ c : Char, c.toNat = n ∧ octalEscape digits = [c] := by
  have hn : n < 0xd800 :=
    calc n < 8 ^ digits.length := h.lt_pow
      _ ≤ 8 ^ 3 := Nat.pow_le_pow_right (by decide) hlength
      _ < 0xd800 := by decide
  have hc : (Char.ofNat n).toNat = n := by
    rw [Char.ofNat, dif_pos (Or.inl hn)]
    rfl
  refine ⟨Char.ofNat n, hc, ?_⟩
  rw [octalEscape, h.digitsValue_eq (by decide), charOfCode?_eq_some_iff.mpr hc]

/-! #### The marks -/

theorem octalMark_spec {mark : Char} {k : ℕ} (h : IsDigit 8 k mark) :
    (mark ≠ '\n' ∧ mark ≠ '\r') ∧ mark ≠ 'N' ∧ simpleEscape? mark = none ∧
      codeWidth? mark = none ∧ reach mark = 2 := by
  obtain ⟨hten, hk⟩ := h
  cases hten <;> interval_cases k <;> decide

theorem codeMark_spec {mark : Char} {width : ℕ} (h : (mark, width) ∈ codeEscapes) :
    (mark ≠ '\n' ∧ mark ≠ '\r') ∧ mark ≠ 'N' ∧ simpleEscape? mark = none ∧
      isOctalDigit mark = false ∧ reach mark = width := by
  simp only [codeEscapes, List.mem_cons, Prod.mk.injEq, List.not_mem_nil, or_false] at h
  rcases h with h | h | h <;> obtain ⟨rfl, rfl⟩ := h <;> decide

theorem letterMark_spec {mark c : Char} (h : (mark, c) ∈ letterEscapes) :
    (mark ≠ '\n' ∧ mark ≠ '\r') ∧ mark ≠ 'N' ∧ isOctalDigit mark = false ∧
      codeWidth? mark = none := by
  simp only [letterEscapes, List.mem_cons, Prod.mk.injEq, List.not_mem_nil, or_false] at h
  rcases h with h | h | h | h | h | h | h | h | h | h <;> obtain ⟨rfl, rfl⟩ := h <;> decide

/-- A mark that gives no number and starts no line end of two characters takes nothing along. -/
theorem not_takesAlong {mark : Char} (hoctal : isOctalDigit mark = false)
    (hcode : codeWidth? mark = none) (hreturn : mark ≠ '\r') (d : Char) :
    ¬TakesAlong mark d := by
  rintro (hmark | hmark | _)
  · exact isOctalDigit_eq_false_iff.mp hoctal _ hmark
  · exact codeWidth?_eq_none_iff.mp hcode _ hmark
  · exact hreturn rfl

theorem takesAlong_octal_iff {mark d : Char} {k : ℕ} (hmark : IsDigit 8 k mark) :
    TakesAlong mark d ↔ ∃ l, IsDigit 8 l d := by
  constructor
  · intro h
    cases h with
    | octal _ hd => exact ⟨_, hd⟩
    | code hcode =>
      exact absurd hcode (codeWidth?_eq_none_iff.mp (octalMark_spec hmark).2.2.2.1 _)
    | lineEnd => exact absurd rfl (octalMark_spec hmark).1.2
  · rintro ⟨l, hd⟩
    exact .octal hmark hd

theorem takesAlong_code_iff {mark d : Char} {width : ℕ} (hmark : (mark, width) ∈ codeEscapes) :
    TakesAlong mark d ↔ ∃ l, IsDigit 16 l d := by
  constructor
  · intro h
    cases h with
    | octal hoctal =>
      exact absurd hoctal (isOctalDigit_eq_false_iff.mp (codeMark_spec hmark).2.2.2.1 _)
    | code _ hd => exact ⟨_, hd⟩
    | lineEnd => exact absurd rfl (codeMark_spec hmark).1.2
  · rintro ⟨l, hd⟩
    exact .code hmark hd

theorem unescape_octal {mark : Char} {more rest : List Char} {k : ℕ} (hmark : IsDigit 8 k mark)
    (hrun : IsRun (TakesAlong mark) (reach mark) more rest) :
    unescape ('\\' :: mark :: (more ++ rest)) =
      (unescape rest).map (octalEscape (mark :: more) ++ ·) := by
  obtain ⟨hline, hname, hsimple, -, hreach⟩ := octalMark_spec hmark
  rw [hreach] at hrun
  have htake : takeDigits isOctalDigit 2 (more ++ rest) = (more, rest) :=
    hrun.takeDigits_append fun d => isOctalDigit_iff.trans (takesAlong_octal_iff hmark).symm
  rw [unescape_escape hline, if_neg hname, hsimple]
  dsimp only
  rw [if_pos (isOctalDigit_iff.mpr ⟨k, hmark⟩), htake]

theorem unescape_code {mark : Char} {width : ℕ} {digits rest : List Char}
    (hmark : (mark, width) ∈ codeEscapes)
    (hrun : IsRun (TakesAlong mark) (reach mark) digits rest) :
    unescape ('\\' :: mark :: (digits ++ rest)) =
      (unescape rest).map (codeEscape mark width digits ++ ·) := by
  obtain ⟨hline, hname, hsimple, hoctal, hreach⟩ := codeMark_spec hmark
  rw [hreach] at hrun
  have htake : takeDigits isHexDigit width (digits ++ rest) = (digits, rest) :=
    hrun.takeDigits_append fun d => isHexDigit_iff.trans (takesAlong_code_iff hmark).symm
  rw [unescape_escape hline, if_neg hname, hsimple]
  dsimp only
  rw [hoctal, codeWidth?_eq_some_iff.mpr hmark]
  dsimp only
  rw [htake]
  rfl

theorem codeEscape_of_numeral {mark c : Char} {digits : List Char}
    (h : Numeral 16 c.toNat digits) : codeEscape mark digits.length digits = [c] := by
  rw [codeEscape, if_pos rfl, h.digitsValue_eq (Nat.le_refl 16), charOfCode?_toNat]

theorem codeEscape_of_misspelled {mark : Char} {width : ℕ} {digits : List Char}
    (hdigits : ∀ d ∈ digits, ∃ k, IsDigit 16 k d)
    (h : ∀ c : Char, digits.length = width → ¬Numeral 16 c.toNat digits) :
    codeEscape mark width digits = '\\' :: mark :: digits := by
  rw [codeEscape]
  split
  · next c hc =>
    split_ifs at hc with hwidth
    have hnumeral := numeral_digitsValue (Nat.le_refl 16) hdigits
    rw [← charOfCode?_eq_some_iff.mp hc] at hnumeral
    exact absurd hnumeral (h c hwidth)
  · rfl

/-! #### Segment by segment -/

/-- The first segment of a body, decoded. -/
theorem Segment.IsFirst.unescape_append {s : Segment} {rest text : List Char}
    (hfirst : s.IsFirst rest) (h : s.Spells text) :
    unescape (s.source ++ rest) = (unescape rest).map (text ++ ·) := by
  cases h with
  | plain c =>
    obtain ⟨hne⟩ | _ := hfirst
    exact unescape_plain hne rest
  | @lineEnd mark more h =>
    obtain _ | ⟨hrun⟩ := hfirst
    have hreturn : mark :: more = ['\r'] → rest.head? ≠ some '\n' := by
      rintro ⟨⟩ hhead
      exact hrun.longest.elim (fun hlength => absurd hlength (by decide))
        fun hlongest => hlongest '\n' hhead .lineEnd
    exact (unescape_join h hreturn).trans (by simp)
  | @letter mark c h =>
    obtain ⟨hline, hname, -, -⟩ := letterMark_spec h
    change unescape ('\\' :: mark :: rest) = _
    rw [unescape_escape hline, if_neg hname, simpleEscape?_eq_some_iff.mpr h]
    rfl
  | @octal mark c more h =>
    obtain _ | ⟨hrun⟩ := hfirst
    obtain ⟨k, hmark⟩ := h.exists_isDigit mark List.mem_cons_self
    have hlength : (mark :: more).length ≤ 3 := by
      have := hrun.length_le
      rw [(octalMark_spec hmark).2.2.2.2] at this
      exact Nat.succ_le_succ this
    obtain ⟨c', hc', hescape⟩ := octalEscape_eq h hlength
    obtain rfl := Char.toNat_inj.mp hc'
    exact (unescape_octal hmark hrun).trans (by rw [hescape])
  | code hmark hwidth h =>
    obtain _ | ⟨hrun⟩ := hfirst
    subst hwidth
    exact (unescape_code hmark hrun).trans (by rw [codeEscape_of_numeral h])
  | misspelled hmark h =>
    obtain _ | ⟨hrun⟩ := hfirst
    have hdigits := fun d hd => (takesAlong_code_iff hmark).mp (hrun.forall_mem d hd)
    exact (unescape_code hmark hrun).trans (by rw [codeEscape_of_misspelled hdigits h])
  | @idle mark h =>
    change unescape ('\\' :: mark :: rest) = _
    rw [unescape_escape h.notLineEnd, if_neg h.notName, simpleEscape?_eq_none_iff.mpr h.notLetter]
    dsimp only
    rw [isOctalDigit_eq_false_iff.mpr h.notOctal, codeWidth?_eq_none_iff.mpr h.notCode]
    rfl
  | backslash =>
    obtain _ | _ | _ := hfirst
    simp [Segment.source, unescape]

/-- An escape by character name leaves nothing to decode. -/
theorem unescape_name (cs : List Char) : unescape ('\\' :: 'N' :: cs) = none := by
  rw [unescape_escape (by decide), if_pos rfl]

theorem mem_lineEnds_of_isRun {more rest : List Char}
    (hrun : IsRun (TakesAlong '\r') (reach '\r') more rest) : '\r' :: more ∈ lineEnds := by
  rcases more with _ | ⟨d, _ | ⟨d', more⟩⟩
  · decide
  · cases hrun.forall_mem d List.mem_cons_self with
    | octal hmark => exact absurd rfl (octalMark_spec hmark).1.2
    | code hmark => exact absurd rfl (codeMark_spec hmark).1.2
    | lineEnd => decide
  · have hreach : reach '\r' = 1 := by decide
    have hlength := hrun.length_le
    rw [hreach, List.length_cons, List.length_cons] at hlength
    omega

/-- A segment stands for a text unless it names a character. -/
theorem Segment.IsFirst.exists_spells {s : Segment} {rest : List Char} (hfirst : s.IsFirst rest)
    (hname : s ≠ .escape 'N' []) : ∃ text, s.Spells text := by
  cases hfirst with
  | @plain c _ => exact ⟨[c], .plain c⟩
  | backslash => exact ⟨['\\'], .backslash⟩
  | @escape mark more _ hrun =>
    by_cases hoctal : ∃ k, IsDigit 8 k mark
    · obtain ⟨k, hmark⟩ := hoctal
      have hdigits : ∀ d ∈ mark :: more, ∃ l, IsDigit 8 l d :=
        List.forall_mem_cons.mpr ⟨⟨k, hmark⟩, fun d hd =>
          (takesAlong_octal_iff hmark).mp (hrun.forall_mem d hd)⟩
      have hnumeral := numeral_digitsValue (by decide) hdigits
      have hlength : (mark :: more).length ≤ 3 :=
        Nat.succ_le_succ ((octalMark_spec hmark).2.2.2.2 ▸ hrun.length_le)
      obtain ⟨c, hc, -⟩ := octalEscape_eq hnumeral hlength
      exact ⟨[c], .octal (hc ▸ hnumeral)⟩
    by_cases hcode : ∃ width, (mark, width) ∈ codeEscapes
    · obtain ⟨width, hmark⟩ := hcode
      by_cases hc : ∃ c : Char, more.length = width ∧ Numeral 16 c.toNat more
      · obtain ⟨c, hwidth, hnumeral⟩ := hc
        exact ⟨[c], .code hmark hwidth hnumeral⟩
      · exact ⟨_, .misspelled hmark fun c hwidth hnumeral => hc ⟨c, hwidth, hnumeral⟩⟩
    by_cases hreturn : mark = '\r'
    · subst hreturn
      exact ⟨[], .lineEnd (mem_lineEnds_of_isRun hrun)⟩
    rw [not_exists] at hoctal hcode
    obtain rfl : more = [] := List.eq_nil_iff_forall_not_mem.mpr fun d hd =>
      not_takesAlong (isOctalDigit_eq_false_iff.mpr hoctal) (codeWidth?_eq_none_iff.mpr hcode)
        hreturn d (hrun.forall_mem d hd)
    by_cases hline : mark = '\n'
    · subst hline
      exact ⟨[], .lineEnd (by decide)⟩
    by_cases hletter : ∃ c, (mark, c) ∈ letterEscapes
    · obtain ⟨c, hletter⟩ := hletter
      exact ⟨[c], .letter hletter⟩
    rw [not_exists] at hletter
    exact ⟨_, .idle ⟨⟨hline, hreturn⟩, hletter, hoctal, hcode, fun hN => hname (by rw [hN])⟩⟩

/-! #### The whole body -/

/-- What the segments of a body spell is what it decodes to. -/
theorem Splits.unescape_eq {body : List Char} {ss : List Segment} (h : Splits body ss)
    {texts : List (List Char)} (htexts : List.Forall₂ Segment.Spells ss texts) :
    unescape body = some texts.flatten := by
  induction h generalizing texts with
  | nil =>
    cases htexts
    rw [unescape]
    rfl
  | cons hfirst _ ih =>
    obtain _ | ⟨hspells, htexts⟩ := htexts
    rw [hfirst.unescape_append hspells, ih htexts]
    rfl

theorem Splits.exists_spells {body : List Char} {ss : List Segment} (h : Splits body ss)
    (hname : Segment.escape 'N' [] ∉ ss) : ∃ texts, List.Forall₂ Segment.Spells ss texts := by
  induction h with
  | nil => exact ⟨[], .nil⟩
  | cons hfirst _ ih =>
    rw [List.mem_cons, not_or] at hname
    obtain ⟨text, hspells⟩ := hfirst.exists_spells (Ne.symm hname.1)
    obtain ⟨texts, htexts⟩ := ih hname.2
    exact ⟨text :: texts, .cons hspells htexts⟩

/-- One character that is named by its name is enough to refuse the body. -/
theorem Splits.unescape_eq_none {body : List Char} {ss : List Segment} (h : Splits body ss)
    (hname : Segment.escape 'N' [] ∈ ss) : unescape body = none := by
  induction h with
  | nil => exact absurd hname List.not_mem_nil
  | @cons s rest ss hfirst _ ih =>
    by_cases hs : s = .escape 'N' []
    · subst hs
      exact unescape_name rest
    · obtain ⟨text, hspells⟩ := hfirst.exists_spells hs
      rw [hfirst.unescape_append hspells, ih ((List.mem_cons.mp hname).resolve_left (Ne.symm hs))]
      rfl

/-- **Decoding segment by segment.** Every body comes apart into segments in exactly one way. It is
refused if and only if one of them names a character by its name; otherwise it decodes to what its
segments spell, one after the other. A number of up to three octal digits always is that of a
character. -/
theorem unescape_segments (body : List Char) :
    ∃ ss, (∀ ss', Splits body ss' ↔ ss' = ss) ∧
      (unescape body = none ↔ Segment.escape 'N' [] ∈ ss) ∧
      (∀ text, unescape body = some text ↔
        ∃ texts, List.Forall₂ Segment.Spells ss texts ∧ text = texts.flatten) ∧
      ∀ digits n, Numeral 8 n digits → digits.length ≤ 3 →
        ∃ c : Char, c.toNat = n ∧ octalEscape digits = [c] := by
  obtain ⟨ss, hss⟩ := exists_splits body
  have hnone : unescape body = none ↔ Segment.escape 'N' [] ∈ ss := by
    refine ⟨fun h => by_contra fun hname => ?_, hss.unescape_eq_none⟩
    obtain ⟨texts, htexts⟩ := hss.exists_spells hname
    rw [hss.unescape_eq htexts] at h
    exact absurd h (Option.some_ne_none _)
  refine ⟨ss, fun ss' => ⟨fun h => h.unique hss, fun h => h ▸ hss⟩, hnone, fun text => ⟨?_, ?_⟩,
    fun digits n hdigits hlength => octalEscape_eq hdigits hlength⟩
  · intro h
    have hname : Segment.escape 'N' [] ∉ ss := fun hname => by
      rw [hss.unescape_eq_none hname] at h
      exact absurd h.symm (Option.some_ne_none _)
    obtain ⟨texts, htexts⟩ := hss.exists_spells hname
    rw [hss.unescape_eq htexts] at h
    exact ⟨texts, htexts, (Option.some.inj h).symm⟩
  · rintro ⟨texts, htexts, rfl⟩
    exact hss.unescape_eq htexts

end Descriptor.Script
