import Descriptor.Proofs.Text.Ascii
import Descriptor.Proofs.Text.Squeeze
import Descriptor.Text.Lowercase

/-!
# Texts in lower case

What full lower-casing does to a text that differs from a lower-case one in the case of the letters
`A` to `Z` only: it gives that text, since no character of it is one whose lower case depends on the
characters around it.

## Main results

* `lowercase_of_lowercaseAscii` : the text is found again under any case of the ASCII letters.
* `lowercaseAscii_trim` : trimming does not depend on the case of ASCII letters.
-/

namespace Descriptor.Text

/-! ### Texts that lower-casing leaves as they are -/

private theorem lowercaseFrom_eq_flatMap {cs : List Char} (h : '\u03a3' ∉ cs) (before : List Char) :
    lowercaseFrom before cs = cs.flatMap lowerChar := by
  induction cs generalizing before with
  | nil => rfl
  | cons c cs ih =>
    rw [List.mem_cons, not_or] at h
    rw [lowercaseFrom, if_neg (Ne.symm h.1), ih h.2, List.flatMap_cons]

/-- Each character of a text that lower-casing leaves as it is has itself as its lower case. -/
private theorem lowerChar_eq_singleton_of_lowercaseFrom {before cs : List Char}
    (h : lowercaseFrom before cs = cs) : ∀ c ∈ cs, c ≠ '\u03a3' ∧ lowerChar c = [c] := by
  induction cs generalizing before with
  | nil => exact fun c hc => absurd hc List.not_mem_nil
  | cons d cs ih =>
    have hd : d ≠ '\u03a3' := by
      rintro rfl
      rw [lowercaseFrom, if_pos rfl] at h
      have hhead := (List.cons.inj h).1
      split_ifs at hhead <;> exact absurd hhead (by decide)
    rw [lowercaseFrom, if_neg hd] at h
    -- the capital I with a dot is the one character with two in lower case
    have hdot : d ≠ '\u0130' := by
      rintro rfl
      exact absurd (List.cons.inj h).1 (by decide)
    have hlower : lowerChar d = [lowerSingle d] := by rw [lowerChar, if_neg hdot]
    rw [hlower, List.singleton_append] at h
    obtain ⟨hsingle, hrest⟩ := List.cons.inj h
    intro c hc
    rcases List.mem_cons.mp hc with rfl | hc
    · exact ⟨hd, by rw [hlower, hsingle]⟩
    · exact ih hrest c hc

/-! ### The case of ASCII letters -/

private theorem toLower_cases (c : Char) :
    c.toLower = c ∨ 65 ≤ c.toNat ∧ c.toNat ≤ 90 ∧ c.toLower.toNat = c.toNat + 32 := by
  unfold Char.toLower
  split
  · next h =>
    simp only [ge_iff_le, UInt32.le_iff_toNat_le] at h
    have hbounds : 65 ≤ c.toNat ∧ c.toNat ≤ 90 := h
    refine .inr ⟨hbounds.1, hbounds.2, ?_⟩
    have hsum : (c.val + ('a'.val - 'A'.val)).toNat = (c.toNat + 32) % 2 ^ 32 := UInt32.toNat_add ..
    rw [Char.toNat, hsum, Nat.mod_eq_of_lt (by omega)]
  · exact .inl rfl

/-- A property that no ASCII letter has does not depend on the case of ASCII letters. -/
theorem apply_toLower {p : Char → Bool} (hp : ∀ c : Char, c.isAlpha → p c = false) (c : Char) :
    p c.toLower = p c := by
  rcases toLower_cases c with h | ⟨hlow, hhigh, hlower⟩
  · rw [h]
  · rw [hp c (isAlpha_iff.mpr (by omega)), hp c.toLower (isAlpha_iff.mpr (by omega))]

theorem isBlank_eq_false_of_isAlpha {c : Char} (h : c.isAlpha) : isBlank c = false := by
  rw [isAlpha_iff] at h
  simp only [isBlank, Bool.or_eq_false_iff, Bool.and_eq_false_imp, decide_eq_true_eq,
    decide_eq_false_iff_not, beq_eq_false_iff_ne]
  omega

theorem isBlank_toLower (c : Char) : isBlank c.toLower = isBlank c :=
  apply_toLower (fun _ => isBlank_eq_false_of_isAlpha) c

private theorem lowercaseAscii_trimStart (cs : List Char) :
    lowercaseAscii (trimStart cs) = trimStart (lowercaseAscii cs) := by
  rw [lowercaseAscii, lowercaseAscii, trimStart, trimStart, List.dropWhile_map]
  exact congrArg _ (congrArg (List.dropWhile · cs) (funext fun c => (isBlank_toLower c).symm))

/-- Trimming does not depend on the case of ASCII letters. -/
theorem lowercaseAscii_trim (cs : List Char) :
    lowercaseAscii (trim cs) = trim (lowercaseAscii cs) := by
  have hreverse : ∀ ds : List Char, lowercaseAscii ds.reverse = (lowercaseAscii ds).reverse :=
    fun ds => List.map_reverse
  rw [trim, trimEnd, hreverse, lowercaseAscii_trimStart, hreverse, lowercaseAscii_trimStart,
    ← trimEnd, ← trim]

/-- A text in another case of the ASCII letters has no outer blanks if the text has none. -/
theorem trim_eq_self_of_lowercaseAscii_eq {written cs : List Char}
    (h : lowercaseAscii written = lowercaseAscii cs) (hcs : trim cs = cs) :
    trim written = written := by
  have hlower : lowercaseAscii (trim written) = lowercaseAscii written := by
    rw [lowercaseAscii_trim, h, ← lowercaseAscii_trim, hcs]
  obtain ⟨before, after, -, -, hwritten⟩ := trim_decomposition written
  have hlength := congrArg List.length hlower
  have hsum := congrArg List.length hwritten
  simp only [lowercaseAscii, List.length_map, List.length_append] at hlength hsum
  have hbefore : before = [] := List.eq_nil_of_length_eq_zero (by omega)
  have hafter : after = [] := List.eq_nil_of_length_eq_zero (by omega)
  rw [hbefore, hafter, List.nil_append, List.append_nil] at hwritten
  exact hwritten.symm

/-- A character that is no ASCII letter stands in a text in any case of the ASCII letters. -/
theorem mem_lowercaseAscii_iff {c : Char} (hc : c.isAlpha = false) {cs : List Char} :
    c ∈ lowercaseAscii cs ↔ c ∈ cs := by
  have hother (d : Char) (hd : d.isAlpha) : decide (d = c) = false :=
    decide_eq_false fun heq => absurd hd (by simp [heq, hc])
  have hlower (d : Char) : d.toLower = c ↔ d = c :=
    decide_eq_decide.mp (apply_toLower (p := fun d => decide (d = c)) hother d)
  simp [lowercaseAscii, hlower]

private theorem lowerChar_of_toLower {c d : Char} (hc : c.toLower = d) (hd : lowerChar d = [d]) :
    lowerChar c = [d] := by
  rcases toLower_cases c with hself | ⟨-, hhigh, -⟩
  · rw [← hself, hc, hd]
  · have hdot : c ≠ '\u0130' := by
      rintro rfl
      exact absurd hhigh (by decide)
    rw [lowerChar, if_neg hdot, lowerSingle, if_pos (by omega), hc]

/-- A text that lower-casing leaves as it is, written in any case of its ASCII letters, is what
lower-casing gives. -/
theorem lowercase_of_lowercaseAscii {written cs : List Char} (h : lowercase cs = cs)
    (hwritten : lowercaseAscii written = cs) : lowercase written = cs := by
  subst hwritten
  have hchar := lowerChar_eq_singleton_of_lowercaseFrom h
  have hsigma : '\u03a3' ∉ written := fun hmem =>
    (hchar _ (List.mem_map_of_mem hmem)).1 (by decide)
  rw [lowercase, lowercaseFrom_eq_flatMap hsigma]
  clear h hsigma
  induction written with
  | nil => rfl
  | cons c cs ih =>
    have hc := hchar c.toLower (List.mem_map_of_mem List.mem_cons_self)
    rw [List.flatMap_cons, lowerChar_of_toLower rfl hc.2,
      ih fun d hd => hchar d (List.mem_cons_of_mem _ hd)]
    rfl

end Descriptor.Text
