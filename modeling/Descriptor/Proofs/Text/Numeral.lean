import Descriptor.Proofs.Text.Ascii
import Descriptor.Proofs.Text.Digits
import Mathlib.Data.List.Induction

/-!
# Numbers in digits

What it means for digits to write a number, said without reading them, and the longest run of
characters of a class at the front of a text. Letters that stand for digits may have either case,
each its own.

## Main definitions

* `IsDigit` : the digits of a base with their values.
* `Numeral` : the digits that write a number.
* `IsRun` : the longest run of a class, up to a limit.

## Main results

* `Numeral.digitsValue_eq`, `numeral_digitsValue` : digits are read as the number they write.
* `IsRun.takeDigits_append` : reading takes the longest run.
* `IsRun.unique`, `exists_isRun` : there is one longest run.
-/

namespace Descriptor.Text

/-- The digits of a base up to sixteen with their values. -/
inductive IsDigit (base : ℕ) : ℕ → Char → Prop
  | intro {ten : Char} (hten : IsTen ten) {n : ℕ} (h : n < base) :
      IsDigit base n (digitChar ten n)

/-- The digits that write a number in a base, with zeros in front or without. -/
inductive Numeral (base : ℕ) : ℕ → List Char → Prop
  | nil : Numeral base 0 []
  | concat {n k : ℕ} {digits : List Char} {d : Char} (h : Numeral base n digits)
      (hd : IsDigit base k d) : Numeral base (n * base + k) (digits ++ [d])

/-! ### The value of digits -/

theorem isDigit_of_digitChar_eq {base k : ℕ} {ten d : Char} (hten : IsTen ten) (hk : k < base)
    (h : digitChar ten k = d) : IsDigit base k d :=
  h ▸ .intro hten hk

theorem IsDigit.digitValue_eq {base k : ℕ} {d : Char} (h : IsDigit base k d) (hbase : base ≤ 16) :
    digitValue d = k := by
  obtain ⟨hten, hk⟩ := h
  exact digitValue_digitChar hten (Nat.lt_of_lt_of_le hk hbase)

theorem IsDigit.lt {base k : ℕ} {d : Char} (h : IsDigit base k d) : k < base := by
  obtain ⟨-, hk⟩ := h
  exact hk

theorem isHexDigit_iff {c : Char} : isHexDigit c = true ↔ ∃ k, IsDigit 16 k c := by
  constructor
  · intro h
    obtain ⟨hlt, hchar | hchar⟩ :=
      forall_ascii (P := fun c => isHexDigit c = true → digitValue c < 16 ∧
        (digitChar 'a' (digitValue c) = c ∨ digitChar 'A' (digitValue c) = c))
        (by decide) (toNat_lt_of_isHexDigit h) h
    · exact ⟨digitValue c, isDigit_of_digitChar_eq .lower hlt hchar⟩
    · exact ⟨digitValue c, isDigit_of_digitChar_eq .upper hlt hchar⟩
  · rintro ⟨k, hten, hk⟩
    exact isHexDigit_digitChar hten hk

theorem isOctalDigit_iff {c : Char} : isOctalDigit c = true ↔ ∃ k, IsDigit 8 k c := by
  constructor
  · intro h
    have hbound : c.toNat < 128 := by
      have hle : c.val ≤ '7'.val := of_decide_eq_true (Bool.and_eq_true_iff.mp h).2
      exact Nat.lt_of_le_of_lt (UInt32.le_iff_toNat_le.mp hle) (by decide)
    obtain ⟨hlt, hchar⟩ :=
      forall_ascii (P := fun c => isOctalDigit c = true → digitValue c < 8 ∧
        digitChar 'a' (digitValue c) = c) (by decide) hbound h
    exact ⟨digitValue c, isDigit_of_digitChar_eq .lower hlt hchar⟩
  · rintro ⟨k, hten, hk⟩
    cases hten <;> interval_cases k <;> rfl

theorem isOctalDigit_eq_false_iff {c : Char} :
    isOctalDigit c = false ↔ ∀ k, ¬IsDigit 8 k c := by
  rw [Bool.eq_false_iff, Ne, isOctalDigit_iff, not_exists]

/-- Digits are read as the number that they write. -/
theorem Numeral.digitsValue_eq {base n : ℕ} {digits : List Char} (h : Numeral base n digits)
    (hbase : base ≤ 16) : digitsValue base digits = n := by
  induction h with
  | nil => rfl
  | concat _ hd ih => rw [digitsValue_concat, ih, hd.digitValue_eq hbase]

/-- Digits write the number that they are read as. -/
theorem numeral_digitsValue {base : ℕ} (hbase : base ≤ 16) {digits : List Char}
    (h : ∀ d ∈ digits, ∃ k, IsDigit base k d) : Numeral base (digitsValue base digits) digits := by
  induction digits using List.reverseRecOn with
  | nil => exact .nil
  | append_singleton digits d ih =>
    obtain ⟨k, hd⟩ := h d (List.mem_append_right digits List.mem_cons_self)
    rw [digitsValue_concat, hd.digitValue_eq hbase]
    exact .concat (ih fun e he => h e (List.mem_append_left [d] he)) hd

theorem Numeral.exists_isDigit {base n : ℕ} {digits : List Char} (h : Numeral base n digits) :
    ∀ d ∈ digits, ∃ k, IsDigit base k d := by
  induction h with
  | nil => exact fun d hd => absurd hd List.not_mem_nil
  | concat _ hd ih =>
    intro e he
    rcases List.mem_append.mp he with he | he
    · exact ih e he
    · exact ⟨_, List.mem_singleton.mp he ▸ hd⟩

/-- A number is less than the power of the base that its digits have room for. -/
theorem Numeral.lt_pow {base n : ℕ} {digits : List Char} (h : Numeral base n digits) :
    n < base ^ digits.length := by
  induction h with
  | nil => exact Nat.one_pos
  | @concat n k digits d _ hd ih =>
    calc n * base + k < n * base + base := Nat.add_lt_add_left hd.lt _
      _ = (n + 1) * base := (Nat.succ_mul n base).symm
      _ ≤ base ^ digits.length * base := Nat.mul_le_mul_right base ih
      _ = base ^ (digits ++ [d]).length := by
        rw [List.length_append, List.length_singleton, Nat.pow_succ]

/-- A numeral is digits that are read as its number. -/
theorem numeral_iff {base n : ℕ} {digits : List Char} {isDigit : Char → Bool}
    (hdigit : ∀ c, isDigit c = true ↔ ∃ k, IsDigit base k c) (hbase : base ≤ 16) :
    Numeral base n digits ↔ digits.all isDigit = true ∧ digitsValue base digits = n := by
  constructor
  · intro h
    exact ⟨List.all_eq_true.mpr fun d hd => (hdigit d).mpr (h.exists_isDigit d hd),
      h.digitsValue_eq hbase⟩
  · rintro ⟨hall, rfl⟩
    exact numeral_digitsValue hbase fun d hd => (hdigit d).mp (List.all_eq_true.mp hall d hd)

/-- The last digits of a number, as many as it takes, write it. -/
theorem numeral_hexDigits {ten : Char} (hten : IsTen ten) {width n : ℕ} (h : n < 16 ^ width) :
    Numeral 16 n (hexDigits ten width n) :=
  (numeral_iff @isHexDigit_iff (Nat.le_refl 16)).mpr
    ⟨List.all_eq_true.mpr fun _ hd => isHexDigit_of_mem_hexDigits hten hd,
      digitsValue_hexDigits hten h⟩

/-! ### Runs of a class -/

/-- The longest run of a class of characters, up to a limit, at the front of a text. -/
structure IsRun (p : Char → Prop) (limit : ℕ) (run rest : List Char) : Prop where
  forall_mem : ∀ c ∈ run, p c
  length_le : run.length ≤ limit
  longest : run.length = limit ∨ ∀ c ∈ rest.head?, ¬p c

section Runs

variable {p : Char → Prop} {limit : ℕ} {run rest : List Char}

theorem isRun_nil (h : limit = 0 ∨ ∀ c ∈ rest.head?, ¬p c) : IsRun p limit [] rest :=
  ⟨fun _ hc => absurd hc List.not_mem_nil, Nat.zero_le limit, h.imp_left Eq.symm⟩

theorem isRun_cons_iff {c : Char} :
    IsRun p (limit + 1) (c :: run) rest ↔ p c ∧ IsRun p limit run rest := by
  constructor
  · rintro ⟨hclass, hlength, hlongest⟩
    exact ⟨hclass c List.mem_cons_self, fun d hd => hclass d (List.mem_cons_of_mem c hd),
      Nat.le_of_succ_le_succ hlength, hlongest.imp_left Nat.succ.inj⟩
  · rintro ⟨hc, hclass, hlength, hlongest⟩
    exact ⟨List.forall_mem_cons.mpr ⟨hc, hclass⟩, Nat.succ_le_succ hlength,
      hlongest.imp_left (congrArg Nat.succ)⟩

/-- A run that is as long as it may be is the longest, whatever follows. -/
theorem isRun_of_length_eq (h : ∀ c ∈ run, p c) (hlength : run.length = limit)
    (rest : List Char) : IsRun p limit run rest :=
  ⟨h, Nat.le_of_eq hlength, .inl hlength⟩

/-- Reading takes the longest run. -/
theorem IsRun.takeDigits_append {isDigit : Char → Bool} (hdigit : ∀ c, isDigit c = true ↔ p c)
    (h : IsRun p limit run rest) : takeDigits isDigit limit (run ++ rest) = (run, rest) := by
  induction run generalizing limit with
  | nil =>
    rcases limit with _ | limit
    · rw [List.nil_append, takeDigits]
      exact fun _ _ _ hlimit => absurd hlimit (Nat.succ_ne_zero _).symm
    · rcases rest with _ | ⟨c, rest⟩
      · rfl
      · have hc : isDigit c = false :=
          Bool.eq_false_iff.mpr fun hc =>
            h.longest.elim (fun hlength => absurd hlength (Nat.succ_ne_zero limit).symm)
              fun hlongest => hlongest c rfl ((hdigit c).mp hc)
        rw [List.nil_append, takeDigits, if_neg (by simp [hc])]
  | cons c run ih =>
    obtain ⟨limit, rfl⟩ : ∃ l, limit = l + 1 :=
      Nat.exists_eq_succ_of_ne_zero (Nat.ne_of_gt (Nat.lt_of_lt_of_le (Nat.succ_pos _) h.length_le))
    obtain ⟨hc, h⟩ := isRun_cons_iff.mp h
    rw [List.cons_append, takeDigits, if_pos ((hdigit c).mpr hc), ih h]

/-- A text starts with one longest run only. -/
theorem IsRun.unique {run' rest' : List Char} (h : IsRun p limit run rest)
    (h' : IsRun p limit run' rest') (heq : run ++ rest = run' ++ rest') :
    run = run' ∧ rest = rest' := by
  classical
  have hdigit : ∀ c, decide (p c) = true ↔ p c := fun c => decide_eq_true_iff
  exact Prod.mk.inj ((h.takeDigits_append hdigit).symm.trans (heq ▸ h'.takeDigits_append hdigit))

theorem exists_isRun (p : Char → Prop) (limit : ℕ) (cs : List Char) :
    ∃ run rest, cs = run ++ rest ∧ IsRun p limit run rest := by
  induction cs generalizing limit with
  | nil => exact ⟨[], [], rfl, isRun_nil (.inr fun c hc => absurd hc (by simp))⟩
  | cons c cs ih =>
    rcases limit with _ | limit
    · exact ⟨[], c :: cs, rfl, isRun_nil (.inl rfl)⟩
    · by_cases hc : p c
      · obtain ⟨run, rest, rfl, hrun⟩ := ih limit
        exact ⟨c :: run, rest, rfl, isRun_cons_iff.mpr ⟨hc, hrun⟩⟩
      · refine ⟨[], c :: cs, rfl, isRun_nil (.inr fun d hd => ?_)⟩
        obtain rfl := Option.some.inj hd
        exact hc

end Runs

end Descriptor.Text
