import Descriptor.Text.Digits
import Mathlib.Data.Nat.Basic
import Mathlib.Tactic.IntervalCases

/-!
# Digits read back

The digits of a number in base sixteen, as they stand in escapes, read as that number again, in
either case of the letters and with any zeros in front.

## Main results

* `digitsValue_hexDigits` : the number that its digits write.
* `charOfCode?_toNat` : a character is the one with its code point.
-/

namespace Descriptor.Text

/-- The first of the letters that stand for digits from ten on, in either case. -/
inductive IsTen : Char → Prop
  | lower : IsTen 'a'
  | upper : IsTen 'A'

theorem digitValue_digitChar {ten : Char} (hten : IsTen ten) {n : Nat} (h : n < 16) :
    digitValue (digitChar ten n) = n := by
  cases hten <;> interval_cases n <;> rfl

theorem isHexDigit_digitChar {ten : Char} (hten : IsTen ten) {n : Nat} (h : n < 16) :
    isHexDigit (digitChar ten n) = true := by
  cases hten <;> interval_cases n <;> rfl

@[simp] theorem length_hexDigits (ten : Char) (width n : Nat) :
    (hexDigits ten width n).length = width := by
  induction width generalizing n with
  | zero => rfl
  | succ width ih => rw [hexDigits, List.length_append, ih, List.length_singleton]

theorem isHexDigit_of_mem_hexDigits {ten : Char} (hten : IsTen ten) {width n : Nat} {c : Char}
    (h : c ∈ hexDigits ten width n) : isHexDigit c = true := by
  induction width generalizing n with
  | zero => exact absurd h List.not_mem_nil
  | succ width ih =>
    rcases List.mem_append.mp h with h | h
    · exact ih h
    · obtain rfl := List.mem_singleton.mp h
      exact isHexDigit_digitChar hten (Nat.mod_lt n (by decide))

theorem digitsValue_concat (base : Nat) (digits : List Char) (c : Char) :
    digitsValue base (digits ++ [c]) = digitsValue base digits * base + digitValue c := by
  rw [digitsValue, List.foldl_append]
  rfl

/-- A number that has no more digits than are written is what they write. -/
theorem digitsValue_hexDigits {ten : Char} (hten : IsTen ten) {width n : Nat}
    (h : n < 16 ^ width) : digitsValue 16 (hexDigits ten width n) = n := by
  induction width generalizing n with
  | zero =>
    rw [Nat.pow_zero, Nat.lt_one_iff] at h
    exact h.symm
  | succ width ih =>
    have hquotient : n / 16 < 16 ^ width :=
      Nat.div_lt_of_lt_mul (by rwa [Nat.pow_succ, Nat.mul_comm] at h)
    rw [hexDigits, digitsValue_concat, ih hquotient,
      digitValue_digitChar hten (Nat.mod_lt n (by decide))]
    exact Nat.div_add_mod' n 16

theorem charOfCode?_toNat (c : Char) : charOfCode? c.toNat = some c := by
  have hvalid : c.toNat.isValidChar := c.valid
  rw [charOfCode?, dif_pos hvalid]
  rfl

end Descriptor.Text
