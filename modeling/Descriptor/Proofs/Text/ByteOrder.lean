import Descriptor.Proofs.Text.Utf8

/-!
# The order of UTF-8 forms

Texts come in the order of their characters, and their UTF-8 forms in the order of their bytes. The
two orders are the same: of two characters, the one with the smaller code point has the smaller
first byte, or the first byte in which they differ is a later one that belongs to both.

## Main results

* `utf8EncodeChar_lt` : the bytes of a smaller character come first, whatever follows.
* `encodeUtf8_lt_iff` : texts are in the order of their bytes.
-/

namespace Descriptor.Text

/-- The bytes of numbers below 256 are in the order of the numbers, and then of what follows. -/
theorem ofNat_cons_lt_iff {m n : Nat} (hm : m < 256) (hn : n < 256) (xs ys : List UInt8) :
    UInt8.ofNat m :: xs < UInt8.ofNat n :: ys ↔ m < n ∨ m = n ∧ xs < ys := by
  have heq : UInt8.ofNat m = UInt8.ofNat n ↔ m = n := by
    rw [← UInt8.toNat_inj, toNat_ofNat_byte hm, toNat_ofNat_byte hn]
  rw [List.cons_lt_cons_iff, UInt8.lt_iff_toNat_lt, toNat_ofNat_byte hm, toNat_ofNat_byte hn, heq]

/-- The bytes of a smaller character come first, whatever follows. -/
theorem utf8EncodeChar_lt {c d : Char} (h : c < d) (xs ys : List UInt8) :
    String.utf8EncodeChar c ++ xs < String.utf8EncodeChar d ++ ys := by
  have hlt : c.val.toNat < d.val.toNat := h
  have hd : d.val.toNat < 0x110000 := by
    have hvalid : d.val.toNat < 0xd800 ∨ 0xdfff < d.val.toNat ∧ d.val.toNat < 0x110000 := d.valid
    omega
  simp only [String.utf8EncodeChar]
  generalize c.val.toNat = m at hlt
  generalize d.val.toNat = n at hlt hd
  -- Each further byte has the next six bits.
  have hdigits (k : Nat) : k / 4096 = k / 64 / 64 ∧ k / 262144 = k / 64 / 64 / 64 := by omega
  rw [(hdigits m).1, (hdigits m).2, (hdigits n).1, (hdigits n).2]
  split_ifs
  all_goals
    simp only [List.cons_append, List.nil_append]
    repeat rw [ofNat_cons_lt_iff (by omega) (by omega)]
    omega

theorem utf8EncodeChar_ne_nil (c : Char) : String.utf8EncodeChar c ≠ [] := by
  simp only [String.utf8EncodeChar]
  split_ifs <;> simp

theorem append_lt_append_iff (front xs ys : List UInt8) :
    front ++ xs < front ++ ys ↔ xs < ys := by
  induction front with
  | nil => rfl
  | cons b front ih => simp [ih]

/-- **Texts are in the order of their bytes.** -/
theorem encodeUtf8_lt_iff (cs ds : List Char) : encodeUtf8 cs < encodeUtf8 ds ↔ cs < ds := by
  have hcons (c : Char) (cs : List Char) :
      encodeUtf8 (c :: cs) = String.utf8EncodeChar c ++ encodeUtf8 cs := rfl
  induction cs generalizing ds with
  | nil =>
    cases ds with
    | nil => exact iff_of_false (List.lt_irrefl _) (List.lt_irrefl _)
    | cons d ds =>
      obtain ⟨b, bytes, hbytes⟩ := List.exists_cons_of_ne_nil
        (mt List.append_eq_nil_iff.mp fun h => utf8EncodeChar_ne_nil d h.1)
      exact iff_of_true (hcons d ds ▸ hbytes ▸ List.nil_lt_cons _ _) (List.nil_lt_cons _ _)
  | cons c cs ih =>
    cases ds with
    | nil => exact iff_of_false (List.not_lt_nil _) (List.not_lt_nil _)
    | cons d ds =>
      rw [hcons, hcons, List.cons_lt_cons_iff]
      obtain hlt | heq | hgt := Nat.lt_trichotomy c.val.toNat d.val.toNat
      · exact iff_of_true (utf8EncodeChar_lt hlt _ _) (.inl hlt)
      · obtain rfl : c = d := Char.toNat_inj.mp heq
        refine (append_lt_append_iff _ _ _).trans ((ih ds).trans ?_)
        simp only [Char.lt_irrefl, true_and, false_or]
      · refine iff_of_false (List.lt_asymm (utf8EncodeChar_lt hgt _ _)) ?_
        rintro (hlt | ⟨rfl, -⟩)
        · exact Nat.lt_asymm hgt hlt
        · exact Nat.lt_irrefl _ hgt

end Descriptor.Text
