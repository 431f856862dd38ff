import Descriptor.Text.Utf8
import Mathlib.Tactic.SplitIfs

/-!
# UTF-8 read back

The bytes of a text are those of its characters, one after the other. The first byte of a character
tells how many follow, and what was read up to each byte is the code point without the bits that
still come; so the text is read back.

## Main results

* `readUtf8_first`, `readUtf8_next`, `readUtf8_last` : a character byte by byte.
* `readUtf8_utf8EncodeChar` : a character is read back, whatever follows it.
* `decodeUtf8?_encodeUtf8` : a text is read back.
-/

namespace Descriptor.Text

variable {n : Nat} {p : Partial}

theorem toNat_ofNat_byte (h : n < 256) : (UInt8.ofNat n).toNat = n := by
  rw [UInt8.toNat_ofNat']
  exact Nat.mod_eq_of_lt h

/-! ### Lengths -/

theorem byteLength_eq (cs : List Char) : byteLength cs = (String.ofList cs).utf8ByteSize := by
  have hfrom (n : Nat) : cs.foldl (fun n c => n + c.utf8Size) n =
      n + (String.ofList cs).utf8ByteSize := by
    induction cs generalizing n with
    | nil => rfl
    | cons c cs ih =>
      rw [List.foldl_cons, ih, ← List.singleton_append, String.ofList_append,
        String.utf8ByteSize_append, ← String.singleton_eq_ofList, String.utf8ByteSize_singleton,
        Nat.add_assoc]
  rw [byteLength, hfrom, Nat.zero_add]

@[simp]
theorem byteLength_append (cs ds : List Char) :
    byteLength (cs ++ ds) = byteLength cs + byteLength ds := by
  rw [byteLength_eq, String.ofList_append, String.utf8ByteSize_append, ← byteLength_eq,
    ← byteLength_eq]

@[simp]
theorem byteLength_cons (c : Char) (cs : List Char) :
    byteLength (c :: cs) = c.utf8Size + byteLength cs := by
  rw [← List.singleton_append, byteLength_append]
  exact congrArg (· + byteLength cs) (Nat.zero_add _)

/-! ### One byte -/

theorem readUtf8_ascii (h : n < 0x80) (rest : List UInt8) :
    readUtf8 none (UInt8.ofNat n :: rest) = some (Char.ofNat n) :: readUtf8 none rest := by
  have hbyte := toNat_ofNat_byte (Nat.lt_trans h (by decide))
  simp only [readUtf8, hbyte, h, if_true]

theorem readUtf8_first (hlow : 0x80 ≤ n) (hhigh : n < 256) (h : Partial.start? n = some p)
    (rest : List UInt8) : readUtf8 none (UInt8.ofNat n :: rest) = readUtf8 (some p) rest := by
  have hbyte := toNat_ofNat_byte hhigh
  simp only [readUtf8, hbyte, Nat.not_lt.mpr hlow, if_false, h]

theorem readUtf8_next (hlow : p.low ≤ n) (hhigh : n ≤ p.high) (hn : n < 256) (hlacks : 1 < p.lacks)
    (rest : List UInt8) :
    readUtf8 (some p) (UInt8.ofNat n :: rest) =
      readUtf8 (some ⟨p.lacks - 1, 0x80, 0xbf, p.bits * 64 + n % 64⟩) rest := by
  have hbyte := toNat_ofNat_byte hn
  simp only [readUtf8, hbyte, hlow, hhigh, and_self, if_true, Nat.not_le.mpr hlacks, if_false]

theorem readUtf8_last (hlow : p.low ≤ n) (hhigh : n ≤ p.high) (hn : n < 256) (hlacks : p.lacks ≤ 1)
    (rest : List UInt8) :
    readUtf8 (some p) (UInt8.ofNat n :: rest) =
      some (Char.ofNat (p.bits * 64 + n % 64)) :: readUtf8 none rest := by
  have hbyte := toNat_ofNat_byte hn
  simp only [readUtf8, hbyte, hlow, hhigh, and_self, if_true, hlacks]

/-! ### The first byte of a character -/

theorem start?_of_two (hlow : 0x80 ≤ n) (hhigh : n < 0x800) :
    Partial.start? (n / 64 + 0xc0) = some ⟨1, 0x80, 0xbf, n / 64⟩ := by
  rw [Partial.start?, if_pos (by omega)]
  congr 2
  omega

/-- The bounds of the second byte of three keep out short forms and surrogates. -/
theorem exists_start?_of_three (hlow : 0x800 ≤ n) (hhigh : n < 0x10000)
    (hvalid : n < 0xd800 ∨ 0xdfff < n) :
    ∃ low high, Partial.start? (n / 4096 + 0xe0) = some ⟨2, low, high, n / 4096⟩ ∧
      low ≤ n / 64 % 64 + 0x80 ∧ n / 64 % 64 + 0x80 ≤ high := by
  unfold Partial.start?
  split_ifs with h₁ h₂ h₃ h₄
  · omega
  · exact ⟨0xa0, 0xbf, by congr 2; omega, by omega, by omega⟩
  · exact ⟨0x80, 0x9f, by congr 2; omega, by omega, by omega⟩
  · exact ⟨0x80, 0xbf, by congr 2; omega, by omega, by omega⟩
  all_goals omega

/-- The bounds of the second byte of four keep out short forms and what no code point is. -/
theorem exists_start?_of_four (hlow : 0x10000 ≤ n) (hhigh : n < 0x110000) :
    ∃ low high, Partial.start? (n / 262144 + 0xf0) = some ⟨3, low, high, n / 262144⟩ ∧
      low ≤ n / 4096 % 64 + 0x80 ∧ n / 4096 % 64 + 0x80 ≤ high := by
  unfold Partial.start?
  split_ifs with h₁ h₂ h₃ h₄ h₅ h₆ h₇
  · omega
  · omega
  · omega
  · omega
  · exact ⟨0x90, 0xbf, by congr 2; omega, by omega, by omega⟩
  · exact ⟨0x80, 0xbf, by congr 2; omega, by omega, by omega⟩
  · exact ⟨0x80, 0x8f, by congr 2; omega, by omega, by omega⟩
  · omega

/-! ### Texts -/

/-- A character is read back, whatever follows it. -/
theorem readUtf8_utf8EncodeChar (c : Char) (rest : List UInt8) :
    readUtf8 none (String.utf8EncodeChar c ++ rest) = some c :: readUtf8 none rest := by
  have hvalid : c.val.toNat < 0xd800 ∨ 0xdfff < c.val.toNat ∧ c.val.toNat < 0x110000 := c.valid
  have hchar : Char.ofNat c.val.toNat = c := Char.ofNat_toNat c
  simp only [String.utf8EncodeChar]
  generalize c.val.toNat = n at hvalid hchar ⊢
  split_ifs with hone htwo hthree
  · rw [List.singleton_append, readUtf8_ascii (by omega), hchar]
  · rw [Nat.mod_eq_of_lt (show n / 64 < 32 by omega), List.cons_append, List.singleton_append,
      readUtf8_first (by omega) (by omega) (start?_of_two (by omega) (by omega)),
      readUtf8_last (by simp) (by simp; omega) (by omega) (Nat.le_refl 1)]
    have hbits : n / 64 * 64 + (n % 64 + 128) % 64 = n := by omega
    rw [hbits, hchar]
  · obtain ⟨low, high, hstart, hlow, hhigh⟩ :=
      exists_start?_of_three (n := n) (by omega) (by omega) (by omega)
    rw [Nat.mod_eq_of_lt (show n / 4096 < 16 by omega)]
    simp only [List.cons_append, List.nil_append]
    rw [readUtf8_first (by omega) (by omega) hstart,
      readUtf8_next hlow hhigh (by omega) (by simp),
      readUtf8_last (by simp) (by simp; omega) (by omega) (by simp)]
    have hbits : (n / 4096 * 64 + (n / 64 % 64 + 128) % 64) * 64 + (n % 64 + 128) % 64 = n := by
      omega
    rw [hbits, hchar]
  · obtain ⟨low, high, hstart, hlow, hhigh⟩ :=
      exists_start?_of_four (n := n) (by omega) (by omega)
    rw [Nat.mod_eq_of_lt (show n / 262144 < 8 by omega)]
    simp only [List.cons_append, List.nil_append]
    rw [readUtf8_first (by omega) (by omega) hstart,
      readUtf8_next hlow hhigh (by omega) (by simp),
      readUtf8_next (by simp) (by simp; omega) (by omega) (by simp),
      readUtf8_last (by simp) (by simp; omega) (by omega) (by simp)]
    have hbits : ((n / 262144 * 64 + (n / 4096 % 64 + 128) % 64) * 64 + (n / 64 % 64 + 128) % 64) *
        64 + (n % 64 + 128) % 64 = n := by
      omega
    rw [hbits, hchar]

theorem readUtf8_encodeUtf8 (cs : List Char) : readUtf8 none (encodeUtf8 cs) = cs.map some := by
  induction cs with
  | nil => rfl
  | cons c cs ih =>
    have hcons : encodeUtf8 (c :: cs) = String.utf8EncodeChar c ++ encodeUtf8 cs := rfl
    rw [hcons, readUtf8_utf8EncodeChar, ih, List.map_cons]

/-- **A text is read back from its bytes.** -/
theorem decodeUtf8?_encodeUtf8 (cs : List Char) : decodeUtf8? (encodeUtf8 cs) = some cs := by
  rw [decodeUtf8?, readUtf8_encodeUtf8]
  induction cs with
  | nil => rfl
  | cons c cs ih =>
    rw [List.map_cons, List.mapM_cons, ih]
    rfl

end Descriptor.Text
