/-!
# The UTF-8 form of a text

A byte is read in the light of the bytes before it, so that a sequence is recognised one byte at a
time. Whatever is not the start of a well-formed sequence counts as one invalid part, which is as
long as it could still have become one.

## Main definitions

* `byteLength` : the number of bytes of a text.
* `encodeUtf8` : the bytes of a text.
* `readUtf8` : the characters and invalid parts of a byte sequence.
* `decodeUtf8?` : the text of bytes that are all well formed.
* `decodeUtf8Lossy` : the text of any bytes, with a replacement character for each invalid part.
-/

namespace Descriptor.Text

/-- The number of bytes of a text. -/
def byteLength (cs : List Char) : Nat := cs.foldl (fun n c => n + c.utf8Size) 0

/-- The bytes of a text. -/
def encodeUtf8 (cs : List Char) : List UInt8 := cs.flatMap String.utf8EncodeChar

/-- A sequence that is under way: how many bytes it still lacks, the bounds of the next one, and the
bits read so far. -/
structure Partial where
  lacks : Nat
  low : Nat
  high : Nat
  bits : Nat
  deriving DecidableEq, Repr

/-- What a byte above the ASCII range starts. The bounds of the second byte keep out forms that are
longer than needed, surrogates, and what lies behind the last code point. -/
def Partial.start? (b : Nat) : Option Partial :=
  if 0xc2 ≤ b ∧ b ≤ 0xdf then some ⟨1, 0x80, 0xbf, b % 32⟩
  else if b = 0xe0 then some ⟨2, 0xa0, 0xbf, 0⟩
  else if b = 0xed then some ⟨2, 0x80, 0x9f, 13⟩
  else if 0xe1 ≤ b ∧ b ≤ 0xef then some ⟨2, 0x80, 0xbf, b % 16⟩
  else if b = 0xf0 then some ⟨3, 0x90, 0xbf, 0⟩
  else if 0xf1 ≤ b ∧ b ≤ 0xf3 then some ⟨3, 0x80, 0xbf, b % 8⟩
  else if b = 0xf4 then some ⟨3, 0x80, 0x8f, 4⟩
  else none

/-- The characters of bytes that go on from the given ones, `none` for an invalid part. -/
def readUtf8 (pending : Option Partial) : List UInt8 → List (Option Char)
  | [] => if pending.isSome then [none] else []
  | byte :: rest =>
    let b := byte.toNat
    let fresh :=
      if b < 0x80 then some (Char.ofNat b) :: readUtf8 none rest
      else
        match Partial.start? b with
        | some p => readUtf8 (some p) rest
        | none => none :: readUtf8 none rest
    match pending with
    | none => fresh
    | some p =>
      if p.low ≤ b ∧ b ≤ p.high then
        let bits := p.bits * 64 + b % 64
        if p.lacks ≤ 1 then some (Char.ofNat bits) :: readUtf8 none rest
        else readUtf8 (some ⟨p.lacks - 1, 0x80, 0xbf, bits⟩) rest
      else none :: fresh

/-- The text of bytes that are all well formed. -/
def decodeUtf8? (bytes : List UInt8) : Option (List Char) := (readUtf8 none bytes).mapM id

/-- The text of any bytes, with a replacement character for each invalid part. -/
def decodeUtf8Lossy (bytes : List UInt8) : List Char :=
  (readUtf8 none bytes).map (·.getD '\ufffd')

end Descriptor.Text
