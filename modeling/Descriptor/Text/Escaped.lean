import Descriptor.Text.Digits
import Descriptor.Text.Lowercase

/-!
# Texts for a reader

How a text is shown between quotation marks to a reader who has to see every character of it: what
has no shape of its own, or only changes the shape of what stands before it, is given by its number.

## Main definitions

* `shapelessRanges` : the characters that are given by their numbers.
* `escapeForReader` : a character as it is shown.
-/

namespace Descriptor.Text

/-- Ranges of code points without a shape of their own. -/
def shapelessRanges : List (Nat × Nat) :=
  [(0x00, 0x1f), (0x7f, 0xa0), (0xad, 0xad), (0x300, 0x36f), (0x483, 0x489), (0x591, 0x5bd),
   (0x600, 0x605), (0x610, 0x61a), (0x61c, 0x61c), (0x64b, 0x65f), (0x70f, 0x70f),
   (0x1680, 0x1680), (0x180e, 0x180e), (0x2000, 0x200f), (0x2028, 0x202f), (0x205f, 0x206f),
   (0x20d0, 0x20f0), (0x3000, 0x3000), (0x302a, 0x302f), (0x3099, 0x309a), (0xe000, 0xf8ff),
   (0xfe00, 0xfe0f), (0xfe20, 0xfe2f), (0xfeff, 0xfeff), (0xfff0, 0xfffb), (0xfffe, 0xffff),
   (0xe0000, 0x10ffff)]

/-- The digits of a number in base sixteen, without zeros in front. -/
def shortHex (n : Nat) : List Char :=
  match (hexDigits 'a' 6 n).dropWhile (· = '0') with
  | [] => ['0']
  | digits => digits

/-- A character as it is shown between quotation marks. -/
def escapeForReader (c : Char) : List Char :=
  if c = '"' || c = '\\' then ['\\', c]
  else if c = '\n' then ['\\', 'n']
  else if c = '\t' then ['\\', 't']
  else if c = '\r' then ['\\', 'r']
  else if c = '\x00' then ['\\', '0']
  else if inRanges shapelessRanges c.toNat then
    ['\\', 'u', '\x7b'] ++ shortHex c.toNat ++ ['\x7d']
  else [c]

end Descriptor.Text
