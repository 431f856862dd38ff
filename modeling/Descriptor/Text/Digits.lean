/-!
# Digits and code points

Numbers as they stand in escapes: digits in bases up to sixteen, and the character that a code
point names.

## Main definitions

* `digitsValue`, `hexDigits` : the number that digits write, and the digits of a number.
* `charOfCode?` : the character with a code point.
* `takeDigits` : a bounded run of digits at the start of a text.
-/

namespace Descriptor.Text

/-- The value of a digit in bases up to sixteen. -/
def digitValue (c : Char) : Nat :=
  if c.isDigit then c.toNat - '0'.toNat
  else if 'a' ≤ c && c ≤ 'f' then c.toNat - 'a'.toNat + 10
  else if 'A' ≤ c && c ≤ 'F' then c.toNat - 'A'.toNat + 10
  else 0

/-- The digits of the octal system. -/
def isOctalDigit (c : Char) : Bool := '0' ≤ c && c ≤ '7'

/-- The digits of the hexadecimal system, in either case. -/
def isHexDigit (c : Char) : Bool :=
  c.isDigit || ('a' ≤ c && c ≤ 'f') || ('A' ≤ c && c ≤ 'F')

/-- The number that digits write in a base. -/
def digitsValue (base : Nat) (digits : List Char) : Nat :=
  digits.foldl (fun n c => n * base + digitValue c) 0

/-- The character with a code point, unless it is a surrogate or too large. -/
def charOfCode? (n : Nat) : Option Char :=
  if h : n.isValidChar then some (Char.ofNatAux n h) else none

/-- At most `limit` leading characters of a class, and the rest. -/
def takeDigits (isDigit : Char → Bool) : Nat → List Char → List Char × List Char
  | limit + 1, c :: cs =>
    if isDigit c then
      let (digits, rest) := takeDigits isDigit limit cs
      (c :: digits, rest)
    else ([], c :: cs)
  | _, cs => ([], cs)

theorem length_takeDigits_le (isDigit : Char → Bool) (limit : Nat) (cs : List Char) :
    (takeDigits isDigit limit cs).2.length ≤ cs.length := by
  fun_induction takeDigits isDigit limit cs with
  | case1 limit c cs h digits rest heq ih =>
    rw [heq] at ih
    exact Nat.le_succ_of_le ih
  | case2 => exact Nat.le_refl _
  | case3 => exact Nat.le_refl _

/-- The digit with a value below sixteen, with `a` or `A` as the given first letter. -/
def digitChar (ten : Char) (n : Nat) : Char :=
  if n < 10 then Char.ofNat ('0'.toNat + n) else Char.ofNat (ten.toNat + (n - 10))

/-- The last `width` digits of a number in base sixteen, zeros in front included. -/
def hexDigits (ten : Char) : Nat → Nat → List Char
  | 0, _ => []
  | width + 1, n => hexDigits ten width (n / 16) ++ [digitChar ten (n % 16)]

end Descriptor.Text
