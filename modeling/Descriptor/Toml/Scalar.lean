import Descriptor.Text.Digits

/-!
# Scalars without quotation marks

Numbers, truth values, dates and times. A reader of settings needs none of their values, but has to
tell the texts that are scalars from those that are not.

## Main definitions

* `isInteger`, `isFloat`, `isMoment` : the kinds of scalars that have a grammar of their own.
* `isScalar` : the texts that are scalars.
-/

namespace Descriptor.Toml

open Text (isHexDigit isOctalDigit digitsValue)

/-- Digits in groups that are joined by single underscores. -/
def isDigitRun (isDigit : Char → Bool) : List Char → Bool
  | [] => false
  | [c] => isDigit c
  | c :: '_' :: rest => isDigit c && isDigitRun isDigit rest
  | c :: rest => isDigit c && isDigitRun isDigit rest

/-- The digits of a run. -/
def digitsOf (run : List Char) : List Char := run.filter (· ≠ '_')

/-- A text without its sign, and whether the sign is a minus. -/
def splitSign : List Char → Bool × List Char
  | '-' :: rest => (true, rest)
  | '+' :: rest => (false, rest)
  | cs => (false, cs)

/-- The digits of a whole number, in which a zero comes first only when it is alone. -/
def isWhole (cs : List Char) : Bool :=
  isDigitRun Char.isDigit cs && (cs.head? ≠ some '0' || cs.length = 1)

/-- Whether a number is in the range of integers: 128 bits, with or without a sign. -/
def inRange (negative : Bool) (n : Nat) : Bool :=
  if negative then n ≤ Nat.pow 2 127 else n < Nat.pow 2 128

/-- An integer, in base ten with an optional sign or in another base with its mark. -/
def isInteger : List Char → Bool
  | '0' :: 'x' :: ds => isDigitRun isHexDigit ds && inRange false (digitsValue 16 (digitsOf ds))
  | '0' :: 'o' :: ds => isDigitRun isOctalDigit ds && inRange false (digitsValue 8 (digitsOf ds))
  | '0' :: 'b' :: ds =>
    isDigitRun (fun c => c = '0' || c = '1') ds && inRange false (digitsValue 2 (digitsOf ds))
  | cs =>
    let (negative, ds) := splitSign cs
    isWhole ds && inRange negative (digitsValue 10 (digitsOf ds))

/-- Whether `digits` times ten to the power `exponent` stays below the numbers that are rounded to
infinity in binary64. -/
def isFinite (digits : List Char) (exponent : Int) : Bool :=
  let significant := digits.dropWhile (· = '0')
  let magnitude := significant.length + exponent
  let limit := (Nat.pow 2 54 - 1) * Nat.pow 2 970
  if significant.isEmpty || magnitude < 300 then true
  else if 310 < magnitude then false
  else if 0 ≤ exponent then digitsValue 10 significant * Nat.pow 10 exponent.toNat < limit
  else digitsValue 10 significant < limit * Nat.pow 10 (-exponent).toNat

/-- The exponent of a float behind its mark: its value, unless it is none. -/
def exponent? (cs : List Char) : Option Int :=
  let (negative, ds) := splitSign cs
  if isDigitRun Char.isDigit ds then
    let n : Int := digitsValue 10 (digitsOf ds)
    some (if negative then -n else n)
  else none

/-- Whether a character starts an exponent. -/
def isExponentMark (c : Char) : Bool := c = 'e' || c = 'E'

/-- The digits behind a decimal point, none without a point. -/
def fraction? : List Char → Option (List Char)
  | [] => some []
  | '.' :: ds => if isDigitRun Char.isDigit ds then some (digitsOf ds) else none
  | _ => none

/-- A float: a whole number with a fraction, an exponent or both, or the name of a value that is not
finite. -/
def isFloat (cs : List Char) : Bool :=
  let unsigned := (splitSign cs).2
  let mantissa := unsigned.takeWhile (!isExponentMark ·)
  let whole := mantissa.takeWhile (· ≠ '.')
  let exponent := match unsigned.dropWhile (!isExponentMark ·) with
    | [] => some 0
    | _ :: ds => exponent? ds
  if unsigned = ['i', 'n', 'f'] || unsigned = ['n', 'a', 'n'] then true
  else if unsigned = whole then false
  else
    match fraction? (mantissa.dropWhile (· ≠ '.')), exponent with
    | some fraction, some e =>
      isWhole whole && isFinite (digitsOf whole ++ fraction) (e - fraction.length)
    | _, _ => false

/-! ### Dates and times -/

/-- The number that a text of exactly `width` digits writes. -/
def fixedNumber? (width : Nat) (cs : List Char) : Option Nat :=
  if cs.length = width && cs.all Char.isDigit then some (digitsValue 10 cs) else none

/-- The number of days of a month. -/
def daysOfMonth (year month : Nat) : Nat :=
  if month = 2 then
    if year % 4 = 0 && (year % 100 ≠ 0 || year % 400 = 0) then 29 else 28
  else if month = 4 || month = 6 || month = 9 || month = 11 then 30
  else 31

/-- A date: year, month and day, with hyphens between them. -/
def isDate (cs : List Char) : Bool :=
  cs.length = 10 && (cs.drop 4).head? = some '-' && (cs.drop 7).head? = some '-' &&
    match fixedNumber? 4 (cs.take 4), fixedNumber? 2 ((cs.drop 5).take 2),
        fixedNumber? 2 (cs.drop 8) with
    | some year, some month, some day =>
      1 ≤ month && month ≤ 12 && 1 ≤ day && day ≤ daysOfMonth year month
    | _, _, _ => false

/-- Hours and minutes with a colon between them. -/
def isClock (cs : List Char) : Bool :=
  cs.length = 5 && (cs.drop 2).head? = some ':' &&
    (fixedNumber? 2 (cs.take 2)).any (· ≤ 23) && (fixedNumber? 2 (cs.drop 3)).any (· ≤ 59)

/-- Seconds behind a time, if there are any: a leap second is allowed, and so is a fraction. -/
def isSeconds : List Char → Bool
  | [] => true
  | ':' :: rest =>
    (fixedNumber? 2 (rest.take 2)).any (· ≤ 60) &&
      match rest.drop 2 with
      | [] => true
      | '.' :: ds => !ds.isEmpty && ds.all Char.isDigit
      | _ => false
  | _ => false

/-- A time of day. -/
def isTime (cs : List Char) : Bool := isClock (cs.take 5) && isSeconds (cs.drop 5)

/-- The distance of a time from universal time: none, a letter, or hours and minutes. -/
def isOffset : List Char → Bool
  | [] => true
  | [c] => c = 'Z' || c = 'z'
  | c :: rest => (c = '+' || c = '-') && isClock rest

/-- Whether a character can stand between a time and its distance from universal time. -/
def isOffsetMark (c : Char) : Bool := c = 'Z' || c = 'z' || c = '+' || c = '-'

/-- Whether a character can stand between a date and a time. -/
def isDateEnd (c : Char) : Bool := c = 'T' || c = 't' || c = ' '

/-- A date, a time of day, or both with an optional distance from universal time. -/
def isMoment (cs : List Char) : Bool :=
  match cs.drop 10 with
  | [] => isDate cs || isTime cs
  | c :: rest =>
    isTime cs ||
      (isDate (cs.take 10) && isDateEnd c && isTime (rest.takeWhile (!isOffsetMark ·)) &&
        isOffset (rest.dropWhile (!isOffsetMark ·)))

/-- The texts that are scalars. -/
def isScalar (cs : List Char) : Bool :=
  cs = ['t', 'r', 'u', 'e'] || cs = ['f', 'a', 'l', 's', 'e'] || isInteger cs || isFloat cs ||
    isMoment cs

end Descriptor.Toml
