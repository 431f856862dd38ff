import Descriptor.Text.CaseTable

/-!
# Lower case

Full lower-casing of a text. Every character is mapped on its own, with two exceptions: the capital
I with a dot above becomes two characters, and a capital sigma takes its final form when a cased
character stands before it and none behind it, case-ignorable characters aside.

## Main definitions

* `lowerChar` : the lower-case form of one character, context aside.
* `lowercase` : the lower-case form of a text.
-/

namespace Descriptor.Text

/-- Membership in a list of inclusive ranges. -/
def inRanges (ranges : List (Nat × Nat)) (n : Nat) : Bool :=
  ranges.any fun r => r.1 ≤ n && n ≤ r.2

/-- The one-character lower-case form of a character, itself where it has none. -/
def lowerSingle (c : Char) : Char :=
  if c.toNat < 128 then c.toLower
  else
    match lowerRuns.find? fun (first, last, step, _) =>
        first ≤ c.toNat && c.toNat ≤ last && (c.toNat - first) % step == 0 with
    | some (_, _, _, shift) => Char.ofNat (Int.toNat (c.toNat + shift))
    | none => c

/-- The lower-case form of a character, context aside. -/
def lowerChar (c : Char) : List Char :=
  if c = '\u0130' then ['i', '\u0307'] else [lowerSingle c]

/-- Whether a cased character comes first once the ignorable ones are passed over. -/
def meetsCased : List Char → Bool
  | [] => false
  | c :: cs =>
    if inRanges ignorableRanges c.toNat then meetsCased cs else inRanges casedRanges c.toNat

/-- The lower-case form of a text behind `before`, which is given in reverse. -/
def lowercaseFrom (before : List Char) : List Char → List Char
  | [] => []
  | c :: cs =>
    if c = '\u03a3' then
      (if meetsCased before && !meetsCased cs then '\u03c2' else '\u03c3') ::
        lowercaseFrom (c :: before) cs
    else lowerChar c ++ lowercaseFrom (c :: before) cs

/-- The lower-case form of a text. -/
def lowercase (cs : List Char) : List Char := lowercaseFrom [] cs

/-- The lower-case form of a text in which only the letters `A` to `Z` change. -/
def lowercaseAscii (cs : List Char) : List Char := cs.map Char.toLower

end Descriptor.Text
