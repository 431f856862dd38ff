/-!
# Blank characters

White space in the sense of the Unicode property `White_Space`, and what is cut off or squeezed
because of it. Everything works on lists of characters, so that a text can be taken apart by
recursion; `Text.trimmed` is the form on strings.

## Main definitions

* `isBlank` : the property itself.
* `trimStart`, `trimEnd`, `trim` : a text without its outer blanks.
* `words` : the maximal runs of characters that are not blank.
* `squeeze` : the words joined by single spaces.
-/

namespace Descriptor.Text

/-- The code points of the property `White_Space`. -/
def isBlank (c : Char) : Bool :=
  let n := c.toNat
  (9 ≤ n && n ≤ 13) || n == 0x20 || n == 0x85 || n == 0xa0 || n == 0x1680 ||
    (0x2000 ≤ n && n ≤ 0x200a) || n == 0x2028 || n == 0x2029 || n == 0x202f || n == 0x205f ||
    n == 0x3000

/-- A text without the blanks it starts with. -/
def trimStart (cs : List Char) : List Char := cs.dropWhile isBlank

/-- A text without the blanks it ends in. -/
def trimEnd (cs : List Char) : List Char := (trimStart cs.reverse).reverse

/-- A text without the blanks at either end. -/
def trim (cs : List Char) : List Char := trimEnd (trimStart cs)

/-- The words of a text, where `word` holds the characters of an unfinished word in reverse. -/
def wordsFrom (word : List Char) : List Char → List (List Char)
  | [] => if word.isEmpty then [] else [word.reverse]
  | c :: cs =>
    if isBlank c then
      if word.isEmpty then wordsFrom [] cs else word.reverse :: wordsFrom [] cs
    else wordsFrom (c :: word) cs

/-- The maximal runs of characters that are not blank, in order. -/
def words (cs : List Char) : List (List Char) := wordsFrom [] cs

/-- A text with its outer blanks gone and every inner run of blanks replaced by one space. -/
def squeeze (cs : List Char) : List Char := [' '].intercalate (words cs)

/-- Only blanks, or nothing at all. -/
def isBlankText (cs : List Char) : Bool := cs.all isBlank

/-- A string without the blanks at either end. -/
def trimmed (s : String) : String := String.ofList (trim s.toList)

end Descriptor.Text
