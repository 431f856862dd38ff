import Descriptor.Text.Digits
import Descriptor.Toml.Quoting

/-!
# Reading quoted texts

The four forms of a text, read behind their opening quotation marks. Every function gives the text
with what is left behind the closing marks, or nothing where the form is broken.

## Main definitions

* `readBasic?`, `readLiteral?` : a text on one line.
* `readLongBasic?`, `readLongLiteral?` : a text on several lines.
* `readQuoted?` : a text in any of the four forms.
-/

namespace Descriptor.Toml

open Text (isHexDigit digitsValue charOfCode?)

/-- What an escape of one letter stands for. -/
def simpleEscape? : Char → Option Char
  | 'b' => some '\x08'
  | 't' => some '\t'
  | 'n' => some '\n'
  | 'f' => some '\x0c'
  | 'r' => some '\r'
  | 'e' => some '\x1b'
  | '"' => some '"'
  | '\\' => some '\\'
  | _ => none

/-- The number of digits of an escape that writes a code point. -/
def codeWidth? : Char → Option Nat
  | 'x' => some 2
  | 'u' => some 4
  | 'U' => some 8
  | _ => none

/-- The character of an escape behind its backslash, and the text behind it. -/
def readEscape? : List Char → Option (Char × List Char)
  | [] => none
  | mark :: rest =>
    match codeWidth? mark with
    | some width =>
      if (rest.take width).length = width && (rest.take width).all isHexDigit then
        (charOfCode? (digitsValue 16 (rest.take width))).map fun c => (c, rest.drop width)
      else none
    | none => (simpleEscape? mark).map fun c => (c, rest)

theorem length_readEscape? {cs rest : List Char} {c : Char}
    (h : readEscape? cs = some (c, rest)) : rest.length < cs.length := by
  unfold readEscape? at h
  split at h
  · cases h
  · next mark tail =>
    split at h
    · split at h
      · obtain ⟨_, _, he⟩ := Option.map_eq_some_iff.1 h
        cases he
        simp only [List.length_drop, List.length_cons]
        omega
      · cases h
    · obtain ⟨_, _, he⟩ := Option.map_eq_some_iff.1 h
      cases he
      exact Nat.lt_succ_self _

/-- A text between single quotation marks that knows escapes. -/
def readBasic? (cs : List Char) : Option (List Char × List Char) :=
  match cs with
  | [] => none
  | '"' :: rest => some ([], rest)
  | '\\' :: rest =>
    match h : readEscape? rest with
    | none => none
    | some (c, after) =>
      have := length_readEscape? h
      (readBasic? after).map fun (text, rest) => (c :: text, rest)
  | c :: rest =>
    if isControl c || c = '\n' then none
    else (readBasic? rest).map fun (text, rest) => (c :: text, rest)
termination_by cs.length
decreasing_by all_goals simp only [List.length_cons]; omega

/-- A text between single quotation marks that knows no escapes. -/
def readLiteral? : List Char → Option (List Char × List Char)
  | [] => none
  | '\'' :: rest => some ([], rest)
  | c :: rest =>
    if isControl c || c = '\n' then none
    else (readLiteral? rest).map fun (text, rest) => (c :: text, rest)

/-- A text without the line end that it starts with. -/
def dropLineEnd : List Char → List Char
  | '\n' :: rest => rest
  | '\r' :: '\n' :: rest => rest
  | cs => cs

/-- What follows three closing marks: up to two more of them belong to the text. -/
def closeLong (quote : Char) : List Char → List Char × List Char
  | a :: b :: rest =>
    if a = quote then if b = quote then ([a, b], rest) else ([a], b :: rest)
    else ([], a :: b :: rest)
  | [a] => if a = quote then ([a], []) else ([], [a])
  | [] => ([], [])

/-- Blanks and line ends. -/
def isFolded (c : Char) : Bool := c = ' ' || c = '\t' || c = '\n' || c = '\r'

/-- The text behind a backslash at the end of a line: what it continues with, blanks and line ends
passed over. -/
def continuedLine? (cs : List Char) : Option (List Char) :=
  match cs.dropWhile fun c => c = ' ' || c = '\t' with
  | '\n' :: rest => some (rest.dropWhile isFolded)
  | '\r' :: '\n' :: rest => some (rest.dropWhile isFolded)
  | _ => none

theorem length_dropWhile_le (p : Char → Bool) (cs : List Char) :
    (cs.dropWhile p).length ≤ cs.length :=
  (List.dropWhile_sublist p).length_le

theorem length_continuedLine? {cs rest : List Char} (h : continuedLine? cs = some rest) :
    rest.length < cs.length := by
  have hd := length_dropWhile_le (fun c => c = ' ' || c = '\t') cs
  unfold continuedLine? at h
  split at h
  · next tail heq =>
    cases h
    rw [heq, List.length_cons] at hd
    exact Nat.lt_of_le_of_lt (length_dropWhile_le _ _) hd
  · next tail heq =>
    cases h
    rw [heq, List.length_cons, List.length_cons] at hd
    exact Nat.lt_of_le_of_lt (length_dropWhile_le _ _) (Nat.lt_of_succ_lt hd)
  · nomatch h

/-- A text between three quotation marks that knows escapes. -/
def readLongBasic? (cs : List Char) : Option (List Char × List Char) :=
  match cs with
  | [] => none
  | '"' :: '"' :: '"' :: rest => some (closeLong '"' rest)
  | '\\' :: rest =>
    match h : continuedLine? rest with
    | some after =>
      have := length_continuedLine? h
      readLongBasic? after
    | none =>
      match h : readEscape? rest with
      | none => none
      | some (c, after) =>
        have := length_readEscape? h
        (readLongBasic? after).map fun (text, rest) => (c :: text, rest)
  | '\r' :: '\n' :: rest =>
    (readLongBasic? rest).map fun (text, rest) => ('\r' :: '\n' :: text, rest)
  | c :: rest =>
    if isControl c then none
    else (readLongBasic? rest).map fun (text, rest) => (c :: text, rest)
termination_by cs.length
decreasing_by all_goals simp only [List.length_cons]; omega

/-- A text between three quotation marks that knows no escapes. -/
def readLongLiteral? : List Char → Option (List Char × List Char)
  | [] => none
  | '\'' :: '\'' :: '\'' :: rest => some (closeLong '\'' rest)
  | '\r' :: '\n' :: rest =>
    (readLongLiteral? rest).map fun (text, rest) => ('\r' :: '\n' :: text, rest)
  | c :: rest =>
    if isControl c then none
    else (readLongLiteral? rest).map fun (text, rest) => (c :: text, rest)

/-- A text on one line, in either form. -/
def readShort? : List Char → Option (List Char × List Char)
  | '"' :: rest => readBasic? rest
  | '\'' :: rest => readLiteral? rest
  | _ => none

/-- A text in any of the four forms. A line end right behind three opening marks is not part of the
text. -/
def readQuoted? : List Char → Option (List Char × List Char)
  | '"' :: '"' :: '"' :: rest => readLongBasic? (dropLineEnd rest)
  | '\'' :: '\'' :: '\'' :: rest => readLongLiteral? (dropLineEnd rest)
  | cs => readShort? cs

end Descriptor.Toml
