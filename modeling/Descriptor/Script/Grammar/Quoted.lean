import Descriptor.Script.Grammar.Token

/-!
# Quoted stretches of a script

Where a string literal starts and how far it reaches. A literal opens with letters that qualify it
and a quote of one or three characters; a backslash keeps the quote or line end behind it from
ending the literal. A formatted literal is left at every brace that opens a replacement field.

A part of the grammar to run with, which `Descriptor.Script.Grammar.Module` puts together.

## Main definitions

* `Opening` : how a literal opens, and so how it goes on.
* `scanOpening?` : the opening at the start of a text.
* `scanBody?` : the body of a literal up to its closing quotes.
* `scanFormatted?` : the stretch of a formatted literal up to its next field or its end.
-/

namespace Descriptor.Script

/-- How a string literal opens. -/
structure Opening where
  quote : Char
  /-- Three quotes open and close the literal, and it may hold line ends. -/
  triple : Bool
  raw : Bool
  bytes : Bool
  formatted : Bool
  deriving DecidableEq, Repr

/-- A letter that may stand before a literal. -/
def isLiteralMark (c : Char) : Bool := "fFrRbBuU".toList.contains c

/-- The quotes of literals. Between grave accents stands an expression in old scripts; it is taken
as a literal that has no text. -/
def isOpeningQuote (c : Char) : Bool := c = '\'' || c = '"' || c = '\x60'

/-- The opening of a literal at the start of a text, with the text behind it. -/
def scanOpening? (cs : List Char) : Option (Opening × List Char) :=
  let marks := cs.takeWhile isLiteralMark
  let isMarked (letters : List Char) := marks.any letters.contains
  match cs.dropWhile isLiteralMark with
  | [] => none
  | c :: rest =>
    if isOpeningQuote c then
      let triple := c ≠ '\x60' && [c, c].isPrefixOf rest
      some (⟨c, triple, isMarked ['r', 'R'], isMarked ['b', 'B'], isMarked ['f', 'F']⟩,
        if triple then rest.drop 2 else rest)
    else none

/-- Whether the closing quotes of a literal come next. -/
def Opening.closesAt (o : Opening) (cs : List Char) : Bool :=
  if o.triple then [o.quote, o.quote, o.quote].isPrefixOf cs else [o.quote].isPrefixOf cs

/-- The number of closing quotes. -/
def Opening.width (o : Opening) : Nat := if o.triple then 3 else 1

/-- The number of characters of an escape by character name, behind its backslash. -/
def nameEscapeLength (cs : List Char) : Nat :=
  match cs with
  | 'N' :: '\x7b' :: name =>
    let letters := name.takeWhile (· ≠ '\x7d')
    if letters.isEmpty || letters.length = name.length then 0 else letters.length + 3
  | _ => 0

/-- The number of characters that a backslash keeps from their usual meaning. -/
def Opening.shielded (o : Opening) (cs : List Char) : Nat :=
  match cs with
  | '\n' :: _ => 1
  | '\r' :: '\n' :: _ => 2
  | c :: _ =>
    if o.raw then if c = o.quote || c = '\\' then 1 else 0
    else if c = '\\' || c = '\'' || c = '"' then 1
    else if o.bytes then if "NuU".toList.contains c then 2 else 0
    else nameEscapeLength cs
  | [] => 0

/-- The body of a literal and the text behind its closing quotes. A line end may stand between
single quotes only where nothing but the opening or an escape is before it (`fresh`). -/
def scanBody? (o : Opening) (fresh : Bool) (cs : List Char) : Option (List Char × List Char) :=
  match cs with
  | [] => none
  | c :: rest =>
    if c = '\\' then
      let n := o.shielded rest
      (scanBody? o (fresh || !o.raw) (rest.drop n)).map fun (body, after) =>
        (c :: (rest.take n ++ body), after)
    else if o.closesAt (c :: rest) then some ([], rest.drop (o.width - 1))
    else if c = '\x00' || (c = '\n' && !fresh && !o.triple) then none
    else (scanBody? o false rest).map fun (body, after) => (c :: body, after)
termination_by cs.length
decreasing_by
  · simp only [List.length_drop, List.length_cons]; omega
  · simp

/-- What ends a stretch of a formatted literal. -/
inductive Stop where
  | quotes
  | field
  deriving DecidableEq, Repr

/-- What ends the stretch of a formatted literal that a text starts with, and the text behind it.
A doubled brace stands for itself; a closing brace must be doubled. -/
def scanFormatted? (o : Opening) (fresh : Bool) (cs : List Char) : Option (Stop × List Char) :=
  match cs with
  | [] => none
  | c :: rest =>
    if c = '\x7b' then
      match rest with
      | '\x7b' :: more => scanFormatted? o true more
      | rest => some (.field, rest)
    else if c = '\x7d' then
      match rest with
      | '\x7d' :: more => scanFormatted? o true more
      | _ => none
    else if c = '\\' then
      scanFormatted? o (fresh || !o.raw) (rest.drop (o.shielded rest))
    else if o.closesAt (c :: rest) then some (.quotes, rest.drop (o.width - 1))
    else if c = '\x00' || (c = '\n' && !fresh && !o.triple) then none
    else scanFormatted? o false rest
termination_by cs.length
decreasing_by
  all_goals simp only [List.length_drop, List.length_cons]; omega

end Descriptor.Script
