import Descriptor.Script.Grammar.Quoted
import Descriptor.Text.Utf8

/-!
# Lexemes of a script

A script as a list of tokens, each with its place: the text it starts, the text behind it, and,
when it is the first of its line, how far it is indented. Blanks, comments and continuations of a
line leave no other trace. The list ends early at a place where no token fits, with one that says
so.

A part of the grammar to run with, which `Descriptor.Script.Grammar.Module` puts together.

## Main definitions

* `Lexeme` : a token with its place.
* `skipGap` : the text behind blanks and comments, and the indentation when a line has ended.
* `scan` : the lexemes of a script.
-/

namespace Descriptor.Script

/-- A token with its place in a script. -/
structure Lexeme where
  token : Token
  /-- The byte offset of the token. -/
  offset : Nat
  /-- The text from the token on. -/
  start : List Char
  /-- The text behind the token. -/
  after : List Char
  /-- The columns before the token, when it is the first of its line. -/
  indent : Option Nat

/-- What lies between two tokens: the text behind it, the columns since the last line end, and
whether there was one. -/
structure Gap where
  rest : List Char
  column : Nat
  broken : Bool

/-- The column behind a tabulator: the next multiple of eight. -/
def tabStop (column : Nat) : Nat := (column / 8 + 1) * 8

/-- A character that has no width and no meaning between tokens. -/
def isInvisible (c : Char) : Bool :=
  c = '\x0b' || c = '\ufeff' || c = '\u2060' || c = '\u200b'

/-- Passes over blanks, comments and line continuations. -/
def skipGap (column : Nat) (broken : Bool) (cs : List Char) : Gap :=
  match cs with
  | [] => ⟨[], column, broken⟩
  | c :: rest =>
    if c = '\n' then skipGap 0 true rest
    else if c = ' ' then skipGap (column + 1) broken rest
    else if c = '\t' then skipGap (tabStop column) broken rest
    else if c = '\r' || c = '\x0c' then skipGap 0 broken rest
    else if isInvisible c then skipGap column broken rest
    else if c = '#' then skipGap column broken (rest.dropWhile (· ≠ '\n'))
    else if c = '\\' then
      match rest with
      | [] => ⟨[], column, broken⟩
      | '\n' :: more => skipGap column broken more
      | '\r' :: '\n' :: more => skipGap column broken more
      | _ => ⟨cs, column, broken⟩
    else ⟨cs, column, broken⟩
termination_by cs.length
decreasing_by
  all_goals
    simp only [List.length_cons]
    first
      | omega
      | exact Nat.lt_succ_of_le (List.dropWhile_sublist _).length_le

/-- The surroundings of a place in a script. -/
inductive Surrounding where
  /-- A formatted literal. -/
  | formatted (opening : Opening)
  /-- A replacement field, with the number of brackets that are open in it. -/
  | field (depth : Nat)
  /-- The format of a replacement field. -/
  | format
  deriving DecidableEq, Repr

/-- A token, the surroundings behind it, innermost first, and the text behind it. -/
structure Step where
  token : Token
  within : List Surrounding
  rest : List Char

private def invalidStep : Step := ⟨.invalid, [], []⟩

/-- The token of a literal that opens as given, the text behind the opening being `cs`. -/
def scanLiteral (within : List Surrounding) (o : Opening) (whole cs : List Char) : Step :=
  if o.formatted then ⟨.formatOpen, .formatted o :: within, cs⟩
  else
    match scanBody? o true cs with
    | some (_, rest) => ⟨.literal (whole.take (whole.length - rest.length)), within, rest⟩
    | none => invalidStep

/-- The token at the start of a text where code stands. -/
def scanCode (within : List Surrounding) (cs : List Char) : Step :=
  match scanOpening? cs with
  | some (o, rest) => scanLiteral within o cs rest
  | none =>
    match cs with
    | [] => invalidStep
    | c :: _ =>
      if isNameStart c then
        let (token, rest) := scanWord cs
        ⟨token, within, rest⟩
      else if startsNumber cs then ⟨.number, within, dropNumber cs⟩
      else
        match scanSymbol? cs with
        | some (token, rest) => ⟨token, within, rest⟩
        | none => invalidStep

/-- The token at the start of a text that stands in a replacement field. -/
def scanField (outer : List Surrounding) (depth : Nat) (cs : List Char) : Step :=
  match cs with
  | c :: rest =>
    if depth = 0 && c = '\x7d' then ⟨.fieldClose, outer, rest⟩
    else if depth = 0 && c = ':' then ⟨.format, .format :: outer, rest⟩
    else if depth = 0 && c = '!' && (rest.head?.map Char.isLower).getD false then
      ⟨.conversion, .field depth :: outer, rest.tail⟩
    else if c = '(' || c = '[' || c = '\x7b' then
      ⟨.symbol (String.singleton c), .field (depth + 1) :: outer, rest⟩
    else if c = ')' || c = ']' || c = '\x7d' then
      ⟨.symbol (String.singleton c), .field (depth - 1) :: outer, rest⟩
    else scanCode (.field depth :: outer) cs
  | [] => invalidStep

/-- The token at the start of the format of a replacement field. -/
def scanFormat (outer : List Surrounding) (cs : List Char) : Step :=
  match cs.dropWhile fun c => c ≠ '\x7b' && c ≠ '\x7d' with
  | '\x7b' :: rest => ⟨.fieldOpen, .field 0 :: .format :: outer, rest⟩
  | '\x7d' :: rest => ⟨.fieldClose, outer, rest⟩
  | _ => invalidStep

/-- The next token of a script and the gap before it, unless the script is at its end. -/
def scanStep? (within : List Surrounding) (cs : List Char) : Option (Gap × Step) :=
  match within with
  | .formatted o :: outer =>
    some (⟨cs, 0, false⟩,
      match scanFormatted? o true cs with
      | some (.quotes, rest) => ⟨.formatClose, outer, rest⟩
      | some (.field, rest) => ⟨.fieldOpen, .field 0 :: within, rest⟩
      | none => invalidStep)
  | .format :: outer => some (⟨cs, 0, false⟩, scanFormat outer cs)
  | .field depth :: outer =>
    let gap := skipGap 0 false cs
    some (gap, scanField outer depth gap.rest)
  | [] =>
    let gap := skipGap 0 false cs
    if gap.rest.isEmpty then none else some (gap, scanCode [] gap.rest)

/-- The lexemes of a text that ends so many bytes behind the start of the script, within the given
surroundings. The text behind a token is shorter than the text before it; should it not be, the
script ends there. -/
def scanFrom (length : Nat) (within : List Surrounding) (first : Bool) (cs : List Char) :
    List Lexeme :=
  match scanStep? within cs with
  | none => []
  | some (gap, step) =>
    let indent := if gap.broken || first then some gap.column else none
    ⟨step.token, length - Text.byteLength gap.rest, gap.rest, step.rest, indent⟩ ::
      if _shorter : step.rest.length < cs.length then
        if step.token = .invalid then [] else scanFrom length step.within false step.rest
      else []
termination_by cs.length

/-- The lexemes of a script. -/
def scan (source : List Char) : List Lexeme :=
  scanFrom (Text.byteLength source) [] true source

end Descriptor.Script
