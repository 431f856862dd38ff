import Descriptor.Script.Grammar.Reading

/-!
# Grammar of case patterns

What stands behind the word `case`. Patterns leave nothing in the tree, so the rules only tell
where one ends.

A part of the grammar to run with, which `Descriptor.Script.Grammar.Module` puts together.

## Main definitions

* `pattern` : a pattern with its alternatives and its name.
* `patternList` : patterns with commas between them.
-/

namespace Descriptor.Script

/-- The lexemes behind the words that dots join to one that has been read. -/
def dottedRest (ls : List Lexeme) : Outcome (List Lexeme) :=
  match ls with
  | l :: m :: rest =>
    if l.token = .symbol "." then
      match m.token with
      | .word _ => dottedRest rest
      | _ => fail (m :: rest)
    else .ok ls
  | [l] => if l.token = .symbol "." then fail [] else .ok ls
  | [] => .ok ls

/-- The lexemes behind adjacent literals. -/
def dropLiterals : List Lexeme → List Lexeme
  | [] => []
  | l :: rest =>
    match l.token with
    | .literal _ => dropLiterals rest
    | _ => l :: rest

/-- The lexemes behind a number and the other part of a complex one. -/
def numberPattern (ls : List Lexeme) : Outcome (List Lexeme) := do
  let ls ← expect .number ls
  if startsWith (.symbol "+") ls || startsWith (.symbol "-") ls then expect .number ls.tail
  else .ok ls

mutual

/-- A pattern with its alternatives and its name. -/
def pattern : Nat → List Lexeme → Outcome (List Lexeme)
  | 0, ls => fail ls
  | n + 1, ls => do
    let ls ← simplePattern n ls
    if startsWith (.symbol "|") ls then pattern n ls.tail
    else if startsWith (.word "as") ls then do
      let (_, ls) ← expectWord ls.tail
      .ok ls
    else .ok ls

/-- One alternative of a pattern. -/
def simplePattern : Nat → List Lexeme → Outcome (List Lexeme)
  | 0, ls => fail ls
  | n + 1, ls =>
    match ls with
    | [] => fail ls
    | l :: rest =>
      match l.token with
      | .number => numberPattern ls
      | .literal _ => .ok (dropLiterals rest)
      | .word _ =>
        if startsWith (.symbol "=") rest then simplePattern n rest.tail
        else do
          let ls ← dottedRest rest
          if startsWith (.symbol "(") ls then patternItems n (.symbol ")") ls.tail else .ok ls
      | .symbol "-" => numberPattern rest
      | .symbol "*" => return (← expectWord rest).2
      | .symbol "**" => return (← expectWord rest).2
      | .symbol "(" => patternItems n (.symbol ")") rest
      | .symbol "[" => patternItems n (.symbol "]") rest
      | .symbol "\x7b" => patternItems n (.symbol "\x7d") rest
      | _ => fail ls

/-- The patterns of a bracketed one, up to its closing bracket. In braces a pattern has a key. -/
def patternItems : Nat → Token → List Lexeme → Outcome (List Lexeme)
  | 0, _, ls => fail ls
  | n + 1, close, ls =>
    if startsWith close ls then .ok ls.tail
    else do
      let keyed := close = .symbol "\x7d" && !startsWith (.symbol "**") ls
      let ls ← pattern n ls
      let ls ← if keyed then do pattern n (← expect (.symbol ":") ls) else pure ls
      if startsWith close ls then .ok ls.tail
      else do
        let ls ← expect (.symbol ",") ls
        patternItems n close ls

end

/-- Patterns with commas between them, which a comma may end. -/
def patternList : Nat → List Lexeme → Outcome (List Lexeme)
  | 0, ls => fail ls
  | n + 1, ls => do
    let ls ← pattern n ls
    if startsWith (.symbol ",") ls then
      if startsWith (.symbol ":") ls.tail || startsWith (.word "if") ls.tail then .ok ls.tail
      else patternList n ls.tail
    else .ok ls

end Descriptor.Script
