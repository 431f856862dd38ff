import Descriptor.Text.Blank

/-!
# Marker clauses

The environment marker of a requirement is taken as clauses that are joined by the word `and`. A
clause that compares the variable `extra` for equality with a quoted text names a group of extras.

## Main definitions

* `clauses`, `joinClauses` : a marker taken apart and put together again.
* `quoted?` : the text of a value that is one quoted text.
* `extraGroup?` : the group that a clause names.
-/

namespace Descriptor.Requirement

open Text (trim trimStart)

/-- The clauses of a marker, where `clause` holds the characters of the unfinished clause in
reverse. -/
def clausesFrom (clause : List Char) : List Char → List (List Char)
  | [] => [clause.reverse]
  | ' ' :: 'a' :: 'n' :: 'd' :: ' ' :: rest => clause.reverse :: clausesFrom [] rest
  | c :: rest => clausesFrom (c :: clause) rest

/-- The clauses of a marker: what stands between the words `and`, each with one space around it. -/
def clauses (marker : List Char) : List (List Char) := clausesFrom [] marker

/-- The word between two clauses, with the spaces around it. -/
def conjunction : List Char := [' ', 'a', 'n', 'd', ' ']

/-- The marker with the given clauses. -/
def joinClauses (cs : List (List Char)) : List Char := conjunction.intercalate cs

/-- The two sides of the first pair of equality signs. -/
def splitEquality? : List Char → Option (List Char × List Char)
  | [] => none
  | '=' :: '=' :: rest => some ([], rest)
  | c :: rest => (splitEquality? rest).map fun (left, right) => (c :: left, right)

/-- Whether a character is a quotation mark. -/
def isQuote (c : Char) : Bool := c = '"' || c = '\''

/-- The text between two quotation marks of one kind that enclose a value and do not occur
within. -/
def quoted? : List Char → Option (List Char)
  | [] => none
  | quote :: rest =>
    if isQuote quote && rest.getLast? = some quote && !rest.dropLast.contains quote then
      some rest.dropLast
    else none

/-- A clause without the parentheses that open at its start and close at its end. -/
def stripParentheses (clause : List Char) : List Char :=
  ((clause.dropWhile (· = '(')).reverse.dropWhile (· = ')')).reverse

/-- The variable that a clause naming a group compares. -/
def extraVariable : List Char := ['e', 'x', 't', 'r', 'a']

/-- The group that a clause names, which is never empty. -/
def extraGroup? (clause : List Char) : Option (List Char) := do
  let (left, right) ← splitEquality? (trim (stripParentheses (trim clause)))
  if trim left = extraVariable then (quoted? (trim right)).filter (!·.isEmpty) else none

end Descriptor.Requirement
