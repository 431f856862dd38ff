import Descriptor.Proofs.Text.Digits
import Descriptor.Script.Tree

/-!
# Printing statements as source

The source of a list of statements, in a form that leaves no question of precedence open: whatever a
call, an attribute or a comparison is made of stands in parentheses, and every block has four more
spaces than the one around it. A line is laid out as tokens with the spaces between them.

Only statements and expressions that the language has can be printed: names are identifiers, a body
has at least one statement, and a comparison has as many operators as operands behind its first.

## Main definitions

* `Quoting` : the way in which literals spell texts, of which `asciiQuoting` is one.
* `Expr.layout` : the tokens and spaces of an expression.
* `Stmt.lines`, `printModule` : the lines of a statement and the source of a module.
* `Printable`, `PrintableStmt` : the expressions and statements that have a source.
-/

namespace Descriptor.Script

/-! ### Literals -/

/-- The escapes of one letter or quote, with the characters that they stand for. -/
def letterEscapes : List (Char × Char) :=
  [('\\', '\\'), ('\'', '\''), ('"', '"'), ('n', '\n'), ('t', '\t'), ('r', '\r'), ('a', '\x07'),
    ('b', '\x08'), ('f', '\x0c'), ('v', '\x0b')]

/-- The marks of the escapes that give a character by its number, with the digits that they take. -/
def codeEscapes : List (Char × Nat) := [('x', 2), ('u', 4), ('U', 8)]

/-- The escapes of a character. -/
inductive Escapes (c : Char) : List Char → Prop
  | letter {mark : Char} (h : (mark, c) ∈ letterEscapes) : Escapes c ['\\', mark]
  | code {mark : Char} {width : Nat} (h : (mark, width) ∈ codeEscapes) {ten : Char}
      (hten : Text.IsTen ten) (hfits : c.toNat < 16 ^ width) :
      Escapes c ('\\' :: mark :: Text.hexDigits ten width c.toNat)

/-- A character that may stand for itself in single quotes: a printable ASCII character other than
the quote and the backslash. -/
def IsBare (c : Char) : Prop := 0x20 ≤ c.toNat ∧ c.toNat ≤ 0x7e ∧ c ≠ '\'' ∧ c ≠ '\\'

instance : DecidablePred IsBare := fun _ => inferInstanceAs (Decidable (_ ∧ _ ∧ _ ∧ _))

/-- The bodies that spell a text in single quotes: every character stands for itself or is
escaped. -/
inductive Spelled : List Char → List Char → Prop
  | nil : Spelled [] []
  | bare {c : Char} {cs body : List Char} (hbare : IsBare c) (h : Spelled cs body) :
      Spelled (c :: cs) (c :: body)
  | escaped {c : Char} {escape : List Char} {cs body : List Char} (hescape : Escapes c escape)
      (h : Spelled cs body) : Spelled (c :: cs) (escape ++ body)

/-- A way to spell texts in single quotes. -/
structure Quoting where
  body : String → List Char
  spelled : ∀ s, Spelled s.toList (body s)

/-- The literal of a text. -/
def Quoting.literal (q : Quoting) (s : String) : List Char := '\'' :: (q.body s ++ ['\''])

/-- A character between single quotes, where every character that may not stand for itself is
escaped, by its number if it is neither a backslash nor a quote. -/
def asciiSpelling (c : Char) : List Char :=
  if IsBare c then [c]
  else if c = '\\' || c = '\'' then ['\\', c]
  else if c.toNat < 16 ^ 2 then '\\' :: 'x' :: Text.hexDigits 'a' 2 c.toNat
  else if c.toNat < 16 ^ 4 then '\\' :: 'u' :: Text.hexDigits 'a' 4 c.toNat
  else '\\' :: 'U' :: Text.hexDigits 'a' 8 c.toNat

theorem isBare_or_escapes (c : Char) :
    IsBare c ∧ asciiSpelling c = [c] ∨ Escapes c (asciiSpelling c) := by
  rw [asciiSpelling]
  split_ifs with hbare hquote htwo hfour
  · exact .inl ⟨hbare, rfl⟩
  · simp only [Bool.or_eq_true, decide_eq_true_eq] at hquote
    rcases hquote with rfl | rfl <;> exact .inr (.letter (by decide))
  · exact .inr (.code (by decide) .lower htwo)
  · exact .inr (.code (by decide) .lower hfour)
  · exact .inr (.code (by decide) .lower (Nat.lt_of_lt_of_eq c.val.toNat_lt (by decide)))

theorem spelled_flatMap (cs : List Char) : Spelled cs (cs.flatMap asciiSpelling) := by
  induction cs with
  | nil => exact .nil
  | cons c cs ih =>
    rw [List.flatMap_cons]
    rcases isBare_or_escapes c with ⟨hbare, heq⟩ | hescape
    · rw [heq]
      exact .bare hbare ih
    · exact .escaped hescape ih

/-- Texts in ASCII characters. -/
def asciiQuoting : Quoting :=
  ⟨fun s => s.toList.flatMap asciiSpelling, fun s => spelled_flatMap s.toList⟩

/-! ### Expressions -/

/-- A piece of a line: the text of a token, or the space between two. -/
abbrev Piece := Option (List Char)

/-- A keyword, an operator or a delimiter as a piece. -/
def word (s : String) : Piece := some s.toList

/-- The space between two tokens. -/
def space : Piece := none

/-- Pieces in parentheses. -/
def enclosed (layout : List Piece) : List Piece := word "(" :: (layout ++ [word ")"])

/-- Layouts with commas between them. -/
def commaList (layouts : List (List Piece)) : List Piece := [word ",", space].intercalate layouts

/-- The words that spell a comparison operator. -/
def CompareOp.words : CompareOp → List String
  | .eq => ["=="]
  | .notEq => ["!="]
  | .lt => ["<"]
  | .ltE => ["<="]
  | .gt => [">"]
  | .gtE => [">="]
  | .is => ["is"]
  | .isNot => ["is", "not"]
  | .isIn => ["in"]
  | .notIn => ["not", "in"]

/-- The pieces of a comparison operator. -/
def CompareOp.layout (op : CompareOp) : List Piece := [space].intercalate (op.words.map ([word ·]))

section Layout

variable (q : Quoting)

mutual

/-- The pieces of an expression. -/
def Expr.layout : Expr → List Piece
  | .text value => [some (q.literal value)]
  | .name id => [word id]
  | .attribute value attr => enclosed (layout value) ++ [word ".", word attr]
  | .list elements => word "[" :: (commaList (layouts elements) ++ [word "]"])
  | .tuple elements =>
    word "(" :: (commaList (layouts elements) ++
      if elements.length = 1 then [word ",", word ")"] else [word ")"])
  | .dict entries => word "\x7b" :: (commaList (entryLayouts entries) ++ [word "\x7d"])
  | .call func args keywords =>
    enclosed (layout func) ++ enclosed (commaList (layouts args ++ keywordLayouts keywords))
  | .compare left ops comparators => enclosed (layout left) ++ comparisonLayout ops comparators
  | .other => [word "0"]

/-- The pieces of every expression. -/
def Expr.layouts : List Expr → List (List Piece)
  | [] => []
  | e :: es => layout e :: layouts es

/-- The pieces of every entry of a mapping display. -/
def Expr.entryLayouts : List Entry → List (List Piece)
  | [] => []
  | .pair key value :: es =>
    (layout key ++ word ":" :: space :: layout value) :: entryLayouts es
  | .splat value :: es => (word "**" :: enclosed (layout value)) :: entryLayouts es

/-- The pieces of every keyword argument. -/
def Expr.keywordLayouts : List Keyword → List (List Piece)
  | [] => []
  | .named id value :: ks => (word id :: word "=" :: layout value) :: keywordLayouts ks
  | .bundle value :: ks => (word "**" :: enclosed (layout value)) :: keywordLayouts ks

/-- The pieces of the operators of a comparison with the operands behind them. -/
def Expr.comparisonLayout : List CompareOp → List Expr → List Piece
  | op :: ops, e :: es =>
    space :: (op.layout ++ space :: (enclosed (layout e) ++ comparisonLayout ops es))
  | _, _ => []

end

/-! ### Statements -/

/-- A line of source: the number of blocks around it and its pieces. -/
structure Line where
  level : Nat
  layout : List Piece

mutual

/-- The lines of a statement that so many blocks stand around. -/
def Stmt.lines (level : Nat) : Stmt → List Line
  | .expr value => [⟨level, value.layout q⟩]
  | .assign target value => [⟨level, word target :: space :: word "=" :: space :: value.layout q⟩]
  | .branch test body =>
    ⟨level, word "if" :: space :: (test.layout q ++ [word ":"])⟩ :: blockLines (level + 1) body
  | .function name body =>
    ⟨level, [word "def", space, word name, word "(", word ")", word ":"]⟩ ::
      blockLines (level + 1) body
  | .other => [⟨level, [word "pass"]⟩]

/-- The lines of the statements of a block. -/
def Stmt.blockLines (level : Nat) : List Stmt → List Line
  | [] => []
  | s :: ss => lines level s ++ blockLines level ss

end

/-! ### Text -/

/-- The text of pieces. -/
def spell (layout : List Piece) : List Char := layout.flatMap (·.getD [' '])

/-- The text of a line, with its end. -/
def Line.text (l : Line) : List Char :=
  List.replicate (4 * l.level) ' ' ++ (spell l.layout ++ ['\n'])

/-- The source of a module. -/
def printModule (statements : List Stmt) : String :=
  String.ofList ((Stmt.blockLines q 0 statements).flatMap Line.text)

end Layout

/-! ### What can be printed -/

/-- The words that are no identifiers: the keywords of the language, and the words that are keywords
in some places or some of its versions. -/
def reservedWords : List String :=
  ["False", "None", "True", "and", "as", "assert", "async", "await", "break", "class", "continue",
    "def", "del", "elif", "else", "except", "finally", "for", "from", "global", "if", "import",
    "in", "is", "lambda", "nonlocal", "not", "or", "pass", "raise", "return", "try", "while",
    "with", "yield", "print", "exec", "match", "case", "type"]

/-- Whether a word is spelled as a name: ASCII letters, digits and underscores, no digit first. -/
def isNameSpelling (w : String) : Bool :=
  match w.toList with
  | c :: cs => (c.isAlpha || c = '_') && cs.all fun d => d.isAlphanum || d = '_'
  | [] => false

/-- An ASCII identifier that is reserved nowhere. -/
structure IsIdentifier (w : String) : Prop where
  spelling : isNameSpelling w = true
  notReserved : w ∉ reservedWords

/-- The expressions that have a source: their names are identifiers, and comparisons have as many
operators as operands behind the first, at least one. -/
inductive Printable : Expr → Prop
  | text (value : String) : Printable (.text value)
  | name {id : String} (h : IsIdentifier id) : Printable (.name id)
  | attribute {value : Expr} {attr : String} (hvalue : Printable value) (h : IsIdentifier attr) :
      Printable (.attribute value attr)
  | list {elements : List Expr} (h : ∀ e ∈ elements, Printable e) : Printable (.list elements)
  | tuple {elements : List Expr} (h : ∀ e ∈ elements, Printable e) : Printable (.tuple elements)
  | dict {entries : List Entry} (hkeys : ∀ k v, .pair k v ∈ entries → Printable k)
      (hvalues : ∀ k v, .pair k v ∈ entries → Printable v)
      (hsplats : ∀ v, .splat v ∈ entries → Printable v) : Printable (.dict entries)
  | call {func : Expr} {args : List Expr} {keywords : List Keyword} (hfunc : Printable func)
      (hargs : ∀ e ∈ args, Printable e) (hids : ∀ id v, .named id v ∈ keywords → IsIdentifier id)
      (hnamed : ∀ id v, .named id v ∈ keywords → Printable v)
      (hbundles : ∀ v, .bundle v ∈ keywords → Printable v) : Printable (.call func args keywords)
  | compare {left : Expr} {ops : List CompareOp} {comparators : List Expr} (hleft : Printable left)
      (hne : ops ≠ []) (hlength : ops.length = comparators.length)
      (h : ∀ e ∈ comparators, Printable e) : Printable (.compare left ops comparators)
  | other : Printable .other

/-- The statements that have a source: what they are made of has one, and bodies are not empty. -/
inductive PrintableStmt : Stmt → Prop
  | expr {value : Expr} (h : Printable value) : PrintableStmt (.expr value)
  | assign {target : String} {value : Expr} (htarget : IsIdentifier target) (h : Printable value) :
      PrintableStmt (.assign target value)
  | branch {test : Expr} {body : List Stmt} (htest : Printable test) (hne : body ≠ [])
      (h : ∀ s ∈ body, PrintableStmt s) : PrintableStmt (.branch test body)
  | function {name : String} {body : List Stmt} (hname : IsIdentifier name) (hne : body ≠ [])
      (h : ∀ s ∈ body, PrintableStmt s) : PrintableStmt (.function name body)
  | other : PrintableStmt .other

end Descriptor.Script
