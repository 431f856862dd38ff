import Descriptor.Script.Grammar.Lexeme
import Descriptor.Script.Node
import Descriptor.Script.Tree

/-!
# Readings of lexemes

The pieces that the grammar of scripts is put together from. A rule of the grammar takes lexemes
off the front of a list, makes a node of them, and hands back the rest. Where an expression ends
depends on what is around it: inside brackets, and wherever more is still to come, line ends have no
meaning.

A part of the grammar to run with, which `Descriptor.Script.Grammar.Module` puts together.

## Main definitions

* `Fault` : why and where a script cannot be read.
* `Frame` : what may end the expression being read.
* `Node.over`, `Node.closed` : a node over the lexemes from one place to another.
* `Reading`, `Shape` : a node together with what it is good for as an assignment target.
* `next?` : the next token, as far as the frame lets it belong to the expression.
-/

namespace Descriptor.Script

/-- Why a script cannot be read, with the text from that place on. -/
inductive Fault where
  | unexpected (rest : List Char)
  /-- A compound statement has no body; the text is the one behind its colon. -/
  | missingBlock (rest : List Char)
  deriving DecidableEq, Repr

/-- What a rule of the grammar comes to: its result, most often with the lexemes that it leaves. -/
abbrev Outcome := Except Fault

/-- What may end the expression being read. -/
structure Frame where
  /-- A line end closes the expression. -/
  lineEnds : Bool
  /-- An `if` behind the expression belongs to the comprehension around it. -/
  guarded : Bool

/-- Inside brackets, or where more of the statement must follow. -/
def Frame.inner : Frame := ⟨false, false⟩

/-- At the end of a statement. -/
def Frame.line : Frame := ⟨true, false⟩

/-- In a clause of a comprehension. -/
def Frame.clause : Frame := ⟨false, true⟩

/-- What an expression is as the target of an assignment. -/
inductive Shape where
  | name
  /-- An attribute or an element. -/
  | reference
  /-- An expression behind a star, which may be a target. -/
  | starred (target : Bool)
  /-- The same in parentheses of its own. -/
  | enclosedStar (target : Bool)
  /-- Targets in brackets. -/
  | group
  /-- No target. -/
  | value
  deriving DecidableEq, Repr

/-- Whether an expression of this shape can be assigned to. -/
def Shape.isTarget : Shape → Bool
  | .starred target => target
  | .enclosedStar target => target
  | .value => false
  | _ => true

/-- Whether this is the shape of an expression behind a star. -/
def Shape.isStarred : Shape → Bool
  | .starred _ => true
  | _ => false

/-! ### Nodes over lexemes -/

/-- The text of a lexeme. -/
def Lexeme.text (l : Lexeme) : List Char := l.start.take (l.start.length - l.after.length)

/-- A lexeme as a token of the tree. -/
def Lexeme.toNode (l : Lexeme) : Node := ⟨String.ofList l.text, false, none, l.offset, l.text, []⟩

/-- The lexemes before the given rest. -/
def runUntil (ls rest : List Lexeme) : List Lexeme := ls.take (ls.length - rest.length)

/-- The text from the first lexeme to the last. -/
def spanOf (run : List Lexeme) : List Char :=
  match run, run.getLast? with
  | l :: _, some last => l.start.take (l.start.length - last.after.length)
  | _, _ => []

/-- The byte offset behind a node. -/
def Node.stop (n : Node) : Nat := n.start + Text.byteLength n.text

/-- The given nodes with a token for every lexeme that is part of none of them. -/
def withTokens : List Lexeme → List Node → List Node
  | [], _ => []
  | l :: ls, [] => l.toNode :: withTokens ls []
  | l :: ls, n :: ns =>
    if l.offset < n.start then l.toNode :: withTokens ls (n :: ns)
    else if ls.any (·.offset < n.stop) then withTokens ls (n :: ns)
    else n :: withTokens ls ns

/-- The node over the lexemes from `ls` to `rest` with the given parts. -/
def Node.over (kind : String) (ls rest : List Lexeme) (parts : List Node) : Node :=
  let run := runUntil ls rest
  ⟨kind, true, none, (run.head?.map (·.offset)).getD 0, spanOf run, withTokens run parts⟩

/-- The node over the lexemes from `ls` to `rest` whose parts are left out. -/
def Node.closed (kind : String) (ls rest : List Lexeme) : Node :=
  { Node.over kind ls rest [] with children := [] }

/-- The node in a role. -/
def Node.as (n : Node) (role : String) : Node := { n with role? := some role }

/-- The node as one of another kind. -/
def Node.ofKind (n : Node) (kind : String) : Node := { n with kind := kind }

/-! ### Readings -/

/-- An expression and its use as a target. -/
structure Reading where
  node : Node
  shape : Shape

/-- An expression of which only the extent matters. -/
def Reading.closed (kind : String) (ls rest : List Lexeme) : Reading :=
  ⟨.closed kind ls rest, .value⟩

/-- Whether an expression can be assigned to. -/
def Reading.isTarget (r : Reading) : Bool := r.shape.isTarget

/-- An expression in parentheses. With a star it is a tuple, though not as an element. -/
def Reading.enclosed (ls rest : List Lexeme) (r : Reading) : Reading :=
  match r.shape with
  | .starred target => ⟨.over "tuple" ls rest [r.node], .enclosedStar target⟩
  | .enclosedStar target => ⟨.over "tuple" ls rest [r.node], .enclosedStar target⟩
  | shape =>
    ⟨.over "parenthesized_expression" ls rest [r.node], if shape.isTarget then .group else .value⟩

/-- Whether an expression can only be an element or an argument where it stands in brackets. -/
def Reading.isSplat (r : Reading) : Bool :=
  match r.shape with
  | .starred _ => true
  | .enclosedStar _ => true
  | _ => false

/-- An expression as an element of a display or an argument. -/
def Reading.element (r : Reading) : Node :=
  match r.shape with
  | .enclosedStar _ => r.node.ofKind "parenthesized_expression"
  | _ => r.node

/-- A list or tuple of the given elements. -/
def Reading.display (kind : String) (ls rest : List Lexeme) (elements : List Reading) : Reading :=
  ⟨.over kind ls rest (elements.map (·.element)),
    if elements.all (·.isTarget) then .group else .value⟩

/-- An expression behind a star. -/
def Reading.starred (ls rest : List Lexeme) (r : Reading) : Reading :=
  ⟨.over "list_splat" ls rest [r.node], .starred (r.shape = .name || r.shape = .reference)⟩

/-- Whether expressions with commas between them, the last of which a comma may end (`trailing`),
can stand for a value: those behind stars can where all of them are targets and there is a
comma. -/
def Reading.listed (trailing : Bool) (rs : List Reading) : Bool :=
  !rs.any (·.shape.isStarred) || (rs.all (·.isTarget) && (trailing || rs.length ≠ 1))

/-- The text from the first lexeme on. -/
def textOf : List Lexeme → List Char
  | [] => []
  | l :: _ => l.start

/-- The failure of a rule that the lexemes do not go on with. -/
def fail {α : Type} (ls : List Lexeme) : Outcome α := .error (.unexpected (textOf ls))

/-- The next token that can belong to an expression in the given frame. -/
def next? (fr : Frame) : List Lexeme → Option (Token × List Lexeme)
  | [] => none
  | l :: rest => if fr.lineEnds && l.indent.isSome then none else some (l.token, rest)

/-- The next token, on whatever line it stands. -/
def head? : List Lexeme → Option Token
  | [] => none
  | l :: _ => some l.token

/-- Whether the next token is the given one. -/
def startsWith (t : Token) (ls : List Lexeme) : Bool := head? ls = some t

/-- The lexemes behind the given token, which must come next. -/
def expect (t : Token) : List Lexeme → Outcome (List Lexeme)
  | l :: rest => if l.token = t then .ok rest else fail (l :: rest)
  | [] => fail []

/-- The word that must come next, as a name. -/
def expectWord : List Lexeme → Outcome (Node × List Lexeme)
  | l :: rest =>
    match l.token with
    | .word _ => .ok (.closed "identifier" (l :: rest) rest, rest)
    | _ => fail (l :: rest)
  | [] => fail []

/-- Whether a line of the script ends before the next lexeme. -/
def atLineEnd : List Lexeme → Bool
  | [] => true
  | l :: _ => l.indent.isSome

/-- Whether a simple statement can end before the next lexeme. -/
def atStatementEnd : List Lexeme → Bool
  | [] => true
  | l :: _ => l.indent.isSome || l.token = .symbol ";"

/-- The operators between two operands that make a value of its own kind. -/
def isBinaryOperator (s : String) : Bool :=
  ["+", "-", "*", "@", "/", "%", "//", "**", "|", "&", "^", "<<", ">>"].contains s

/-- The operators that change what is assigned to. -/
def isAugmentation (s : String) : Bool :=
  ["+=", "-=", "*=", "/=", "@=", "//=", "%=", "**=", ">>=", "<<=", "&=", "^=", "|="].contains s

/-- The words that are literals of the language and no names. -/
def isConstant (w : String) : Bool := ["None", "True", "False"].contains w

/-- The words that can follow an expression. -/
def followsOperand (w : String) : Bool :=
  ["in", "is", "not", "and", "or", "if", "else", "as", "for"].contains w

/-- A symbol that an expression can start with. -/
def isOpeningSymbol (s : String) : Bool :=
  ["(", "[", "\x7b", "+", "-", "~", "..."].contains s

/-- Whether an expression can start with a token. -/
def startsExpression : Option Token → Bool
  | some (.word _) => true
  | some (.literal _) => true
  | some .number => true
  | some .formatOpen => true
  | some (.symbol s) => isOpeningSymbol s
  | _ => false

/-- Whether an operand can start with a token that stands behind a name. -/
def startsOperand : Option Token → Bool
  | some (.word w) => !followsOperand w
  | t => startsExpression t

/-- The lexemes behind the comparison operator that comes next, of one word or two. -/
def compareOp? (fr : Frame) (ls : List Lexeme) : Option (List Lexeme) :=
  match next? fr ls with
  | some (.symbol s, rest) => (CompareOp.ofSpelling? s).map fun _ => rest
  | some (.word "in", rest) => some rest
  | some (.word "is", rest) => some (if startsWith (.word "not") rest then rest.tail else rest)
  | some (.word "not", rest) => if startsWith (.word "in") rest then some rest.tail else none
  | _ => none

/-- Whether a clause of a comprehension comes next. -/
def startsClause (ls : List Lexeme) : Bool :=
  startsWith (.word "for") ls ||
    (startsWith (.word "async") ls && startsWith (.word "for") ls.tail)

end Descriptor.Script
