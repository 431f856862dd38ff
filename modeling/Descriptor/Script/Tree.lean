/-!
# Statements and expressions of a setup script

What a reader of package metadata needs to see of a script: literals of text, names, containers,
calls, comparisons, simple assignments, conditions and function definitions. Everything else is
present as `other`, so that the order and number of statements and arguments is kept.

## Main definitions

* `Expr`, `Entry`, `Keyword` : expressions, the entries of a mapping display, keyword arguments.
* `Stmt` : statements. A module and a block are lists of statements.
* `Expr.text?`, `Expr.name?`, `Expr.elements?` : the payload of an expression of one kind.
* `keywordValue?`, `bundle?` : what a call passes under a name, and as a whole mapping.
-/

namespace Descriptor.Script

/-- The operators of a comparison. -/
inductive CompareOp where
  | eq | notEq | lt | ltE | gt | gtE | is | isNot | isIn | notIn
  deriving DecidableEq, Repr

/-- The operator with the given spelling, words being separated by one space. -/
def CompareOp.ofSpelling? : String → Option CompareOp
  | "==" => some .eq
  | "!=" => some .notEq
  | "<>" => some .notEq
  | "<" => some .lt
  | "<=" => some .ltE
  | ">" => some .gt
  | ">=" => some .gtE
  | "is" => some .is
  | "is not" => some .isNot
  | "in" => some .isIn
  | "not in" => some .notIn
  | _ => none

mutual

/-- An expression. -/
inductive Expr where
  /-- A literal of text, adjacent literals being joined. -/
  | text (value : String)
  | name (id : String)
  | attribute (value : Expr) (attr : String)
  | list (elements : List Expr)
  | tuple (elements : List Expr)
  | dict (entries : List Entry)
  | call (func : Expr) (args : List Expr) (keywords : List Keyword)
  /-- A chain of comparisons: each operator stands before the comparator of the same index. -/
  | compare (left : Expr) (ops : List CompareOp) (comparators : List Expr)
  | other

/-- An entry of a mapping display. -/
inductive Entry where
  | pair (key value : Expr)
  | splat (value : Expr)

/-- A keyword argument of a call. -/
inductive Keyword where
  | named (id : String) (value : Expr)
  | bundle (value : Expr)

end

deriving instance Repr for Expr, Entry, Keyword
deriving instance BEq for Expr, Entry, Keyword

instance : Inhabited Expr := ⟨.other⟩

/-- A statement. -/
inductive Stmt where
  | expr (value : Expr)
  /-- An assignment to one bare name. -/
  | assign (target : String) (value : Expr)
  /-- A condition with the statements of its first branch. -/
  | branch (test : Expr) (body : List Stmt)
  | function (name : String) (body : List Stmt)
  | other
  deriving Repr, BEq

instance : Inhabited Stmt := ⟨.other⟩

namespace Expr

/-- The text of a literal. -/
def text? : Expr → Option String
  | text value => some value
  | _ => none

/-- The name that an expression consists of. -/
def name? : Expr → Option String
  | name id => some id
  | _ => none

/-- The elements of a list or tuple display. -/
def elements? : Expr → Option (List Expr)
  | list elements => some elements
  | tuple elements => some elements
  | _ => none

end Expr

/-- The value of the first keyword argument with the given name. -/
def keywordValue? (keywords : List Keyword) (id : String) : Option Expr :=
  keywords.findSome? fun
    | .named name value => if name = id then some value else none
    | .bundle _ => none

/-- The value of the last keyword argument that is given as a whole mapping. -/
def bundle? (keywords : List Keyword) : Option Expr :=
  keywords.reverse.findSome? fun
    | .named _ _ => none
    | .bundle value => some value

end Descriptor.Script
