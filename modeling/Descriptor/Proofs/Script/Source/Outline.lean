import Descriptor.Proofs.Script.Source.Print
import Descriptor.Script.Node

/-!
# The syntax trees of printed source

What is known of the syntax tree of a source that was printed: the kinds of its nodes, the roles
that they play, and the tokens between them. The places of nodes and the inner structure of names
and literals are left open.

## Main definitions

* `Outline` : what is known of a node and the nodes below it.
* `Expr.outline`, `Stmt.outline` : the outlines of the trees of expressions and statements.
* `Node.fits` : the nodes with an outline.

## Main results

* `Stmt.tokens_outlines` : the tokens of the outlines of statements are those of their lines, in
  order.
-/

namespace Descriptor.Script

/-- What is known of a node and of the nodes below it. -/
inductive Outline where
  /-- A token, known by its text. -/
  | token (text : String)
  /-- A node that is known by its text. -/
  | leaf (role? : Option String) (kind : String) (text : List Char)
  | branch (role? : Option String) (kind : String) (parts : List Outline)

namespace Outline

/-- The outline of a node in a role. Tokens have none. -/
def as : Outline → Option String → Outline
  | .token text, _ => .token text
  | .leaf _ kind text, role => .leaf role kind text
  | .branch _ kind parts, role => .branch role kind parts

/-- Whether the node is more than a token. -/
def isNamed : Outline → Bool
  | .token _ => false
  | _ => true

/-- The role that a node plays in the one above it. -/
def role? : Outline → Option String
  | .token _ => none
  | .leaf role _ _ => role
  | .branch role _ _ => role

@[simp]
theorem isNamed_token (text : String) : (token text).isNamed = false := rfl

@[simp]
theorem isNamed_leaf (role : Option String) (kind : String) (text : List Char) :
    (leaf role kind text).isNamed = true := rfl

@[simp]
theorem isNamed_branch (role : Option String) (kind : String) (parts : List Outline) :
    (branch role kind parts).isNamed = true := rfl

@[simp]
theorem role?_token (text : String) : (token text).role? = none := rfl

@[simp]
theorem role?_leaf (role : Option String) (kind : String) (text : List Char) :
    (leaf role kind text).role? = role := rfl

@[simp]
theorem role?_branch (role : Option String) (kind : String) (parts : List Outline) :
    (branch role kind parts).role? = role := rfl

@[simp]
theorem isNamed_as (o : Outline) (role : Option String) : (o.as role).isNamed = o.isNamed := by
  cases o <;> rfl

mutual

/-- The texts of the tokens, from left to right. -/
def tokens : Outline → List (List Char)
  | .token text => [text.toList]
  | .leaf _ _ text => [text]
  | .branch _ _ parts => tokensOf parts

/-- The texts of the tokens of several nodes, from left to right. -/
def tokensOf : List Outline → List (List Char)
  | [] => []
  | o :: os => tokens o ++ tokensOf os

end

theorem tokensOf_append (os ps : List Outline) :
    tokensOf (os ++ ps) = tokensOf os ++ tokensOf ps := by
  induction os with
  | nil => simp [tokensOf]
  | cons o os ih => rw [List.cons_append, tokensOf, tokensOf, ih, List.append_assoc]

/-- A role adds no token. -/
theorem tokens_as (o : Outline) (role : Option String) : (o.as role).tokens = o.tokens := by
  cases o <;> rw [as] <;> simp only [tokens]

end Outline

/-! ### Expressions -/

/-- The outline of an identifier. -/
def nameOutline (id : String) : Outline := .leaf none "identifier" id.toList

@[simp]
theorem isNamed_nameOutline (id : String) : (nameOutline id).isNamed = true := rfl

@[simp]
theorem role?_as_nameOutline (id : String) (role : Option String) :
    ((nameOutline id).as role).role? = role := rfl

/-- The outline of an expression in parentheses. -/
def Outline.enclosed (o : Outline) : Outline :=
  .branch none "parenthesized_expression" [.token "(", o, .token ")"]

@[simp]
theorem Outline.isNamed_enclosed (o : Outline) : o.enclosed.isNamed = true := rfl

@[simp]
theorem Outline.role?_as_enclosed (o : Outline) (role : Option String) :
    (o.enclosed.as role).role? = role := rfl

/-- Outlines with commas between them. -/
def commaOutlines (os : List Outline) : List Outline := os.intersperse (.token ",")

section Outlines

variable (q : Quoting)

mutual

/-- The outline of the tree of an expression. -/
def Expr.outline : Expr → Outline
  | .text value => .leaf none "string" (q.literal value)
  | .name id => nameOutline id
  | .attribute value attr =>
    .branch none "attribute"
      [(outline value).enclosed.as "object", .token ".", (nameOutline attr).as "attribute"]
  | .list elements =>
    .branch none "list" (.token "[" :: (commaOutlines (outlines elements) ++ [.token "]"]))
  | .tuple elements =>
    .branch none "tuple" (.token "(" :: (commaOutlines (outlines elements) ++
      if elements.length = 1 then [.token ",", .token ")"] else [.token ")"]))
  | .dict entries =>
    .branch none "dictionary"
      (.token "\x7b" :: (commaOutlines (entryOutlines entries) ++ [.token "\x7d"]))
  | .call func args keywords =>
    .branch none "call"
      [(outline func).enclosed.as "function",
        .branch (some "arguments") "argument_list"
          (.token "(" :: (commaOutlines (outlines args ++ keywordOutlines keywords) ++
            [.token ")"]))]
  | .compare left ops comparators =>
    .branch none "comparison_operator"
      ((outline left).enclosed :: comparisonOutlines ops comparators)
  | .other => .leaf none "integer" ['0']

/-- The outlines of the trees of expressions. -/
def Expr.outlines : List Expr → List Outline
  | [] => []
  | e :: es => outline e :: outlines es

/-- The outlines of the entries of a mapping display. -/
def Expr.entryOutlines : List Entry → List Outline
  | [] => []
  | .pair key value :: es =>
    .branch none "pair" [(outline key).as "key", .token ":", (outline value).as "value"] ::
      entryOutlines es
  | .splat value :: es =>
    .branch none "dictionary_splat" [.token "**", (outline value).enclosed] :: entryOutlines es

/-- The outlines of keyword arguments. -/
def Expr.keywordOutlines : List Keyword → List Outline
  | [] => []
  | .named id value :: ks =>
    .branch none "keyword_argument"
      [(nameOutline id).as "name", .token "=", (outline value).as "value"] :: keywordOutlines ks
  | .bundle value :: ks =>
    .branch none "dictionary_splat" [.token "**", (outline value).enclosed] :: keywordOutlines ks

/-- The outlines of the operators of a comparison, word by word, and of the operands behind them. -/
def Expr.comparisonOutlines : List CompareOp → List Expr → List Outline
  | op :: ops, e :: es =>
    op.words.map .token ++ (outline e).enclosed :: comparisonOutlines ops es
  | _, _ => []

end

/-! ### Statements -/

mutual

/-- The outline of the tree of a statement. -/
def Stmt.outline : Stmt → Outline
  | .expr value => .branch none "expression_statement" [value.outline q]
  | .assign target value =>
    .branch none "expression_statement"
      [.branch none "assignment"
        [(nameOutline target).as "left", .token "=", (value.outline q).as "right"]]
  | .branch test body =>
    .branch none "if_statement"
      [.token "if", (test.outline q).as "condition", .token ":",
        .branch (some "consequence") "block" (outlines body)]
  | .function name body =>
    .branch none "function_definition"
      [.token "def", (nameOutline name).as "name",
        .branch (some "parameters") "parameters" [.token "(", .token ")"], .token ":",
        .branch (some "body") "block" (outlines body)]
  | .other => .leaf none "pass_statement" "pass".toList

/-- The outlines of the trees of statements. -/
def Stmt.outlines : List Stmt → List Outline
  | [] => []
  | s :: ss => outline s :: outlines ss

end

end Outlines

/-! ### The tokens of an outline -/

section Tokens

variable {q : Quoting}

/-- The tokens among the pieces of a line. -/
def tokensOfLayout (layout : List Piece) : List (List Char) := layout.filterMap id

@[simp]
theorem tokensOfLayout_append (layout more : List Piece) :
    tokensOfLayout (layout ++ more) = tokensOfLayout layout ++ tokensOfLayout more :=
  List.filterMap_append

@[simp]
theorem tokensOfLayout_word (w : String) (layout : List Piece) :
    tokensOfLayout (word w :: layout) = w.toList :: tokensOfLayout layout := rfl

@[simp]
theorem tokensOfLayout_space (layout : List Piece) :
    tokensOfLayout (space :: layout) = tokensOfLayout layout := rfl

@[simp]
theorem tokensOfLayout_nil : tokensOfLayout [] = [] := rfl

theorem tokens_enclosed {o : Outline} {layout : List Piece}
    (h : o.tokens = tokensOfLayout layout) :
    o.enclosed.tokens = tokensOfLayout (enclosed layout) := by
  simp [Outline.enclosed, Outline.tokens, Outline.tokensOf, enclosed, h]

theorem tokensOf_commaOutlines {os : List Outline} {layouts : List (List Piece)}
    (h : os.map Outline.tokens = layouts.map tokensOfLayout) :
    Outline.tokensOf (commaOutlines os) = tokensOfLayout (commaList layouts) := by
  rw [commaOutlines, commaList]
  induction os generalizing layouts with
  | nil =>
    obtain rfl := List.map_eq_nil_iff.mp h.symm
    rfl
  | cons o os ih =>
    obtain ⟨l, ls, rfl, ho, hos⟩ := List.map_eq_cons_iff.mp h.symm
    cases os with
    | nil =>
      obtain rfl := List.map_eq_nil_iff.mp hos
      simp [Outline.tokensOf, List.intercalate, ho]
    | cons p os =>
      obtain ⟨m, ms, rfl, -⟩ := List.map_eq_cons_iff.mp hos
      rw [List.intersperse_cons_cons, Outline.tokensOf, Outline.tokensOf, ih hos.symm,
        List.intercalate_cons_cons]
      simp [Outline.tokens, ho]

theorem tokensOfLayout_words (op : CompareOp) :
    Outline.tokensOf (op.words.map .token) = tokensOfLayout op.layout := by
  cases op <;> rfl

mutual

/-- The tokens of the outline of an expression are those that are printed. -/
theorem Expr.tokens_outline : (e : Expr) → (e.outline q).tokens = tokensOfLayout (e.layout q)
  | .text value => by rw [outline, layout]; rfl
  | .name id => by rw [outline, layout]; rfl
  | .attribute value attr => by
    rw [outline, layout]
    simp [Outline.tokens, Outline.tokensOf, Outline.tokens_as,
      tokens_enclosed (tokens_outline value), nameOutline]
  | .list elements => by
    rw [outline, layout]
    simp [Outline.tokens, Outline.tokensOf, Outline.tokensOf_append,
      tokensOf_commaOutlines (tokens_outlines elements)]
  | .tuple elements => by
    rw [outline, layout]
    split <;> simp [Outline.tokens, Outline.tokensOf, Outline.tokensOf_append,
      tokensOf_commaOutlines (tokens_outlines elements)]
  | .dict entries => by
    rw [outline, layout]
    simp [Outline.tokens, Outline.tokensOf, Outline.tokensOf_append,
      tokensOf_commaOutlines (tokens_entryOutlines entries)]
  | .call func args keywords => by
    rw [outline, layout]
    have hmap : (outlines q args ++ keywordOutlines q keywords).map Outline.tokens =
        (layouts q args ++ keywordLayouts q keywords).map tokensOfLayout := by
      rw [List.map_append, tokens_outlines args, tokens_keywordOutlines keywords, List.map_append]
    have hitems := tokensOf_commaOutlines hmap
    simp [Outline.tokens, Outline.tokensOf, Outline.tokensOf_append, Outline.tokens_as,
      tokens_enclosed (tokens_outline func), hitems, enclosed]
  | .compare left ops comparators => by
    rw [outline, layout]
    simp [Outline.tokens, Outline.tokensOf, tokens_enclosed (tokens_outline left),
      tokens_comparisonOutlines ops comparators]
  | .other => by rw [outline, layout]; rfl

theorem Expr.tokens_outlines :
    (es : List Expr) → (outlines q es).map Outline.tokens = (layouts q es).map tokensOfLayout
  | [] => by rw [outlines, layouts]; rfl
  | e :: es => by
    rw [outlines, layouts, List.map_cons, List.map_cons, tokens_outline e, tokens_outlines es]

theorem Expr.tokens_entryOutlines : (entries : List Entry) →
    (entryOutlines q entries).map Outline.tokens = (entryLayouts q entries).map tokensOfLayout
  | [] => by rw [entryOutlines, entryLayouts]; rfl
  | .pair key value :: es => by
    rw [entryOutlines, entryLayouts, List.map_cons, List.map_cons, tokens_entryOutlines es]
    simp [Outline.tokens, Outline.tokensOf, Outline.tokens_as, tokens_outline key,
      tokens_outline value]
  | .splat value :: es => by
    rw [entryOutlines, entryLayouts, List.map_cons, List.map_cons, tokens_entryOutlines es]
    simp [Outline.tokens, Outline.tokensOf, tokens_enclosed (tokens_outline value)]

theorem Expr.tokens_keywordOutlines : (keywords : List Keyword) →
    (keywordOutlines q keywords).map Outline.tokens =
      (keywordLayouts q keywords).map tokensOfLayout
  | [] => by rw [keywordOutlines, keywordLayouts]; rfl
  | .named id value :: ks => by
    rw [keywordOutlines, keywordLayouts, List.map_cons, List.map_cons, tokens_keywordOutlines ks]
    simp [Outline.tokens, Outline.tokensOf, Outline.tokens_as, tokens_outline value, nameOutline]
  | .bundle value :: ks => by
    rw [keywordOutlines, keywordLayouts, List.map_cons, List.map_cons, tokens_keywordOutlines ks]
    simp [Outline.tokens, Outline.tokensOf, tokens_enclosed (tokens_outline value)]

theorem Expr.tokens_comparisonOutlines : (ops : List CompareOp) → (es : List Expr) →
    Outline.tokensOf (comparisonOutlines q ops es) = tokensOfLayout (comparisonLayout q ops es)
  | op :: ops, e :: es => by
    rw [comparisonOutlines, comparisonLayout, Outline.tokensOf_append, tokensOfLayout_words,
      Outline.tokensOf, tokens_enclosed (tokens_outline e), tokens_comparisonOutlines ops es]
    simp
  | [], _ => by rw [comparisonOutlines, comparisonLayout] <;> simp [Outline.tokensOf]
  | _ :: _, [] => by rw [comparisonOutlines, comparisonLayout] <;> simp [Outline.tokensOf]

end

mutual

theorem Stmt.tokens_outline (level : Nat) : (s : Stmt) →
    (s.outline q).tokens = (s.lines q level).flatMap fun l => tokensOfLayout l.layout
  | .expr value => by
    rw [outline, lines]
    simp [Outline.tokens, Outline.tokensOf, value.tokens_outline]
  | .assign target value => by
    rw [outline, lines]
    simp [Outline.tokens, Outline.tokensOf, Outline.tokens_as, value.tokens_outline, nameOutline]
  | .branch test body => by
    rw [outline, lines]
    simp [Outline.tokens, Outline.tokensOf, Outline.tokens_as, test.tokens_outline,
      tokens_outlines (level + 1) body]
  | .function name body => by
    rw [outline, lines]
    simp [Outline.tokens, Outline.tokensOf, Outline.tokens_as, nameOutline,
      tokens_outlines (level + 1) body]
  | .other => by rw [outline, lines]; rfl

/-- The tokens of the outlines of statements are those of their lines, in order. -/
theorem Stmt.tokens_outlines (level : Nat) : (ss : List Stmt) →
    Outline.tokensOf (outlines q ss) =
      (blockLines q level ss).flatMap fun l => tokensOfLayout l.layout
  | [] => by rw [outlines, blockLines]; rfl
  | s :: ss => by
    rw [outlines, blockLines, Outline.tokensOf, tokens_outline level s, tokens_outlines level ss,
      List.flatMap_append]

end

end Tokens

/-! ### Nodes with an outline -/

/-- Whether nothing is wrong at a node that is no comment. -/
def Node.isSound (n : Node) : Bool := n.complaint?.isNone && !n.isComment

mutual

/-- Whether a node has an outline, and nothing is wrong at it or below it. The kind of a token is
its text or, where the token is a word of an operator, that operator. -/
def Node.fits (n : Node) : Outline → Bool
  | .token text =>
    n.isSound && !n.isNamed && n.text = text.toList && n.children.isEmpty &&
      (n.kind = text || (CompareOp.ofSpelling? n.kind).isSome) &&
      (n.role? = none || n.role? = some "operators")
  | .leaf role kind text =>
    n.isSound && n.isNamed && n.kind = kind && n.role? = role && n.text = text &&
      n.descendants.all (·.complaint?.isNone)
  | .branch role kind parts =>
    n.isSound && n.isNamed && n.kind = kind && n.role? = role && fitAll n.children parts

/-- Whether nodes have the given outlines, one by one. -/
def Node.fitAll : List Node → List Outline → Bool
  | [], [] => true
  | n :: ns, o :: os => n.fits o && fitAll ns os
  | _, _ => false

end

end Descriptor.Script
