import Descriptor.Script.Literal
import Descriptor.Script.Node
import Descriptor.Script.Tree
import Descriptor.Text.Blank

/-!
# From syntax trees to statements

What the nodes of a syntax tree stand for. The kind of a node decides which of its children are
looked at, by their roles or in their order; comments and tokens are passed over, apart from the
tokens that spell the operators of a comparison. A node that the tree of statements and expressions
has no form for stands for `other`.

## Main definitions

* `Node.toExpr` : the expression that a node stands for.
* `Node.operands?` : the operators and operands of a comparison, told apart.
* `Node.toItem?`, `Node.toArgument?`, `Node.toKeyword?` : entries of mapping displays, arguments.
* `Node.toStmt`, `Node.toBlock` : statements and the statements of a block.
-/

namespace Descriptor.Script

namespace Node

/-! ### Expressions -/

/-- The text that a node stands for, if it is a literal of text. -/
def literal? (n : Node) : Option String :=
  if n.kind = "string" then (decodeLiteral n.text).map String.ofList else none

/-- The operator that tokens spell, their words being joined by single spaces. -/
def operatorOf? (tokens : List (List Char)) : Option CompareOp :=
  CompareOp.ofSpelling? (String.ofList ([' '].intercalate (tokens.flatMap Text.words)))

/-- The operators and operands among the children of a comparison, unless the tokens between two
operands spell no operator. The tokens that no operand has followed yet are `pending`; the first
operand (`seen` being false before it) takes none of them. -/
def operands? (seen : Bool) (pending : List (List Char)) :
    List Node → Option (List CompareOp × List Node)
  | [] => some ([], [])
  | c :: cs =>
    if c.isComment then operands? seen pending cs
    else if !c.isNamed then operands? seen (pending ++ [c.text]) cs
    else if seen then
      (operatorOf? pending).bind fun op =>
        (operands? true [] cs).map fun (ops, operands) => (op :: ops, c :: operands)
    else (operands? true pending cs).map fun (ops, operands) => (ops, c :: operands)

theorem subset_of_operands? {seen : Bool} {pending : List (List Char)} {cs operands : List Node}
    {ops : List CompareOp} (h : operands? seen pending cs = some (ops, operands)) :
    operands ⊆ cs := by
  induction cs generalizing seen pending ops operands with
  | nil => simp_all [operands?]
  | cons c cs ih =>
    rw [operands?] at h
    split at h
    · exact List.subset_cons_of_subset c (ih h)
    split at h
    · exact List.subset_cons_of_subset c (ih h)
    split at h
    · obtain ⟨op, -, hmore⟩ := Option.bind_eq_some_iff.mp h
      obtain ⟨_, hrest, ⟨⟩⟩ := Option.map_eq_some_iff.mp hmore
      exact List.cons_subset_cons c (ih hrest)
    · obtain ⟨_, hrest, ⟨⟩⟩ := Option.map_eq_some_iff.mp h
      exact List.cons_subset_cons c (ih hrest)

/-! Each function below is called with the node itself only by those of a higher rank, which is the
second component of the measure. -/

mutual

/-- The expression that a node stands for. -/
def toExpr (n : Node) : Expr :=
  match n.kind with
  | "identifier" => .name n.string
  | "string" => (n.literal?.map .text).getD .other
  | "concatenated_string" =>
    match n.namedChildren.mapM literal? with
    | some parts => .text (String.join parts)
    | none => .other
  | "list" => .list n.toElements
  | "tuple" => .tuple n.toElements
  | "expression_list" => .tuple n.toElements
  | "parenthesized_expression" => n.toSole
  | "dictionary" => .dict (n.namedChildren.attach.filterMap fun c => c.1.toItem?)
  | "call" => n.toCall
  | "attribute" =>
    match n.field? "object", n.field? "attribute" with
    | some _, some attr => .attribute (n.toField "object") attr.string
    | _, _ => .other
  | "comparison_operator" => n.toComparison
  | _ => .other
termination_by (sizeOf n, 2)
decreasing_by
  all_goals first
    | exact .right _ (by decide)
    | exact .left _ _ (sizeOf_namedChildren c.2)

/-- The expressions that the children of a node stand for. -/
def toElements (n : Node) : List Expr := n.namedChildren.attach.map fun c => c.1.toExpr
termination_by (sizeOf n, 0)
decreasing_by exact .left _ _ (sizeOf_namedChildren c.2)

/-- The expression that the only child of a node stands for. -/
def toSole (n : Node) : Expr :=
  match n.toElements with
  | [inner] => inner
  | _ => .other
termination_by (sizeOf n, 1)
decreasing_by exact .right _ (by decide)

/-- The expression that the child in a role stands for. -/
def toField (n : Node) (role : String) : Expr :=
  match _h : n.field? role with
  | some c => c.toExpr
  | none => .other
termination_by (sizeOf n, 0)
decreasing_by exact .left _ _ (sizeOf_field? _h)

/-- The entry of a mapping display that a node stands for. -/
def toItem? (n : Node) : Option Entry :=
  match n.kind with
  | "pair" => some (.pair (n.toField "key") (n.toField "value"))
  | "dictionary_splat" => some (.splat n.toSole)
  | _ => none
termination_by (sizeOf n, 2)
decreasing_by all_goals exact .right _ (by decide)

/-- The argument by position that a node stands for. -/
def toArgument? (n : Node) : Option Expr :=
  match n.kind with
  | "keyword_argument" => none
  | "dictionary_splat" => none
  | _ => some n.toExpr
termination_by (sizeOf n, 3)
decreasing_by exact .right _ (by decide)

/-- The keyword argument that a node stands for. -/
def toKeyword? (n : Node) : Option Keyword :=
  match n.kind with
  | "keyword_argument" =>
    match n.field? "name", n.field? "value" with
    | some name, some _ => some (.named name.string (n.toField "value"))
    | _, _ => none
  | "dictionary_splat" => some (.bundle n.toSole)
  | _ => none
termination_by (sizeOf n, 2)
decreasing_by all_goals exact .right _ (by decide)

/-- The call that a node stands for. Where the arguments are no list of arguments, they are one
argument that the tree has no form for. -/
def toCall (n : Node) : Expr :=
  match n.field? "function", _h : n.field? "arguments" with
  | none, _ => .other
  | some _, none => .call (n.toField "function") [] []
  | some _, some arguments =>
    if arguments.kind = "argument_list" then
      .call (n.toField "function")
        (arguments.namedChildren.attach.filterMap fun c => c.1.toArgument?)
        (arguments.namedChildren.attach.filterMap fun c => c.1.toKeyword?)
    else .call (n.toField "function") [.other] []
termination_by (sizeOf n, 1)
decreasing_by
  all_goals first
    | exact .right _ (by decide)
    | exact .left _ _ (Nat.lt_trans (sizeOf_namedChildren c.2) (sizeOf_field? _h))

/-- The comparison that a node stands for. -/
def toComparison (n : Node) : Expr :=
  match _h : operands? false [] n.children with
  | some (ops, left :: comparators) =>
    .compare left.toExpr ops (comparators.attach.map fun c => c.1.toExpr)
  | _ => .other
termination_by (sizeOf n, 0)
decreasing_by
  · exact .left _ _ (sizeOf_lt_of_mem (subset_of_operands? _h List.mem_cons_self))
  · exact .left _ _ (sizeOf_lt_of_mem (subset_of_operands? _h (List.mem_cons_of_mem left c.2)))

end

section Equations

variable {n : Node}

theorem toElements_eq : n.toElements = n.namedChildren.map toExpr := by
  rw [toElements]
  simp

theorem toField_of_field? {c : Node} {role : String} (h : n.field? role = some c) :
    n.toField role = c.toExpr := by
  rw [toField]
  split <;> simp_all

theorem toField_of_none {role : String} (h : n.field? role = none) : n.toField role = .other := by
  rw [toField]
  split <;> simp_all

theorem toExpr_dictionary (h : n.kind = "dictionary") :
    n.toExpr = .dict (n.namedChildren.filterMap toItem?) := by
  rw [toExpr, h]
  simp

theorem toExpr_call (h : n.kind = "call") : n.toExpr = n.toCall := by
  simp [toExpr, h]

theorem toExpr_comparison (h : n.kind = "comparison_operator") : n.toExpr = n.toComparison := by
  simp [toExpr, h]

theorem toArgument?_of_kind (hnamed : n.kind ≠ "keyword_argument")
    (hbundle : n.kind ≠ "dictionary_splat") : n.toArgument? = some n.toExpr := by
  rw [toArgument?]
  split <;> simp_all

theorem toKeyword?_of_kind (hnamed : n.kind ≠ "keyword_argument")
    (hbundle : n.kind ≠ "dictionary_splat") : n.toKeyword? = none := by
  rw [toKeyword?]
  split <;> simp_all

theorem toCall_eq : n.toCall =
    match n.field? "function", n.field? "arguments" with
    | none, _ => .other
    | some _, none => .call (n.toField "function") [] []
    | some _, some arguments =>
      if arguments.kind = "argument_list" then
        .call (n.toField "function") (arguments.namedChildren.filterMap toArgument?)
          (arguments.namedChildren.filterMap toKeyword?)
      else .call (n.toField "function") [.other] [] := by
  rw [toCall]
  split <;> simp_all

theorem toComparison_eq : n.toComparison =
    match operands? false [] n.children with
    | some (ops, left :: comparators) => .compare left.toExpr ops (comparators.map toExpr)
    | _ => .other := by
  rw [toComparison]
  split <;> simp_all

theorem exists_operands?_of_toComparison {left : Expr} {ops : List CompareOp}
    {comparators : List Expr} (h : n.toComparison = .compare left ops comparators) :
    ∃ first others, operands? false [] n.children = some (ops, first :: others) ∧
      first.toExpr = left ∧ others.map toExpr = comparators := by
  rw [toComparison_eq] at h
  split at h
  · next ops first others hoperands =>
    obtain ⟨rfl, rfl, rfl⟩ := Expr.compare.inj h
    exact ⟨first, others, hoperands, rfl, rfl⟩
  · cases h

end Equations

/-! ### Statements -/

/-- The assignment that a node stands for. One to several targets, to a target that is no name, or
with a type stands for `other`. -/
def toAssignment (n : Node) : Stmt :=
  if (n.field? "type").isSome then .other
  else
    match n.field? "left", n.field? "right" with
    | some left, some right =>
      if left.kind ≠ "identifier" || right.kind = "assignment" then .other
      else .assign left.string right.toExpr
    | _, _ => .other

/-- The statement that a node stands for that consists of expressions or an assignment. -/
def toExpressionStatement (n : Node) : Stmt :=
  match n.namedChildren with
  | [only] =>
    if only.kind = "assignment" then only.toAssignment
    else if only.kind = "augmented_assignment" then .other
    else .expr only.toExpr
  | _ => .other

mutual

/-- The statement that a node stands for. -/
def toStmt (n : Node) : Stmt :=
  match n.kind with
  | "expression_statement" => n.toExpressionStatement
  | "if_statement" => .branch (n.toField "condition") (n.toBody "consequence")
  | "function_definition" => n.toFunction
  | "decorated_definition" => n.toDecorated
  | _ => .other
termination_by (sizeOf n, 2)
decreasing_by all_goals exact .right _ (by decide)

/-- The statements that the children of a node stand for. -/
def toBlock (n : Node) : List Stmt := n.namedChildren.attach.map fun c => c.1.toStmt
termination_by (sizeOf n, 0)
decreasing_by exact .left _ _ (sizeOf_namedChildren c.2)

/-- The statements of the block in a role. -/
def toBody (n : Node) (role : String) : List Stmt :=
  match _h : n.field? role with
  | some block => block.toBlock
  | none => []
termination_by (sizeOf n, 0)
decreasing_by exact .left _ _ (sizeOf_field? _h)

/-- The definition of a function under decorators. -/
def toDecorated (n : Node) : Stmt :=
  match _h : n.field? "definition" with
  | some definition =>
    if definition.kind = "function_definition" then definition.toFunction else .other
  | none => .other
termination_by (sizeOf n, 1)
decreasing_by exact .left _ _ (sizeOf_field? _h)

/-- The definition that a node stands for, unless it is that of an asynchronous function. -/
def toFunction (n : Node) : Stmt :=
  if n.children.head?.any (·.kind = "async") then .other
  else
    match n.field? "name" with
    | some name => .function name.string (n.toBody "body")
    | none => .other
termination_by (sizeOf n, 1)
decreasing_by exact .right _ (by decide)

end

theorem toBlock_eq (n : Node) : n.toBlock = n.namedChildren.map toStmt := by
  rw [toBlock]
  simp

theorem toDecorated_of_field? {n c : Node} (h : n.field? "definition" = some c) :
    n.toDecorated = if c.kind = "function_definition" then c.toFunction else .other := by
  rw [toDecorated]
  split <;> simp_all

theorem toDecorated_of_none {n : Node} (h : n.field? "definition" = none) :
    n.toDecorated = .other := by
  rw [toDecorated]
  split <;> simp_all

theorem toBody_of_field? {n block : Node} {role : String} (h : n.field? role = some block) :
    n.toBody role = block.toBlock := by
  rw [toBody]
  split <;> simp_all

theorem toBody_of_none {n : Node} {role : String} (h : n.field? role = none) :
    n.toBody role = [] := by
  rw [toBody]
  split <;> simp_all

end Node

end Descriptor.Script
