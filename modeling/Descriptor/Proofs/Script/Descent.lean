import Descriptor.Proofs.Script.Provenance
import Descriptor.Script.Lowering

/-!
# From what is read back to the tree

Every part of an expression that a node stands for is what a node of its tree stands for, unless it
is one that has no form; and every statement of a block, at any depth, is what a node of its tree
stands for. So a comparison comes from a node of this kind, and a body from the block of a condition
or a function.

## Main definitions

* `Stmt.exprs`, `Stmt.body?` : the expressions and the body of a statement.
* `Node.HasPart` : an expression is a part of what a node below stands for.
* `Node.Stands` : the statements that a node can stand for.

## Main results

* `Node.exists_of_part` : every part of an expression is what a node of its tree stands for.
* `Node.exists_comparison_of_toExpr` : comparisons come from nodes of this kind.
* `Node.exists_of_contains` : every statement of a block is what a node of its tree stands for.
-/

namespace Descriptor.Script

/-- The expressions that a statement is made of, those of the statements in it left out. -/
def Stmt.exprs : Stmt → List Expr
  | .expr e => [e]
  | .assign _ value => [value]
  | .branch test _ => [test]
  | _ => []

/-- The statements of a condition's first branch or of a function. -/
def Stmt.body? : Stmt → Option (List Stmt)
  | .branch _ body => some body
  | .function _ body => some body
  | _ => none

namespace Node

variable {n : Node}

/-! ### Expressions -/

theorem toField_cases (n : Node) (role : String) :
    n.toField role = .other ∨ ∃ c ∈ n.children, c.toExpr = n.toField role := by
  cases h : n.field? role with
  | none => exact .inl (toField_of_none h)
  | some c => exact .inr ⟨c, mem_of_field? h, (toField_of_field? h).symm⟩

theorem toSole_cases (n : Node) :
    n.toSole = .other ∨ ∃ c ∈ n.children, c.toExpr = n.toSole := by
  rw [toSole, toElements_eq]
  split
  · next inner h =>
    obtain ⟨c, hc, rfl⟩ := List.mem_map.mp (h ▸ List.mem_singleton_self inner)
    exact .inr ⟨c, mem_of_namedChildren hc, rfl⟩
  · exact .inl rfl

/-- A part of an expression that has a form in the tree. -/
def HasPart (n : Node) (part : Expr) : Prop := ∃ m ∈ n.descendants, Part part m.toExpr

theorem HasPart.of_mem {part : Expr} {c : Node} (hc : c ∈ n.children) (h : Part part c.toExpr) :
    n.HasPart part :=
  ⟨c, mem_descendants_of_mem_children hc, h⟩

theorem HasPart.of_child {part : Expr} {c : Node} (hc : c ∈ n.children) (h : c.HasPart part) :
    n.HasPart part := by
  obtain ⟨m, hm, hpart⟩ := h
  exact ⟨m, mem_descendants_trans (mem_descendants_of_mem_children hc)
    (mem_preorder_of_mem_descendants hm), hpart⟩

theorem hasPart_of_cases {part e : Expr} (hother : part ≠ .other)
    (hcases : e = .other ∨ ∃ c ∈ n.children, c.toExpr = e) (h : Part part e) : n.HasPart part := by
  rcases hcases with rfl | ⟨c, hc, rfl⟩
  · cases h
    exact absurd rfl hother
  · exact .of_mem hc h

theorem hasPart_toElements {part e : Expr} (he : e ∈ n.toElements) (h : Part part e) :
    n.HasPart part := by
  rw [toElements_eq] at he
  obtain ⟨c, hc, rfl⟩ := List.mem_map.mp he
  exact .of_mem (mem_of_namedChildren hc) h

/-- An entry that a node stands for is made of expressions of its children. -/
theorem cases_of_toItem? {entry : Entry} (h : n.toItem? = some entry) :
    (∀ k v, entry = .pair k v → k = n.toField "key" ∧ v = n.toField "value") ∧
      ∀ v, entry = .splat v → v = n.toSole := by
  rw [toItem?] at h
  split at h
  · obtain rfl := Option.some.inj h
    simp
  · obtain rfl := Option.some.inj h
    simp
  · cases h

theorem hasPart_of_display {part : Expr} (hother : part ≠ .other)
    (h : Part part (.dict (n.namedChildren.filterMap toItem?))) :
    part = .dict (n.namedChildren.filterMap toItem?) ∨ n.HasPart part := by
  have hfound {entry : Entry} (hmem : entry ∈ n.namedChildren.filterMap toItem?) :
      ∃ c ∈ n.children, c.toItem? = some entry := by
    obtain ⟨c, hc, hentry⟩ := List.mem_filterMap.mp hmem
    exact ⟨c, mem_of_namedChildren hc, hentry⟩
  cases h with
  | self => exact .inl rfl
  | key hmem h =>
    obtain ⟨c, hc, hentry⟩ := hfound hmem
    obtain ⟨rfl, -⟩ := (cases_of_toItem? hentry).1 _ _ rfl
    exact .inr (.of_child hc (hasPart_of_cases hother (c.toField_cases "key") h))
  | entry hmem h =>
    obtain ⟨c, hc, hentry⟩ := hfound hmem
    obtain ⟨-, rfl⟩ := (cases_of_toItem? hentry).1 _ _ rfl
    exact .inr (.of_child hc (hasPart_of_cases hother (c.toField_cases "value") h))
  | splat hmem h =>
    obtain ⟨c, hc, hentry⟩ := hfound hmem
    obtain rfl := (cases_of_toItem? hentry).2 _ rfl
    exact .inr (.of_child hc (hasPart_of_cases hother c.toSole_cases h))

/-- A keyword argument that a node stands for is made of expressions of its children. -/
theorem cases_of_toKeyword? {keyword : Keyword} (h : n.toKeyword? = some keyword) :
    (∀ id v, keyword = .named id v → v = n.toField "value") ∧
      ∀ v, keyword = .bundle v → v = n.toSole := by
  rw [toKeyword?] at h
  split at h
  · split at h
    · obtain rfl := Option.some.inj h
      simp
    · cases h
  · obtain rfl := Option.some.inj h
    simp
  · cases h

theorem toArgument?_eq_some {e : Expr} (h : n.toArgument? = some e) : n.toExpr = e := by
  rw [toArgument?] at h
  split at h
  · cases h
  · cases h
  · exact Option.some.inj h

theorem hasPart_of_call {part : Expr} (hother : part ≠ .other) (h : Part part n.toCall) :
    part = n.toCall ∨ n.HasPart part := by
  have hfunction (h : Part part (n.toField "function")) : n.HasPart part :=
    hasPart_of_cases hother (n.toField_cases "function") h
  have heq := n.toCall_eq
  split at heq
  · rw [heq] at h ⊢
    exact .inl (by cases h; rfl)
  · rw [heq] at h ⊢
    cases h with
    | self => exact .inl rfl
    | callee _ _ h => exact .inr (hfunction h)
    | argument _ _ hmem | keyword _ _ hmem | bundle _ _ hmem => cases hmem
  · next arguments _ harguments =>
    have hchild := mem_of_field? harguments
    split_ifs at heq
    · rw [heq] at h ⊢
      cases h with
      | self => exact .inl rfl
      | callee _ _ h => exact .inr (hfunction h)
      | argument _ _ hmem h =>
        obtain ⟨c, hc, hargument⟩ := List.mem_filterMap.mp hmem
        exact .inr (.of_child hchild
          (.of_mem (mem_of_namedChildren hc) (toArgument?_eq_some hargument ▸ h)))
      | keyword _ _ hmem h =>
        obtain ⟨c, hc, hkeyword⟩ := List.mem_filterMap.mp hmem
        obtain rfl := (cases_of_toKeyword? hkeyword).1 _ _ rfl
        exact .inr (.of_child hchild (.of_child (mem_of_namedChildren hc)
          (hasPart_of_cases hother (c.toField_cases "value") h)))
      | bundle _ _ hmem h =>
        obtain ⟨c, hc, hkeyword⟩ := List.mem_filterMap.mp hmem
        obtain rfl := (cases_of_toKeyword? hkeyword).2 _ rfl
        exact .inr (.of_child hchild (.of_child (mem_of_namedChildren hc)
          (hasPart_of_cases hother c.toSole_cases h)))
    · rw [heq] at h ⊢
      cases h with
      | self => exact .inl rfl
      | callee _ _ h => exact .inr (hfunction h)
      | argument _ _ hmem h =>
        obtain rfl := List.mem_singleton.mp hmem
        cases h
        exact absurd rfl hother
      | keyword _ _ hmem | bundle _ _ hmem => cases hmem

theorem hasPart_of_comparison {part : Expr} (hother : part ≠ .other)
    (h : Part part n.toComparison) : part = n.toComparison ∨ n.HasPart part := by
  have heq := n.toComparison_eq
  split at heq
  · next ops left comparators hoperands =>
    have hsubset := subset_of_operands? hoperands
    rw [heq] at h ⊢
    cases h with
    | self => exact .inl rfl
    | left _ _ h => exact .inr (.of_mem (hsubset List.mem_cons_self) h)
    | comparator _ _ hmem h =>
      obtain ⟨c, hc, rfl⟩ := List.mem_map.mp hmem
      exact .inr (.of_mem (hsubset (List.mem_cons_of_mem left hc)) h)
  · rw [heq] at h ⊢
    exact .inl (by cases h; rfl)

/-- A part of a list is the list, or a part of the expression of a node below. -/
theorem hasPart_of_list {part : Expr} (h : Part part (.list n.toElements)) :
    part = .list n.toElements ∨ n.HasPart part := by
  cases h with
  | self => exact .inl rfl
  | listed hmem h => exact .inr (hasPart_toElements hmem h)

theorem hasPart_of_tuple {part : Expr} (h : Part part (.tuple n.toElements)) :
    part = .tuple n.toElements ∨ n.HasPart part := by
  cases h with
  | self => exact .inl rfl
  | tupled hmem h => exact .inr (hasPart_toElements hmem h)

/-- A part of the expression of a node is that expression, or a part of the expression of a node
below. -/
theorem eq_or_hasPart {part : Expr} (hother : part ≠ .other) (h : Part part n.toExpr) :
    part = n.toExpr ∨ n.HasPart part := by
  have heq := toExpr.eq_def n
  -- The cases are those of the kinds, in their order.
  split at heq
  · rw [heq] at h ⊢
    exact .inl (by cases h; rfl)
  · cases hliteral : n.literal? <;> rw [heq, hliteral] at h ⊢ <;> exact .inl (by cases h; rfl)
  · split at heq <;> rw [heq] at h ⊢ <;> exact .inl (by cases h; rfl)
  · rw [heq] at h ⊢
    exact hasPart_of_list h
  · rw [heq] at h ⊢
    exact hasPart_of_tuple h
  · rw [heq] at h ⊢
    exact hasPart_of_tuple h
  · rw [heq] at h
    exact .inr (hasPart_of_cases hother n.toSole_cases h)
  · next hkind =>
    rw [toExpr_dictionary hkind] at h ⊢
    exact hasPart_of_display hother h
  · rw [heq] at h ⊢
    exact hasPart_of_call hother h
  · split at heq <;> rw [heq] at h ⊢
    · cases h with
      | self => exact .inl rfl
      | object _ h => exact .inr (hasPart_of_cases hother (n.toField_cases "object") h)
    · exact .inl (by cases h; rfl)
  · rw [heq] at h ⊢
    exact hasPart_of_comparison hother h
  · rw [heq] at h ⊢
    exact .inl (by cases h; rfl)

/-- Every part of the expression of a node, if the tree has a form for it, is the expression of a
node of its tree. -/
theorem exists_of_part {part : Expr} (hother : part ≠ .other) (h : Part part n.toExpr) :
    ∃ m ∈ n.preorder, m.toExpr = part := by
  induction n using Node.strongInduction with
  | step n ih =>
    rcases eq_or_hasPart hother h with rfl | ⟨m, hm, hpart⟩
    · exact ⟨n, n.mem_preorder_self, rfl⟩
    · obtain ⟨k, hk, rfl⟩ := ih m hm hpart
      exact ⟨k, mem_preorder_of_mem_descendants (mem_descendants_trans hm hk), rfl⟩

/-- A comparison is that of a node of this kind. -/
theorem exists_comparison_of_toExpr {left : Expr} {ops : List CompareOp} {comparators : List Expr}
    (h : n.toExpr = .compare left ops comparators) :
    ∃ m ∈ n.preorder, m.kind = "comparison_operator" ∧
      m.toComparison = .compare left ops comparators := by
  induction n using Node.induction with
  | step n ih =>
    have heq := toExpr.eq_def n
    rw [h] at heq
    split at heq
    · cases heq
    · cases hliteral : n.literal? <;> rw [hliteral] at heq <;> cases heq
    · split at heq <;> cases heq
    · cases heq
    · cases heq
    · cases heq
    · rcases n.toSole_cases with hsole | ⟨c, hc, hsole⟩
      · rw [hsole] at heq
        cases heq
      · obtain ⟨m, hm, hcomparison⟩ := ih c hc (hsole.trans heq.symm)
        exact ⟨m, mem_preorder_of_mem_descendants (mem_descendants.mpr ⟨c, hc, hm⟩), hcomparison⟩
    · cases heq
    · rw [toCall_eq] at heq
      split at heq
      · cases heq
      · cases heq
      · split at heq <;> cases heq
    · split at heq <;> cases heq
    · next hkind => exact ⟨n, n.mem_preorder_self, hkind, heq.symm⟩
    · cases heq

/-! ### Statements -/

theorem toBody_cases (n : Node) (role : String) :
    n.toBody role = [] ∨ ∃ c ∈ n.children, c.toBlock = n.toBody role := by
  cases h : n.field? role with
  | none => exact .inl (toBody_of_none h)
  | some c => exact .inr ⟨c, mem_of_field? h, (toBody_of_field? h).symm⟩

/-- A definition is that of a function with the statements of its block, or has no form. -/
theorem toFunction_cases (n : Node) :
    n.toFunction = .other ∨ ∃ name, n.toFunction = .function name (n.toBody "body") := by
  rw [toFunction]
  split
  · exact .inl rfl
  · split
    · next name _ => exact .inr ⟨name.string, rfl⟩
    · exact .inl rfl

theorem toDecorated_cases (n : Node) :
    n.toDecorated = .other ∨ ∃ c ∈ n.children, c.kind = "function_definition" ∧
      c.toFunction = n.toDecorated := by
  cases h : n.field? "definition" with
  | none => exact .inl (toDecorated_of_none h)
  | some c =>
    rw [toDecorated_of_field? h]
    split
    · next hkind => exact .inr ⟨c, mem_of_field? h, hkind, rfl⟩
    · exact .inl rfl

theorem toAssignment_cases (n : Node) :
    n.toAssignment = .other ∨ ∃ target, ∃ c ∈ n.children,
      n.toAssignment = .assign target c.toExpr := by
  rw [toAssignment]
  split
  · exact .inl rfl
  · split
    · next left right _ hright =>
      split
      · exact .inl rfl
      · exact .inr ⟨left.string, right, mem_of_field? hright, rfl⟩
    · exact .inl rfl

theorem toExpressionStatement_cases (n : Node) :
    n.toExpressionStatement = .other ∨ ∃ m ∈ n.descendants,
      n.toExpressionStatement = .expr m.toExpr ∨
        ∃ target, n.toExpressionStatement = .assign target m.toExpr := by
  rw [toExpressionStatement]
  split
  · next only honly =>
    have hmem : only ∈ n.children :=
      mem_of_namedChildren (honly ▸ List.mem_singleton_self only)
    split
    · rcases only.toAssignment_cases with h | ⟨target, c, hc, h⟩
      · exact .inl h
      · exact .inr ⟨c, mem_descendants_of_mem_children_of_mem
          (mem_descendants_of_mem_children hmem) hc, .inr ⟨target, h⟩⟩
    · split
      · exact .inl rfl
      · exact .inr ⟨only, mem_descendants_of_mem_children hmem, .inl rfl⟩
  · exact .inl rfl

/-- What a node can stand for as a statement, with where its expressions and its body come from. -/
inductive Stands (n : Node) : Stmt → Prop
  | other : n.Stands .other
  | expr {m : Node} (hm : m ∈ n.descendants) : n.Stands (.expr m.toExpr)
  | assign {m : Node} (target : String) (hm : m ∈ n.descendants) :
      n.Stands (.assign target m.toExpr)
  | branch (hkind : n.kind = "if_statement") :
      n.Stands (.branch (n.toField "condition") (n.toBody "consequence"))
  | function {m : Node} (name : String) (hm : m ∈ n.preorder)
      (hkind : m.kind = "function_definition") : n.Stands (.function name (m.toBody "body"))

theorem stands_toStmt (n : Node) : n.Stands n.toStmt := by
  rw [toStmt]
  split
  · rcases n.toExpressionStatement_cases with h | ⟨m, hm, h | ⟨target, h⟩⟩ <;> rw [h]
    · exact .other
    · exact .expr hm
    · exact .assign target hm
  · next hkind => exact .branch hkind
  · next hkind =>
    rcases n.toFunction_cases with h | ⟨name, h⟩ <;> rw [h]
    · exact .other
    · exact .function name n.mem_preorder_self hkind
  · rcases n.toDecorated_cases with h | ⟨c, hc, hkind, h⟩
    · rw [h]
      exact .other
    · rw [← h]
      rcases c.toFunction_cases with h | ⟨name, h⟩ <;> rw [h]
      · exact .other
      · exact .function name (mem_preorder_of_mem_descendants (mem_descendants_of_mem_children hc))
          hkind
  · exact .other

/-- An expression of a statement is that of a node of its tree, unless the tree has no form for
it. -/
theorem Stands.exists_of_mem_exprs {s : Stmt} {e : Expr} (h : n.Stands s) (he : e ∈ s.exprs) :
    e = .other ∨ ∃ m ∈ n.descendants, m.toExpr = e := by
  cases h with
  | other => cases he
  | expr hm | assign _ hm => exact .inr ⟨_, hm, (List.mem_singleton.mp he).symm⟩
  | branch =>
    rw [List.mem_singleton.mp he]
    rcases n.toField_cases "condition" with hother | ⟨c, hc, hcondition⟩
    · exact .inl hother
    · exact .inr ⟨c, mem_descendants_of_mem_children hc, hcondition⟩
  | function => cases he

/-- The body of a statement is that of a condition or a function in its tree. -/
theorem Stands.exists_of_body? {s : Stmt} {body : List Stmt} (h : n.Stands s)
    (hbody : s.body? = some body) : ∃ m ∈ n.preorder,
      m.kind = "if_statement" ∧ m.toBody "consequence" = body ∨
        m.kind = "function_definition" ∧ m.toBody "body" = body := by
  cases h with
  | other | expr | assign => cases hbody
  | branch hkind => exact ⟨n, n.mem_preorder_self, .inl ⟨hkind, Option.some.inj hbody⟩⟩
  | @function m _ hm hkind => exact ⟨m, hm, .inr ⟨hkind, Option.some.inj hbody⟩⟩

/-- The body of a statement of a block is the block of a node below, or empty. -/
theorem eq_nil_or_exists_toBlock {s : Stmt} {body : List Stmt} (hs : s ∈ n.toBlock)
    (hbody : s.body? = some body) : body = [] ∨ ∃ m ∈ n.descendants, m.toBlock = body := by
  have hrole {m : Node} (hm : m ∈ n.descendants) {role : String} (h : m.toBody role = body) :
      body = [] ∨ ∃ m ∈ n.descendants, m.toBlock = body := by
    rcases m.toBody_cases role with hnil | ⟨c, hc, hblock⟩
    · exact .inl (h.symm.trans hnil)
    · exact .inr ⟨c, mem_descendants_of_mem_children_of_mem hm hc, hblock.trans h⟩
  rw [toBlock_eq] at hs
  obtain ⟨c, hc, rfl⟩ := List.mem_map.mp hs
  have hbelow := mem_descendants_of_mem_children (mem_of_namedChildren hc)
  obtain ⟨m, hm, ⟨-, h⟩ | ⟨-, h⟩⟩ := c.stands_toStmt.exists_of_body? hbody
  · exact hrole (mem_descendants_trans hbelow hm) h
  · exact hrole (mem_descendants_trans hbelow hm) h

/-- Every statement of a block, at any depth, is the statement of a node of its tree. -/
theorem exists_of_contains {block : List Stmt} {s : Stmt} (h : Contains block s)
    (hblock : n.toBlock = block) : ∃ m ∈ n.descendants, m.toStmt = s := by
  induction h generalizing n with
  | self hmem =>
    rw [← hblock, toBlock_eq] at hmem
    obtain ⟨c, hc, rfl⟩ := List.mem_map.mp hmem
    exact ⟨c, mem_descendants_of_mem_children (mem_of_namedChildren hc), rfl⟩
  | branch hmem h ih | function hmem h ih =>
    rcases eq_nil_or_exists_toBlock (hblock ▸ hmem) rfl with rfl | ⟨m, hm, hbody⟩
    · cases h <;> contradiction
    · obtain ⟨k, hk, hstmt⟩ := ih hbody
      exact ⟨k, mem_descendants_trans hm (mem_preorder_of_mem_descendants hk), hstmt⟩

end Node

end Descriptor.Script
