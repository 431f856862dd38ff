import Descriptor.Proofs.Script.Comparison
import Mathlib.Data.List.Basic
import Mathlib.Data.List.Find
import Mathlib.Tactic.MkIffOfInductiveProp

/-!
# Comments

A tree stands for the same statements without its comments: none of them is taken for a statement,
an element, an entry, an argument or an operand, and none stands between the parts of a node in a
way that would keep them from being found.

## Main definitions

* `Node.withoutComments` : a tree without its comments.
* `Node.IsTidy` : no comment has a role, and none is in the place of a function's first token.

## Main results

* `Node.toExpr_withoutComments`, `Node.toStmt_withoutComments`, `Node.toBlock_withoutComments` :
  what a tree stands for does not depend on its comments.
-/

namespace Descriptor.Script

namespace Node

/-- A tree without its comments. -/
def withoutComments (n : Node) : Node :=
  { n with
    children := (n.children.attach.map fun c => c.1.withoutComments).filter (!·.isComment) }
termination_by sizeOf n
decreasing_by exact sizeOf_lt_of_mem c.2

/-- No comment below a node has a role in it. Where a definition may be marked by its first token,
no comment is before it. -/
@[mk_iff]
structure IsTidy (n : Node) : Prop where
  noRole : ∀ c ∈ n.children, c.isComment = true → c.role? = none
  notFirst : n.kind = "function_definition" → ∀ c ∈ n.children.head?, c.isComment = false

instance (n : Node) : Decidable n.IsTidy := decidable_of_iff' _ (isTidy_iff n)

variable {n : Node}

section Fields

variable (n)

theorem withoutComments_eq : n.withoutComments =
    { n with children := (n.children.map withoutComments).filter (!·.isComment) } := by
  rw [withoutComments]
  simp

@[simp]
theorem kind_withoutComments : n.withoutComments.kind = n.kind := by rw [withoutComments_eq]

@[simp]
theorem isNamed_withoutComments : n.withoutComments.isNamed = n.isNamed := by
  rw [withoutComments_eq]

@[simp]
theorem role?_withoutComments : n.withoutComments.role? = n.role? := by rw [withoutComments_eq]

@[simp]
theorem text_withoutComments : n.withoutComments.text = n.text := by rw [withoutComments_eq]

@[simp]
theorem isComment_withoutComments : n.withoutComments.isComment = n.isComment := by
  simp [isComment]

@[simp]
theorem string_withoutComments : n.withoutComments.string = n.string := by simp [string]

@[simp]
theorem literal?_withoutComments : n.withoutComments.literal? = n.literal? := by simp [literal?]

theorem children_withoutComments :
    n.withoutComments.children = (n.children.filter (!·.isComment)).map withoutComments := by
  rw [withoutComments_eq]
  exact List.filter_map.trans (by simp [Function.comp_def])

theorem namedChildren_withoutComments :
    n.withoutComments.namedChildren = n.namedChildren.map withoutComments := by
  rw [namedChildren, namedChildren, children_withoutComments, List.filter_map, List.filter_filter]
  congr 1
  exact List.filter_congr fun c _ => by simp

end Fields

/-- What plays a role is still found. -/
theorem IsTidy.field?_withoutComments (h : n.IsTidy) (role : String) :
    n.withoutComments.field? role = (n.field? role).map withoutComments := by
  rw [field?, field?, children_withoutComments, List.find?_map, List.find?_filter]
  refine congrArg (Option.map withoutComments) (List.find?_congr fun c hc => ?_)
  have hrole := h.noRole c hc
  cases hcomment : c.isComment <;> simp_all

/-! ### Expressions -/

/-- What is to be shown of an expression. -/
abbrev KeepsExpr (n : Node) : Prop := n.withoutComments.toExpr = n.toExpr

theorem IsTidy.toField_withoutComments (h : n.IsTidy) (role : String)
    (hkeeps : ∀ c ∈ n.children, c.KeepsExpr) :
    n.withoutComments.toField role = n.toField role := by
  have hfield := h.field?_withoutComments role
  cases hrole : n.field? role with
  | none =>
    rw [hrole] at hfield
    rw [toField_of_none hrole, toField_of_none hfield]
  | some c =>
    rw [hrole] at hfield
    rw [toField_of_field? hrole, toField_of_field? hfield, hkeeps c (mem_of_field? hrole)]

theorem toElements_withoutComments (hkeeps : ∀ c ∈ n.children, c.KeepsExpr) :
    n.withoutComments.toElements = n.toElements := by
  rw [toElements_eq, toElements_eq, namedChildren_withoutComments, List.map_map]
  exact List.map_congr_left fun c hc => hkeeps c (mem_of_namedChildren hc)

theorem toSole_withoutComments (hkeeps : ∀ c ∈ n.children, c.KeepsExpr) :
    n.withoutComments.toSole = n.toSole := by
  rw [toSole, toSole, toElements_withoutComments hkeeps]

theorem IsTidy.toItem?_withoutComments (h : n.IsTidy) (hkeeps : ∀ c ∈ n.children, c.KeepsExpr) :
    n.withoutComments.toItem? = n.toItem? := by
  rw [toItem?, toItem?, kind_withoutComments, h.toField_withoutComments _ hkeeps,
    h.toField_withoutComments _ hkeeps, toSole_withoutComments hkeeps]

theorem IsTidy.toKeyword?_withoutComments (h : n.IsTidy)
    (hkeeps : ∀ c ∈ n.children, c.KeepsExpr) :
    n.withoutComments.toKeyword? = n.toKeyword? := by
  rw [toKeyword?, toKeyword?, kind_withoutComments, h.toField_withoutComments _ hkeeps,
    toSole_withoutComments hkeeps, h.field?_withoutComments, h.field?_withoutComments]
  cases n.field? "name" <;> cases n.field? "value" <;> simp

theorem toArgument?_withoutComments (hkeeps : n.KeepsExpr) :
    n.withoutComments.toArgument? = n.toArgument? := by
  rw [toArgument?, toArgument?, kind_withoutComments, hkeeps]

theorem operands?_map_withoutComments (seen : Bool) (pending : List (List Char))
    (cs : List Node) : operands? seen pending (cs.map withoutComments) =
      (operands? seen pending cs).map fun found => (found.1, found.2.map withoutComments) := by
  induction cs generalizing seen pending with
  | nil => rfl
  | cons c cs ih =>
    simp only [List.map_cons, operands?, isComment_withoutComments, isNamed_withoutComments,
      text_withoutComments, ih]
    split_ifs
    · rfl
    · rfl
    · cases operatorOf? pending <;> simp [Function.comp_def]
    · simp [Function.comp_def]

/-- The operators and operands of a comparison are found without its comments. -/
theorem toComparison_withoutComments (hkeeps : ∀ c ∈ n.children, c.KeepsExpr) :
    n.withoutComments.toComparison = n.toComparison := by
  rw [toComparison_eq, toComparison_eq, children_withoutComments, operands?_map_withoutComments,
    operands?_filter]
  rcases hfound : operands? false [] n.children with _ | ⟨ops, _ | ⟨left, comparators⟩⟩
  · rfl
  · rfl
  · have hsubset := subset_of_operands? hfound
    have hcomparators : (comparators.map withoutComments).map toExpr = comparators.map toExpr := by
      rw [List.map_map]
      exact List.map_congr_left fun c hc => hkeeps c (hsubset (List.mem_cons_of_mem left hc))
    simp only [Option.map_some, List.map_cons, hcomparators,
      show left.withoutComments.toExpr = left.toExpr from hkeeps left (hsubset List.mem_cons_self)]

/-- A list of arguments is the same without its comments. -/
theorem filterMap_withoutComments {α : Type} {f : Node → Option α}
    (hf : ∀ c ∈ n.children, f c.withoutComments = f c) :
    n.withoutComments.namedChildren.filterMap f = n.namedChildren.filterMap f := by
  rw [namedChildren_withoutComments, List.filterMap_map]
  exact List.filterMap_congr fun c hc => hf c (mem_of_namedChildren hc)

theorem toCall_withoutComments (htidy : ∀ m ∈ n.preorder, m.IsTidy)
    (hkeeps : ∀ m ∈ n.descendants, m.KeepsExpr) : n.withoutComments.toCall = n.toCall := by
  have hself := htidy n n.mem_preorder_self
  have hchildren : ∀ c ∈ n.children, c.KeepsExpr := fun c hc =>
    hkeeps c (mem_descendants_of_mem_children hc)
  rw [toCall_eq, toCall_eq, hself.field?_withoutComments, hself.field?_withoutComments,
    hself.toField_withoutComments _ hchildren]
  cases n.field? "function" with
  | none => rfl
  | some function =>
    cases harguments : n.field? "arguments" with
    | none => rfl
    | some arguments =>
      have hbelow {c : Node} (hc : c ∈ arguments.children) : c ∈ n.descendants :=
        mem_descendants_of_mem_children_of_mem
          (mem_descendants_of_mem_children (mem_of_field? harguments)) hc
      have hargument (c : Node) (hc : c ∈ arguments.children) :
          c.withoutComments.toArgument? = c.toArgument? :=
        toArgument?_withoutComments (hkeeps c (hbelow hc))
      have hkeyword (c : Node) (hc : c ∈ arguments.children) :
          c.withoutComments.toKeyword? = c.toKeyword? :=
        (htidy c (mem_preorder_of_mem_descendants (hbelow hc))).toKeyword?_withoutComments
          fun d hd => hkeeps d (mem_descendants_of_mem_children_of_mem (hbelow hc) hd)
      simp only [Option.map_some, kind_withoutComments, filterMap_withoutComments hargument,
        filterMap_withoutComments hkeyword]

/-- An expression is the same without the comments in its tree. -/
theorem toExpr_withoutComments (htidy : ∀ m ∈ n.preorder, m.IsTidy) : n.KeepsExpr := by
  induction n using Node.strongInduction with
  | step n ih =>
    have hself := htidy n n.mem_preorder_self
    have hkeeps (m : Node) (hm : m ∈ n.descendants) : m.KeepsExpr :=
      ih m hm fun k hk => htidy k (mem_preorder_of_mem_descendants (mem_descendants_trans hm hk))
    have hchildren (c : Node) (hc : c ∈ n.children) : c.KeepsExpr :=
      hkeeps c (mem_descendants_of_mem_children hc)
    have hliterals : n.withoutComments.namedChildren.mapM literal? =
        n.namedChildren.mapM literal? := by
      rw [namedChildren_withoutComments, List.mapM_map]
      exact congrArg (List.mapM · n.namedChildren) (funext literal?_withoutComments)
    have hitems (c : Node) (hc : c ∈ n.children) : c.withoutComments.toItem? = c.toItem? := by
      have hbelow := mem_descendants_of_mem_children hc
      exact (htidy c (mem_preorder_of_mem_descendants hbelow)).toItem?_withoutComments fun d hd =>
        hkeeps d (mem_descendants_of_mem_children_of_mem hbelow hd)
    have hentries : (n.withoutComments.namedChildren.attach.filterMap fun c => c.1.toItem?) =
        n.namedChildren.attach.filterMap fun c => c.1.toItem? := by
      simpa using filterMap_withoutComments hitems
    rw [KeepsExpr, toExpr, toExpr, kind_withoutComments, string_withoutComments,
      literal?_withoutComments, hliterals, toElements_withoutComments hchildren,
      toSole_withoutComments hchildren, hentries,
      toCall_withoutComments htidy hkeeps, hself.field?_withoutComments,
      hself.field?_withoutComments, hself.toField_withoutComments _ hchildren,
      toComparison_withoutComments hchildren]
    cases n.field? "object" <;> cases n.field? "attribute" <;> simp

/-! ### Statements -/

/-- What is to be shown of a statement. -/
abbrev KeepsStmt (n : Node) : Prop := n.withoutComments.toStmt = n.toStmt

theorem toBlock_withoutComments_of_forall (hkeeps : ∀ c ∈ n.children, c.KeepsStmt) :
    n.withoutComments.toBlock = n.toBlock := by
  rw [toBlock_eq, toBlock_eq, namedChildren_withoutComments, List.map_map]
  exact List.map_congr_left fun c hc => hkeeps c (mem_of_namedChildren hc)

theorem IsTidy.toBody_withoutComments (h : n.IsTidy) (role : String)
    (hkeeps : ∀ m ∈ n.descendants, m.KeepsStmt) :
    n.withoutComments.toBody role = n.toBody role := by
  have hfield := h.field?_withoutComments role
  cases hrole : n.field? role with
  | none =>
    rw [hrole] at hfield
    rw [toBody_of_none hrole, toBody_of_none hfield]
  | some c =>
    rw [hrole] at hfield
    rw [toBody_of_field? hrole, toBody_of_field? hfield]
    exact toBlock_withoutComments_of_forall fun d hd =>
      hkeeps d (mem_descendants_of_mem_children_of_mem
        (mem_descendants_of_mem_children (mem_of_field? hrole)) hd)

/-- A definition is marked by its first token, which is no comment. -/
theorem IsTidy.toFunction_withoutComments (h : n.IsTidy) (hkind : n.kind = "function_definition")
    (hkeeps : ∀ m ∈ n.descendants, m.KeepsStmt) :
    n.withoutComments.toFunction = n.toFunction := by
  have hhead : n.withoutComments.children.head? = n.children.head?.map withoutComments := by
    rw [children_withoutComments]
    cases hchildren : n.children with
    | nil => rfl
    | cons c cs =>
      have hc : c.isComment = false := h.notFirst hkind c (by simp [hchildren])
      rw [List.filter_cons_of_pos (by simp [hc])]
      rfl
  rw [toFunction, toFunction, hhead, h.field?_withoutComments, h.toBody_withoutComments _ hkeeps]
  cases n.children.head? <;> cases n.field? "name" <;> simp

theorem IsTidy.toDecorated_withoutComments (h : n.IsTidy) (htidy : ∀ c ∈ n.children, c.IsTidy)
    (hkeeps : ∀ m ∈ n.descendants, m.KeepsStmt) :
    n.withoutComments.toDecorated = n.toDecorated := by
  have hfield := h.field?_withoutComments "definition"
  cases hdefinition : n.field? "definition" with
  | none =>
    rw [hdefinition] at hfield
    rw [toDecorated_of_none hdefinition, toDecorated_of_none hfield]
  | some c =>
    have hmem := mem_of_field? hdefinition
    rw [hdefinition] at hfield
    rw [toDecorated_of_field? hdefinition, toDecorated_of_field? hfield, kind_withoutComments]
    split_ifs with hkind
    · exact (htidy c hmem).toFunction_withoutComments hkind fun m hm =>
        hkeeps m (mem_descendants_trans (mem_descendants_of_mem_children hmem)
          (mem_preorder_of_mem_descendants hm))
    · rfl

theorem IsTidy.toAssignment_withoutComments (h : n.IsTidy)
    (hkeeps : ∀ c ∈ n.children, c.KeepsExpr) :
    n.withoutComments.toAssignment = n.toAssignment := by
  rw [toAssignment, toAssignment, h.field?_withoutComments, h.field?_withoutComments,
    h.field?_withoutComments, Option.isSome_map]
  cases n.field? "left" with
  | none => rfl
  | some left =>
    cases hright : n.field? "right" with
    | none => rfl
    | some right =>
      have hvalue : right.withoutComments.toExpr = right.toExpr :=
        hkeeps right (mem_of_field? hright)
      simp [hvalue]

theorem toExpressionStatement_withoutComments (htidy : ∀ m ∈ n.preorder, m.IsTidy) :
    n.withoutComments.toExpressionStatement = n.toExpressionStatement := by
  have hbelow {m : Node} (hm : m ∈ n.descendants) (k : Node) (hk : k ∈ m.preorder) : k.IsTidy :=
    htidy k (mem_preorder_of_mem_descendants (mem_descendants_trans hm hk))
  rw [toExpressionStatement, toExpressionStatement, namedChildren_withoutComments]
  rcases hnamed : n.namedChildren with _ | ⟨only, _ | _⟩
  · rfl
  · have honly : only ∈ n.descendants :=
      mem_descendants_of_mem_children (mem_of_namedChildren (hnamed ▸ List.mem_singleton_self only))
    have hassignment : only.withoutComments.toAssignment = only.toAssignment :=
      (hbelow honly only only.mem_preorder_self).toAssignment_withoutComments fun c hc =>
        toExpr_withoutComments (hbelow (mem_descendants_of_mem_children_of_mem honly hc))
    have hexpr : only.withoutComments.toExpr = only.toExpr :=
      toExpr_withoutComments (hbelow honly)
    simp [hassignment, hexpr]
  · rfl

/-- A statement is the same without the comments in its tree. -/
theorem toStmt_withoutComments (htidy : ∀ m ∈ n.preorder, m.IsTidy) : n.KeepsStmt := by
  induction n using Node.strongInduction with
  | step n ih =>
    have hself := htidy n n.mem_preorder_self
    have hbelow {m : Node} (hm : m ∈ n.descendants) (k : Node) (hk : k ∈ m.preorder) : k.IsTidy :=
      htidy k (mem_preorder_of_mem_descendants (mem_descendants_trans hm hk))
    have hkeeps (m : Node) (hm : m ∈ n.descendants) : m.KeepsStmt := ih m hm (hbelow hm)
    have hexprs (c : Node) (hc : c ∈ n.children) : c.KeepsExpr :=
      toExpr_withoutComments (hbelow (mem_descendants_of_mem_children hc))
    have htidied (c : Node) (hc : c ∈ n.children) : c.IsTidy :=
      htidy c (mem_preorder_of_mem_descendants (mem_descendants_of_mem_children hc))
    rw [KeepsStmt, toStmt, toStmt, kind_withoutComments,
      toExpressionStatement_withoutComments htidy, hself.toField_withoutComments _ hexprs,
      hself.toBody_withoutComments _ hkeeps]
    split
    · rfl
    · rfl
    · next hkind => exact hself.toFunction_withoutComments hkind hkeeps
    · exact hself.toDecorated_withoutComments htidied hkeeps
    · rfl

/-- The statements of a block, and of the script as a whole, are the same without the comments in
its tree. -/
theorem toBlock_withoutComments (htidy : ∀ m ∈ n.descendants, m.IsTidy) :
    n.withoutComments.toBlock = n.toBlock :=
  toBlock_withoutComments_of_forall fun _ hc => toStmt_withoutComments fun m hm =>
    htidy m (mem_descendants.mpr ⟨_, hc, hm⟩)

end Node

end Descriptor.Script
