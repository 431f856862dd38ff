/-!
# Syntax trees of scripts

The syntax tree of a script as a grammar gives it: a node has a kind, a place and the text that it
covers, and plays a role in the node above it. Nodes without a name of their own are the tokens of
the grammar; comments are nodes too and stand wherever they are written. Where a script has no tree,
the grammar repairs it: a node of the kind `ERROR` holds what has no place there, and a node that
covers no text stands for what is missing.

## Main definitions

* `Node` : a node with the nodes below it. A `Grammar` gives the root for a source.
* `Node.role?`, `Node.field?` : the role of a node, and the child that plays one.
* `Node.namedChildren` : the children that mean something.
* `Node.preorder`, `Node.descendants` : the nodes of a tree in the order of the text.
* `Node.complaint?`, `Node.firstFault?` : what is wrong at a node, and the first such place.

## Main results

* `Node.firstFault?_eq` : the first fault is the first node in the order of the text that has one.
-/

namespace Descriptor.Script

/-- A node of a syntax tree. -/
structure Node where
  kind : String
  /-- Whether the node is more than a token. -/
  isNamed : Bool
  /-- The part that the node plays in the one above it. -/
  role? : Option String
  /-- The byte offset of the text in the source. -/
  start : Nat
  text : List Char
  children : List Node

instance : Inhabited Node := ⟨"", false, none, 0, [], []⟩

/-- What gives a source its syntax tree. -/
abbrev Grammar := String → Node

namespace Node

theorem sizeOf_lt_of_mem {n c : Node} (h : c ∈ n.children) : sizeOf c < sizeOf n := by
  obtain ⟨kind, isNamed, role, start, text, children⟩ := n
  have hlt : sizeOf c < sizeOf children := List.sizeOf_lt_of_mem h
  simp only [mk.sizeOf_spec]
  omega

/-- A property of nodes that each node has if all nodes right below it have it. -/
theorem induction {P : Node → Prop} (step : ∀ n, (∀ c ∈ n.children, P c) → P n) (n : Node) :
    P n :=
  step n fun c _ => induction step c
termination_by sizeOf n
decreasing_by exact sizeOf_lt_of_mem ‹_›

/-! ### Children -/

/-- Whether a node is a comment. -/
def isComment (n : Node) : Bool := n.kind = "comment"

/-- The first child that plays a role. -/
def field? (n : Node) (role : String) : Option Node := n.children.find? (·.role? = some role)

/-- The children that have a name of their own, comments left out. -/
def namedChildren (n : Node) : List Node := n.children.filter fun c => c.isNamed && !c.isComment

/-- The text of a node. -/
def string (n : Node) : String := String.ofList n.text

theorem mem_of_field? {n c : Node} {role : String} (h : n.field? role = some c) :
    c ∈ n.children :=
  List.mem_of_find?_eq_some h

theorem mem_namedChildren {n c : Node} :
    c ∈ n.namedChildren ↔ c ∈ n.children ∧ c.isNamed = true ∧ c.isComment = false := by
  simp [namedChildren]

theorem mem_of_namedChildren {n c : Node} (h : c ∈ n.namedChildren) : c ∈ n.children :=
  (mem_namedChildren.mp h).1

theorem sizeOf_field? {n c : Node} {role : String} (h : n.field? role = some c) :
    sizeOf c < sizeOf n :=
  sizeOf_lt_of_mem (mem_of_field? h)

theorem sizeOf_namedChildren {n c : Node} (h : c ∈ n.namedChildren) : sizeOf c < sizeOf n :=
  sizeOf_lt_of_mem (mem_of_namedChildren h)

/-! ### The nodes of a tree -/

/-- A node and all nodes below it, in the order of the text. -/
def preorder (n : Node) : List Node := n :: n.children.attach.flatMap fun c => c.1.preorder
termination_by sizeOf n
decreasing_by exact sizeOf_lt_of_mem c.2

/-- All nodes below a node, in the order of the text. -/
def descendants (n : Node) : List Node := n.children.flatMap preorder

theorem preorder_eq (n : Node) : n.preorder = n :: n.descendants := by
  rw [preorder, descendants]
  simp

theorem mem_descendants {n m : Node} : m ∈ n.descendants ↔ ∃ c ∈ n.children, m ∈ c.preorder :=
  List.mem_flatMap

theorem mem_preorder_self (n : Node) : n ∈ n.preorder := by
  rw [preorder_eq]
  exact List.mem_cons_self

theorem mem_preorder_iff {n m : Node} : m ∈ n.preorder ↔ m = n ∨ m ∈ n.descendants := by
  rw [preorder_eq, List.mem_cons]

theorem mem_descendants_of_mem_children {n c : Node} (h : c ∈ n.children) : c ∈ n.descendants :=
  mem_descendants.mpr ⟨c, h, c.mem_preorder_self⟩

theorem mem_preorder_of_mem_descendants {n m : Node} (h : m ∈ n.descendants) : m ∈ n.preorder :=
  mem_preorder_iff.mpr (.inr h)

/-- What is below a node of a tree is in the tree. -/
theorem mem_preorder_trans {n m k : Node} (hm : m ∈ n.preorder) (hk : k ∈ m.preorder) :
    k ∈ n.preorder := by
  induction n using Node.induction with
  | step n ih =>
    rcases mem_preorder_iff.mp hm with rfl | hm
    · exact hk
    · obtain ⟨c, hc, hm⟩ := mem_descendants.mp hm
      exact mem_preorder_iff.mpr (.inr (mem_descendants.mpr ⟨c, hc, ih c hc hm⟩))

theorem mem_descendants_trans {n m k : Node} (hm : m ∈ n.descendants) (hk : k ∈ m.preorder) :
    k ∈ n.descendants := by
  obtain ⟨c, hc, hm⟩ := mem_descendants.mp hm
  exact mem_descendants.mpr ⟨c, hc, mem_preorder_trans hm hk⟩

theorem mem_descendants_of_mem_children_of_mem {n m c : Node} (hm : m ∈ n.descendants)
    (hc : c ∈ m.children) : c ∈ n.descendants :=
  mem_descendants_trans hm
    (mem_preorder_of_mem_descendants (mem_descendants_of_mem_children hc))

/-- A property of nodes that each node has if all nodes below it have it. -/
theorem strongInduction {P : Node → Prop} (step : ∀ n, (∀ m ∈ n.descendants, P m) → P n)
    (n : Node) : P n := by
  refine step n ?_
  induction n using Node.induction with
  | step n ih =>
    intro m hm
    obtain ⟨c, hc, hm⟩ := mem_descendants.mp hm
    rcases mem_preorder_iff.mp hm with rfl | hm
    · exact step m (ih m hc)
    · exact ih c hc m hm

/-! ### Faults -/

/-- What is wrong at a node, if anything is. -/
def complaint? (n : Node) : Option String :=
  if n.kind = "ERROR" then some "invalid syntax"
  else if n.text.isEmpty then
    some (if n.kind = "block" then "expected an indented block" else "missing token")
  else none

/-- The byte offset and the message of the first fault of a tree. What is below a fault is not
looked at. -/
def firstFault? (n : Node) : Option (Nat × String) :=
  match n.complaint? with
  | some message => some (n.start, message)
  | none => n.children.attach.findSome? fun c => c.1.firstFault?
termination_by sizeOf n
decreasing_by exact sizeOf_lt_of_mem c.2

theorem firstFault?_of_complaint? {n : Node} (h : n.complaint? = none) :
    n.firstFault? = n.children.findSome? firstFault? := by
  rw [firstFault?, h]
  simp

private theorem findSome?_firstFault? {ns : List Node} {f : Node → Option (Nat × String)}
    (h : ∀ n ∈ ns, n.firstFault? = n.preorder.findSome? f) :
    ns.findSome? firstFault? = (ns.flatMap preorder).findSome? f := by
  induction ns with
  | nil => rfl
  | cons n ns ih =>
    rw [List.flatMap_cons, List.findSome?_append, List.findSome?_cons, h n List.mem_cons_self,
      ih fun m hm => h m (List.mem_cons_of_mem n hm)]
    cases n.preorder.findSome? f <;> rfl

/-- The first fault is at the first node in the order of the text at which something is wrong. -/
theorem firstFault?_eq (n : Node) :
    n.firstFault? = n.preorder.findSome? fun m => m.complaint?.map (m.start, ·) := by
  induction n using Node.induction with
  | step n ih =>
    rw [preorder_eq, List.findSome?_cons]
    cases hwrong : n.complaint? with
    | some message => rw [firstFault?, hwrong, Option.map_some]
    | none => rw [firstFault?_of_complaint? hwrong, findSome?_firstFault? ih, descendants]; rfl

/-- The first fault below a node is at the first node below at which something is wrong. -/
theorem findSome?_children_firstFault? (n : Node) :
    n.children.findSome? firstFault? =
      n.descendants.findSome? fun m => m.complaint?.map (m.start, ·) :=
  findSome?_firstFault? fun c _ => c.firstFault?_eq

/-- A tree has no fault exactly if nothing is wrong at any of its nodes. -/
theorem firstFault?_eq_none_iff {n : Node} :
    n.firstFault? = none ↔ ∀ m ∈ n.preorder, m.complaint? = none := by
  simp [firstFault?_eq]

end Node

end Descriptor.Script
