import Descriptor.Script.Tree

/-!
# The call that registers a package

A setup script registers its package by a call. Where the call stands decides which statements its
arguments can name things from. It is looked for in a block itself, then in the entry-point guard
that ends the block, then in the functions that the block defines, each searched in the same way.
A guard sees all of the block around it; a function sees only the functions around it.

## Main definitions

* `Call` : a call expression taken apart.
* `CallSite` : the registering call and the statements visible to it, nearest first.
* `findCallSite` : the registering call of a block.
* `lookup?` : the value that a name has in visible statements.
-/

namespace Descriptor.Script

/-- A call expression taken apart. -/
structure Call where
  func : Expr
  args : List Expr
  keywords : List Keyword

/-- The call that an expression is. -/
def Expr.call? : Expr → Option Call
  | .call func args keywords => some ⟨func, args, keywords⟩
  | _ => none

/-- The registering function, by its bare name or as a member of its usual namespace. -/
def isSetupFunction : Expr → Bool
  | .name id => id = "setup"
  | .attribute value attr => attr = "setup" && value.name? = some "setuptools"
  | _ => false

/-- The registering call that a statement consists of. -/
def Stmt.setupCall? : Stmt → Option Call
  | .expr (.call func args keywords) =>
    if isSetupFunction func then some ⟨func, args, keywords⟩ else none
  | _ => none

/-- A comparison of `__name__` with a literal for equality, either one on the left. -/
def isEntryGuard : Expr → Bool
  | .compare (.name id) [.eq] [.text _] => id = "__name__"
  | .compare (.text _) [.eq] [.name id] => id = "__name__"
  | _ => false

/-- Whether a statement defines a function. -/
def Stmt.isFunction : Stmt → Bool
  | .function _ _ => true
  | _ => false

/-- The function definitions of a block. -/
def functionsOf (block : List Stmt) : List Stmt := block.filter (·.isFunction)

/-- The registering call and the statements visible to it, nearest first. -/
structure CallSite where
  call : Call
  body : List Stmt

/-- A call site as seen with further statements around it. -/
def CallSite.within (site : CallSite) (outer : List Stmt) : CallSite :=
  { site with body := site.body ++ outer }

mutual

/-- The registering call of a block. -/
def findCallSite (block : List Stmt) : Option CallSite :=
  match block.findSome? Stmt.setupCall? with
  | some call => some ⟨call, block⟩
  | none =>
    match findInGuard block with
    | some site => some (site.within block)
    | none => (findInFunctions block).map (·.within (functionsOf block))
termination_by (sizeOf block, 1)

/-- The registering call in the entry-point guard that ends a block. -/
def findInGuard (block : List Stmt) : Option CallSite :=
  match block with
  | [] => none
  | [.branch test body] => if isEntryGuard test then findCallSite body else none
  | _ :: rest => findInGuard rest
termination_by (sizeOf block, 0)

/-- The registering call in the first function of a block that has one. -/
def findInFunctions (block : List Stmt) : Option CallSite :=
  match block with
  | [] => none
  | .function _ body :: rest =>
    match findCallSite body with
    | some site => some site
    | none => findInFunctions rest
  | _ :: rest => findInFunctions rest
termination_by (sizeOf block, 0)

end

/-- The value of a simple assignment to the given name. -/
def Stmt.assigned? (id : String) : Stmt → Option Expr
  | .assign target value => if target = id then some value else none
  | _ => none

/-- The value that the first assignment to a name gives it. -/
def lookup? (body : List Stmt) (id : String) : Option Expr := body.findSome? (·.assigned? id)

end Descriptor.Script
