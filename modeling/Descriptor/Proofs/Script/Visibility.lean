import Descriptor.Proofs.Script.Discovery

/-!
# What a registering call sees

The statements visible to a registering call, block by block. The call stands in the innermost of a
chain of blocks. Each of the others is left either through the guard that ends it, and is then
visible as a whole, or through one of its functions, and then shows its functions only. So the
assignments of a block that is left through a function give no name a value.

## Main definitions

* `Level` : a block of the chain with the way in which it is left, and what it shows.
* `Chain` : the blocks around the innermost one, nearest first.
* `Resolves` : the value of a name, taken from the nearest block that shows an assignment to it.

## Main results

* `findCallSite_chain` : a call site lies at the end of a chain and sees what its levels show.
* `lookup?_visible_iff` : names in the visible statements have the value that `Resolves` gives.
* `findCallSite_visible` : both together.
-/

namespace Descriptor.Script

/-! ### Chains of blocks -/

/-- The way in which a block is left for one within it. -/
inductive Exit where
  | guard | function
  deriving DecidableEq

/-- A block around a registering call, with the way in which it is left. -/
structure Level where
  block : List Stmt
  exit : Exit

/-- The statements that a level shows: all of them to its guard, its functions to a function. -/
def Level.visible (level : Level) : List Stmt :=
  match level.exit with
  | .guard => level.block
  | .function => functionsOf level.block

/-- The blocks passed on the way from a block to one within it, the innermost of them first. -/
inductive Chain : List Stmt → List Level → List Stmt → Prop
  | nil (block : List Stmt) : Chain block [] block
  | guard {block body inner : List Stmt} {levels : List Level} (hbody : EndsInGuard block body)
      (h : Chain body levels inner) : Chain block (levels ++ [⟨block, .guard⟩]) inner
  | function {block body inner : List Stmt} {name : String} {levels : List Level}
      (hmem : .function name body ∈ block) (h : Chain body levels inner) :
      Chain block (levels ++ [⟨block, .function⟩]) inner

/-- A call site is the first registering call of the innermost block of a chain, and sees that
block with what the levels around it show, from the inside out. -/
theorem findCallSite_chain {script : List Stmt} {site : CallSite}
    (h : findCallSite script = some site) :
    ∃ levels inner, Chain script levels inner ∧ FirstSetup inner site.call ∧
      site.body = inner ++ levels.flatMap Level.visible := by
  induction script using block_induction generalizing site with
  | step block ihguard ihfunctions =>
    rcases findCallSite_eq_some_iff.mp h with ⟨hfirst, hbody⟩ |
      ⟨-, body, found, hbody, hfound, rfl⟩ |
      ⟨-, -, before, name, body, after, found, rfl, -, hfound, rfl⟩
    · exact ⟨[], block, .nil block, hfirst, by simpa using hbody⟩
    · obtain ⟨levels, inner, hchain, hfirst, hvisible⟩ := ihguard body hbody hfound
      refine ⟨_, inner, .guard hbody hchain, hfirst, ?_⟩
      simp [CallSite.within, hvisible, Level.visible]
    · have hmem : .function name body ∈ before ++ .function name body :: after :=
        List.mem_append_right before List.mem_cons_self
      obtain ⟨levels, inner, hchain, hfirst, hvisible⟩ := ihfunctions name body hmem hfound
      refine ⟨_, inner, .function hmem hchain, hfirst, ?_⟩
      simp [CallSite.within, hvisible, Level.visible]

/-! ### Names in the visible statements -/

/-- A block without an assignment to a name. -/
def Unassigned (block : List Stmt) (name : String) : Prop := ∀ value, .assign name value ∉ block

/-- The value of the first assignment to a name in a block. -/
def FirstAssigned (block : List Stmt) (name : String) (value : Expr) : Prop :=
  ∃ before after, block = before ++ .assign name value :: after ∧ Unassigned before name

/-- The value that a name has in a block and the levels around it: that of its first assignment in
the block, or else in the nearest level left through a guard that assigns it. -/
def Resolves (inner : List Stmt) (levels : List Level) (name : String) (value : Expr) : Prop :=
  FirstAssigned inner name value ∨
    Unassigned inner name ∧ ∃ nearer level farther, levels = nearer ++ level :: farther ∧
      level.exit = .guard ∧ FirstAssigned level.block name value ∧
      ∀ other ∈ nearer, other.exit = .guard → Unassigned other.block name

private theorem assigned?_eq_some_iff {stmt : Stmt} {name : String} {value : Expr} :
    stmt.assigned? name = some value ↔ stmt = .assign name value := by
  cases stmt with
  | assign target given =>
    simp only [Stmt.assigned?, Stmt.assign.injEq]
    split_ifs with h <;> simp [h]
  | _ => simp [Stmt.assigned?]

theorem lookup?_eq_none_iff {block : List Stmt} {name : String} :
    lookup? block name = none ↔ Unassigned block name := by
  rw [lookup?, List.findSome?_eq_none_iff]
  simp only [Option.eq_none_iff_forall_ne_some, ne_eq, assigned?_eq_some_iff]
  exact ⟨fun h value hmem => h _ hmem value rfl,
    fun h stmt hmem value hstmt => h value (hstmt ▸ hmem)⟩

/-- A look-up gives the first assignment to a name. -/
theorem lookup?_eq_some_iff {block : List Stmt} {name : String} {value : Expr} :
    lookup? block name = some value ↔ FirstAssigned block name value := by
  simp only [FirstAssigned, ← lookup?_eq_none_iff]
  simp only [lookup?, List.findSome?_eq_some_iff, assigned?_eq_some_iff, List.findSome?_eq_none_iff]
  constructor
  · rintro ⟨before, stmt, after, rfl, rfl, hnone⟩
    exact ⟨before, after, rfl, hnone⟩
  · rintro ⟨before, after, rfl, hnone⟩
    exact ⟨before, _, after, rfl, rfl, hnone⟩

/-- The value that a name is given by what a level shows: none by a level left through a
function, which shows no assignment. -/
def Level.lookup? (level : Level) (name : String) : Option Expr :=
  match level.exit with
  | .guard => Script.lookup? level.block name
  | .function => none

theorem lookup?_functionsOf (block : List Stmt) (name : String) :
    lookup? (functionsOf block) name = none := by
  refine lookup?_eq_none_iff.mpr fun value hmem => ?_
  have hfunction := (List.mem_filter.mp hmem).2
  simp only [Stmt.isFunction, Bool.false_eq_true] at hfunction

private theorem lookup?_visible (level : Level) (name : String) :
    lookup? level.visible name = level.lookup? name := by
  obtain ⟨block, exit⟩ := level
  cases exit with
  | guard => rfl
  | function => exact lookup?_functionsOf block name

private theorem Level.lookup?_eq_some_iff {level : Level} {name : String} {value : Expr} :
    level.lookup? name = some value ↔
      level.exit = .guard ∧ FirstAssigned level.block name value := by
  obtain ⟨block, exit⟩ := level
  cases exit <;> simp [Level.lookup?, Script.lookup?_eq_some_iff]

private theorem Level.lookup?_eq_none_iff {level : Level} {name : String} :
    level.lookup? name = none ↔ (level.exit = .guard → Unassigned level.block name) := by
  obtain ⟨block, exit⟩ := level
  cases exit <;> simp [Level.lookup?, Script.lookup?_eq_none_iff]

private theorem lookup?_flatMap_visible (levels : List Level) (name : String) :
    lookup? (levels.flatMap Level.visible) name = levels.findSome? (·.lookup? name) := by
  induction levels with
  | nil => rfl
  | cons level levels ih =>
    rw [List.flatMap_cons, lookup?, List.findSome?_append, ← lookup?, ← lookup?, ih,
      lookup?_visible, List.findSome?_cons]
    cases level.lookup? name <;> rfl

/-- A name has in a block and the levels around it the value that the nearest assignment to it
gives, levels left through a function aside. -/
theorem lookup?_visible_iff {inner : List Stmt} {levels : List Level} {name : String}
    {value : Expr} :
    lookup? (inner ++ levels.flatMap Level.visible) name = some value ↔
      Resolves inner levels name value := by
  have hsplit : lookup? (inner ++ levels.flatMap Level.visible) name =
      (lookup? inner name).or (levels.findSome? (·.lookup? name)) := by
    rw [← lookup?_flatMap_visible]
    exact List.findSome?_append
  rw [hsplit, Option.or_eq_some_iff, lookup?_eq_some_iff, lookup?_eq_none_iff,
    List.findSome?_eq_some_iff]
  simp only [Resolves, Level.lookup?_eq_some_iff, Level.lookup?_eq_none_iff, and_assoc]

/-! ### The visible statements of a call site -/

/-- **What a registering call sees.** The call site of a script lies at the end of a chain of
blocks: its call is the first one of the innermost block, and the statements visible to it are that
block and then, from the inside out, every block left through its guard and the functions of every
block left through one of them. A name therefore has the value of its first assignment in the
innermost block, or else in the nearest block left through its guard that assigns it; no block left
through a function gives it one. -/
theorem findCallSite_visible {script : List Stmt} {site : CallSite}
    (h : findCallSite script = some site) :
    ∃ levels inner, Chain script levels inner ∧ FirstSetup inner site.call ∧
      site.body = inner ++ levels.flatMap Level.visible ∧
      ∀ name value, lookup? site.body name = some value ↔ Resolves inner levels name value := by
  obtain ⟨levels, inner, hchain, hfirst, hbody⟩ := findCallSite_chain h
  refine ⟨levels, inner, hchain, hfirst, hbody, fun name value => ?_⟩
  rw [hbody, lookup?_visible_iff]

private def innermost : List Stmt := [.expr (.call (.name "setup") [] [])]

private def guarded : List Stmt := [.assign "NAME" (.text "guarded"), .function "run" innermost]

private def mainBody : List Stmt :=
  [.assign "VERSION" (.text "main"),
    .branch (.compare (.text "__main__") [.eq] [.name "__name__"]) guarded]

/-- A call in a function of the guard that ends a function, with an assignment at every level. -/
def nestedScript : List Stmt := [.assign "VERSION" (.text "script"), .function "main" mainBody]

/-- The call of `nestedScript`, which sees the assignment of the function around its guard and no
other one. -/
def nestedSite : CallSite :=
  ⟨⟨.name "setup", [], []⟩,
    innermost ++ (functionsOf guarded ++ (mainBody ++ functionsOf nestedScript))⟩

theorem findCallSite_visible_nestedScript :
    findCallSite nestedScript = some nestedSite ∧
      ∃ levels inner, Chain nestedScript levels inner ∧ FirstSetup inner nestedSite.call ∧
        nestedSite.body = inner ++ levels.flatMap Level.visible ∧
        ∀ name value,
          lookup? nestedSite.body name = some value ↔ Resolves inner levels name value := by
  have h : findCallSite nestedScript = some nestedSite := by
    simp [nestedSite, nestedScript, mainBody, guarded, innermost, findCallSite, findInGuard,
      findInFunctions, List.findSome?_cons, Stmt.setupCall?, isSetupFunction, isEntryGuard,
      CallSite.within, functionsOf, Stmt.isFunction]
  exact ⟨h, findCallSite_visible h⟩

end Descriptor.Script
