import Descriptor.Script.CallSite
import Mathlib.Data.List.Basic

/-!
# Where a registering call is looked for

The blocks that a script is searched through, and the order in which they are searched. A block is
reached from the script through entry-point guards that end a block and through function
definitions, and through nothing else. Of the calls in reachable blocks the search takes the one of
the nearest rule: a statement of the block itself, then the guard that ends it, then its functions
in their order. A guard without a call in it does not stop the search of the functions.

## Main definitions

* `Registers` : a statement that consists of a registering call.
* `EndsInGuard` : a block whose last statement is an entry-point guard, with the guard's body.
* `Reachable` : the blocks that a script is searched through.
* `Barren`, `Yields` : what the search takes from a block, rule by rule.

## Main results

* `block_induction` : induction over the blocks that a block can be left for.
* `findCallSite_eq_none_iff`, `findCallSite_eq_some_iff` : the search follows its rules.
* `barren_iff` : the search gives nothing exactly when no reachable block registers anything.
* `findCallSite_complete_and_prioritized` : both together, for every script.
-/

namespace Descriptor.Script

/-! ### Statements and blocks that matter to the search -/

/-- The registering function, under its bare name or in its namespace. -/
inductive SetupFunction : Expr → Prop
  | bare : SetupFunction (.name "setup")
  | member : SetupFunction (.attribute (.name "setuptools") "setup")

/-- A statement that consists of a call of the registering function. -/
inductive Registers : Stmt → Call → Prop
  | intro {func : Expr} (h : SetupFunction func) (args : List Expr) (keywords : List Keyword) :
      Registers (.expr (.call func args keywords)) ⟨func, args, keywords⟩

/-- A comparison of `__name__` with one literal for equality, in either order. -/
inductive GuardTest : Expr → Prop
  | nameFirst (literal : String) : GuardTest (.compare (.name "__name__") [.eq] [.text literal])
  | literalFirst (literal : String) : GuardTest (.compare (.text literal) [.eq] [.name "__name__"])

/-- A block whose last statement is an entry-point guard, with the body of the guard. -/
inductive EndsInGuard : List Stmt → List Stmt → Prop
  | intro (before : List Stmt) {test : Expr} (h : GuardTest test) (body : List Stmt) :
      EndsInGuard (before ++ [.branch test body]) body

/-- A block with a registering call among its own statements. -/
def HasSetup (block : List Stmt) : Prop := ∃ stmt ∈ block, ∃ call, Registers stmt call

/-- The first registering call among the statements of a block. -/
def FirstSetup (block : List Stmt) (call : Call) : Prop :=
  ∃ before stmt after, block = before ++ stmt :: after ∧ ¬HasSetup before ∧ Registers stmt call

private theorem isSetupFunction_iff {func : Expr} :
    isSetupFunction func = true ↔ SetupFunction func := by
  constructor
  · intro h
    unfold isSetupFunction at h
    split at h
    · obtain rfl := of_decide_eq_true h
      exact .bare
    · next value attr =>
      simp only [Bool.and_eq_true, decide_eq_true_eq] at h
      obtain ⟨rfl, hvalue⟩ := h
      unfold Expr.name? at hvalue
      split at hvalue
      · obtain rfl := Option.some.inj hvalue
        exact .member
      · simp only [reduceCtorEq] at hvalue
    · simp only [Bool.false_eq_true] at h
  · rintro (_ | _) <;> decide

theorem setupCall?_eq_some_iff {stmt : Stmt} {call : Call} :
    stmt.setupCall? = some call ↔ Registers stmt call := by
  constructor
  · intro h
    unfold Stmt.setupCall? at h
    split at h
    · split_ifs at h with hfunc
      obtain rfl := Option.some.inj h
      exact .intro (isSetupFunction_iff.mp hfunc) _ _
    · simp only [reduceCtorEq] at h
  · rintro ⟨hfunc, args, keywords⟩
    simp only [Stmt.setupCall?, isSetupFunction_iff.mpr hfunc, ite_true]

theorem isEntryGuard_iff {test : Expr} : isEntryGuard test = true ↔ GuardTest test := by
  constructor
  · intro h
    unfold isEntryGuard at h
    split at h
    · obtain rfl := of_decide_eq_true h
      exact .nameFirst _
    · obtain rfl := of_decide_eq_true h
      exact .literalFirst _
    · simp only [Bool.false_eq_true] at h
  · rintro (_ | _) <;> simp only [isEntryGuard, decide_true]

theorem findSome?_setupCall?_eq_none_iff {block : List Stmt} :
    block.findSome? Stmt.setupCall? = none ↔ ¬HasSetup block := by
  rw [List.findSome?_eq_none_iff]
  constructor
  · rintro h ⟨stmt, hmem, call, hcall⟩
    rw [← setupCall?_eq_some_iff, h stmt hmem] at hcall
    simp only [reduceCtorEq] at hcall
  · intro h stmt hmem
    refine Option.eq_none_iff_forall_ne_some.mpr fun call hcall => ?_
    exact h ⟨stmt, hmem, call, setupCall?_eq_some_iff.mp hcall⟩

theorem findSome?_setupCall?_eq_some_iff {block : List Stmt} {call : Call} :
    block.findSome? Stmt.setupCall? = some call ↔ FirstSetup block call := by
  rw [List.findSome?_eq_some_iff]
  constructor
  · rintro ⟨before, stmt, after, rfl, hcall, hnone⟩
    refine ⟨before, stmt, after, rfl, ?_, setupCall?_eq_some_iff.mp hcall⟩
    exact findSome?_setupCall?_eq_none_iff.mp (List.findSome?_eq_none_iff.mpr hnone)
  · rintro ⟨before, stmt, after, rfl, hnone, hcall⟩
    refine ⟨before, stmt, after, rfl, setupCall?_eq_some_iff.mpr hcall, ?_⟩
    exact List.findSome?_eq_none_iff.mp (findSome?_setupCall?_eq_none_iff.mpr hnone)

/-! ### Leaving a block for one within it -/

theorem EndsInGuard.sizeOf_lt {block body : List Stmt} (h : EndsInGuard block body) :
    sizeOf body < sizeOf block := by
  obtain ⟨before, -, body⟩ := h
  refine Nat.lt_trans ?_ (List.sizeOf_lt_of_mem (List.mem_append_right before List.mem_cons_self))
  simp only [Stmt.branch.sizeOf_spec]
  omega

theorem sizeOf_lt_of_function_mem {block body : List Stmt} {name : String}
    (h : .function name body ∈ block) : sizeOf body < sizeOf block := by
  refine Nat.lt_trans ?_ (List.sizeOf_lt_of_mem h)
  simp only [Stmt.function.sizeOf_spec]
  omega

/-- **Induction over blocks.** What holds of a block whenever it holds of the guard that ends the
block and of the functions that the block defines holds of every block. -/
theorem block_induction {motive : List Stmt → Prop}
    (step : ∀ block, (∀ body, EndsInGuard block body → motive body) →
      (∀ name body, .function name body ∈ block → motive body) → motive block)
    (block : List Stmt) : motive block := by
  induction hsize : sizeOf block using Nat.strongRecOn generalizing block with
  | ind n ih =>
    subst hsize
    exact step block (fun body h => ih _ h.sizeOf_lt body rfl)
      fun name body h => ih _ (sizeOf_lt_of_function_mem h) body rfl

theorem EndsInGuard.unique {block body body' : List Stmt} (h : EndsInGuard block body)
    (h' : EndsInGuard block body') : body = body' := by
  obtain ⟨before, -, body⟩ := h
  generalize hblock : before ++ [_] = block at h'
  obtain ⟨before', -, body'⟩ := h'
  have hlast := (List.append_inj' hblock rfl).2
  simp only [List.cons.injEq, Stmt.branch.injEq, and_true] at hlast
  exact hlast.2

private theorem not_endsInGuard_nil {body : List Stmt} : ¬EndsInGuard [] body := by
  intro h
  generalize hblock : ([] : List Stmt) = block at h
  obtain ⟨before, -, body⟩ := h
  simp only [List.nil_eq, List.append_eq_nil_iff, List.cons_ne_nil, and_false] at hblock

private theorem endsInGuard_singleton {stmt : Stmt} {body : List Stmt} :
    EndsInGuard [stmt] body ↔ ∃ test, GuardTest test ∧ stmt = .branch test body := by
  constructor
  · intro h
    generalize hblock : [stmt] = block at h
    obtain ⟨before, htest, body⟩ := h
    obtain ⟨-, hlast⟩ := List.append_inj' ((List.nil_append [stmt]).trans hblock) rfl
    exact ⟨_, htest, (List.cons.inj hlast).1⟩
  · rintro ⟨test, htest, rfl⟩
    exact .intro [] htest body

private theorem endsInGuard_cons {stmt next : Stmt} {rest body : List Stmt} :
    EndsInGuard (stmt :: next :: rest) body ↔ EndsInGuard (next :: rest) body := by
  constructor
  · intro h
    generalize hblock : stmt :: next :: rest = block at h
    obtain ⟨_ | ⟨first, before⟩, htest, body⟩ := h
    · simp only [List.nil_append, List.cons.injEq, reduceCtorEq, and_false] at hblock
    · obtain ⟨-, hrest⟩ := List.cons.inj hblock
      exact hrest ▸ .intro before htest body
  · intro h
    generalize next :: rest = block at h
    obtain ⟨before, htest, body⟩ := h
    exact .intro (stmt :: before) htest body

/-! ### The search of a guard and of functions -/

theorem findInGuard_eq_some_iff {block : List Stmt} {site : CallSite} :
    findInGuard block = some site ↔
      ∃ body, EndsInGuard block body ∧ findCallSite body = some site := by
  induction block with
  | nil => simp only [findInGuard, reduceCtorEq, not_endsInGuard_nil, false_and, exists_false]
  | cons stmt rest ih =>
    cases rest with
    | cons next rest =>
      simp only [endsInGuard_cons, ← ih]
      rw [findInGuard]
      exact fun _ _ _ h => List.cons_ne_nil _ _ h
    | nil =>
      simp only [endsInGuard_singleton]
      cases stmt with
      | branch test body =>
        simp only [findInGuard, Stmt.branch.injEq, ← isEntryGuard_iff]
        split_ifs with htest <;> simp [htest]
      | _ => simp [findInGuard]

/-- The registering call in the function that a statement defines. -/
def Stmt.siteWithin? : Stmt → Option CallSite
  | .function _ body => findCallSite body
  | _ => none

theorem findInFunctions_eq_findSome? (block : List Stmt) :
    findInFunctions block = block.findSome? Stmt.siteWithin? := by
  induction block with
  | nil => simp only [findInFunctions, List.findSome?_nil]
  | cons stmt rest ih =>
    cases stmt with
    | function name body =>
      rw [findInFunctions, List.findSome?_cons, Stmt.siteWithin?, ih]
      cases findCallSite body <;> rfl
    | _ => rw [findInFunctions, List.findSome?_cons, Stmt.siteWithin?, ih] <;> simp

theorem Stmt.siteWithin?_eq_some_iff {stmt : Stmt} {site : CallSite} :
    stmt.siteWithin? = some site ↔
      ∃ name body, stmt = .function name body ∧ findCallSite body = some site := by
  cases stmt <;> simp [siteWithin?]

theorem Stmt.siteWithin?_eq_none_iff {stmt : Stmt} :
    stmt.siteWithin? = none ↔
      ∀ name body, stmt = .function name body → findCallSite body = none := by
  cases stmt with
  | function name body =>
    simp only [siteWithin?, function.injEq]
    exact ⟨fun h _ _ hbody => hbody.2 ▸ h, fun h => h name body ⟨rfl, rfl⟩⟩
  | _ => simp [siteWithin?]

private theorem findSome?_siteWithin?_eq_none_iff {block : List Stmt} :
    block.findSome? Stmt.siteWithin? = none ↔
      ∀ name body, .function name body ∈ block → findCallSite body = none := by
  simp only [List.findSome?_eq_none_iff, Stmt.siteWithin?_eq_none_iff]
  exact ⟨fun h name body hmem => h _ hmem name body rfl,
    fun h stmt hmem name body hstmt => h name body (hstmt ▸ hmem)⟩

theorem findInFunctions_eq_none_iff {block : List Stmt} :
    findInFunctions block = none ↔
      ∀ name body, .function name body ∈ block → findCallSite body = none := by
  rw [findInFunctions_eq_findSome?, findSome?_siteWithin?_eq_none_iff]

theorem findInFunctions_eq_some_iff {block : List Stmt} {site : CallSite} :
    findInFunctions block = some site ↔
      ∃ before name body after, block = before ++ .function name body :: after ∧
        (∀ name' body', .function name' body' ∈ before → findCallSite body' = none) ∧
        findCallSite body = some site := by
  rw [findInFunctions_eq_findSome?, List.findSome?_eq_some_iff]
  simp only [← List.findSome?_eq_none_iff, findSome?_siteWithin?_eq_none_iff,
    Stmt.siteWithin?_eq_some_iff]
  constructor
  · rintro ⟨before, stmt, after, rfl, ⟨name, body, rfl, hsite⟩, hnone⟩
    exact ⟨before, name, body, after, rfl, hnone, hsite⟩
  · rintro ⟨before, name, body, after, rfl, hnone, hsite⟩
    exact ⟨before, _, after, rfl, ⟨name, body, rfl, hsite⟩, hnone⟩

private theorem findInGuard_eq_none_iff {block : List Stmt} :
    findInGuard block = none ↔ ∀ body, EndsInGuard block body → findCallSite body = none := by
  simp only [Option.eq_none_iff_forall_ne_some, ne_eq, findInGuard_eq_some_iff, not_exists, not_and]
  exact ⟨fun h body hbody site => h site body hbody, fun h site body hbody => h body hbody site⟩

/-! ### The search of a block -/

/-- A block gives no call exactly when none of its statements registers anything and neither its
guard nor any of its functions gives one. -/
theorem findCallSite_eq_none_iff {block : List Stmt} :
    findCallSite block = none ↔
      ¬HasSetup block ∧ (∀ body, EndsInGuard block body → findCallSite body = none) ∧
        ∀ name body, .function name body ∈ block → findCallSite body = none := by
  rw [findCallSite, ← findSome?_setupCall?_eq_none_iff, ← findInGuard_eq_none_iff,
    ← findInFunctions_eq_none_iff]
  cases block.findSome? Stmt.setupCall? <;> cases findInGuard block <;> simp

/-- **The three rules of the search.** A call site of a block comes from a statement of the block;
or, when there is no such statement, from the guard that ends the block; or, when that guard gives
nothing either, from the first function that gives something. -/
theorem findCallSite_eq_some_iff {block : List Stmt} {site : CallSite} :
    findCallSite block = some site ↔
      (FirstSetup block site.call ∧ site.body = block) ∨
      (¬HasSetup block ∧ ∃ body inner, EndsInGuard block body ∧ findCallSite body = some inner ∧
        site = inner.within block) ∨
      (¬HasSetup block ∧ (∀ body, EndsInGuard block body → findCallSite body = none) ∧
        ∃ before name body after inner, block = before ++ .function name body :: after ∧
          (∀ name' body', .function name' body' ∈ before → findCallSite body' = none) ∧
          findCallSite body = some inner ∧ site = inner.within (functionsOf block)) := by
  rw [findCallSite]
  simp only [← findSome?_setupCall?_eq_none_iff, ← findSome?_setupCall?_eq_some_iff,
    ← findInGuard_eq_none_iff]
  cases hdirect : block.findSome? Stmt.setupCall? with
  | some call =>
    obtain ⟨siteCall, siteBody⟩ := site
    simp [eq_comm]
  | none =>
    simp only [reduceCtorEq, false_and, false_or, true_and]
    cases hguard : findInGuard block with
    | some inner =>
      obtain ⟨body, hbody, hinner⟩ := findInGuard_eq_some_iff.mp hguard
      simp only [Option.some.injEq, reduceCtorEq, false_and, or_false]
      constructor
      · rintro rfl
        exact ⟨body, inner, hbody, hinner, rfl⟩
      · rintro ⟨body', inner', hbody', hinner', rfl⟩
        obtain rfl := hbody.unique hbody'
        rw [Option.some.inj (hinner.symm.trans hinner')]
    | none =>
      have hnone := findInGuard_eq_none_iff.mp hguard
      simp only [Option.map_eq_some_iff, findInFunctions_eq_some_iff, true_and]
      constructor
      · rintro ⟨inner, ⟨before, name, body, after, hblock, hbefore, hinner⟩, rfl⟩
        exact .inr ⟨before, name, body, after, inner, hblock, hbefore, hinner, rfl⟩
      · rintro (⟨body, inner, hbody, hinner, -⟩ |
          ⟨before, name, body, after, inner, hblock, hbefore, hinner, rfl⟩)
        · rw [hnone body hbody] at hinner
          simp only [reduceCtorEq] at hinner
        · exact ⟨inner, ⟨before, name, body, after, hblock, hbefore, hinner⟩, rfl⟩

/-! ### Reachable blocks and the order of the search -/

/-- The blocks that a script is searched through: the script itself, the guard that ends a
reachable block, and the functions that a reachable block defines. -/
inductive Reachable (script : List Stmt) : List Stmt → Prop
  | self : Reachable script script
  | guard {block body : List Stmt} (h : Reachable script block) (hbody : EndsInGuard block body) :
      Reachable script body
  | function {block body : List Stmt} {name : String} (h : Reachable script block)
      (hmem : .function name body ∈ block) : Reachable script body

theorem Reachable.trans {script block inner : List Stmt} (h : Reachable script block)
    (hinner : Reachable block inner) : Reachable script inner := by
  induction hinner with
  | self => exact h
  | guard _ hbody ih => exact ih.guard hbody
  | function _ hmem ih => exact ih.function hmem

/-- A block from which the search takes nothing: none of its statements registers anything, and
nothing is taken from its guard or from its functions. -/
inductive Barren : List Stmt → Prop
  | intro {block : List Stmt} (hdirect : ¬HasSetup block)
      (hguard : ∀ body, EndsInGuard block body → Barren body)
      (hfunctions : ∀ name body, .function name body ∈ block → Barren body) : Barren block

/-- The call that the search takes from a block, by the first rule that gives one. -/
inductive Yields : List Stmt → Call → Prop
  /-- The first registering statement of the block. -/
  | direct {block : List Stmt} {call : Call} (h : FirstSetup block call) : Yields block call
  /-- What the guard that ends the block gives. -/
  | guard {block body : List Stmt} {call : Call} (hdirect : ¬HasSetup block)
      (hbody : EndsInGuard block body) (h : Yields body call) : Yields block call
  /-- What the first function that gives something gives, the guard giving nothing. -/
  | function {before body after : List Stmt} {name : String} {call : Call}
      (hdirect : ¬HasSetup (before ++ .function name body :: after))
      (hguard : ∀ guarded, EndsInGuard (before ++ .function name body :: after) guarded →
        Barren guarded)
      (hbefore : ∀ name' body', .function name' body' ∈ before → Barren body')
      (h : Yields body call) : Yields (before ++ .function name body :: after) call

theorem findCallSite_eq_none_iff_barren {block : List Stmt} :
    findCallSite block = none ↔ Barren block := by
  induction block using block_induction with
  | step block ihguard ihfunctions =>
    rw [findCallSite_eq_none_iff]
    constructor
    · rintro ⟨hdirect, hguard, hfunctions⟩
      exact .intro hdirect (fun body h => (ihguard body h).mp (hguard body h))
        fun name body h => (ihfunctions name body h).mp (hfunctions name body h)
    · rintro ⟨hdirect, hguard, hfunctions⟩
      exact ⟨hdirect, fun body h => (ihguard body h).mpr (hguard body h),
        fun name body h => (ihfunctions name body h).mpr (hfunctions name body h)⟩

theorem Barren.of_reachable {block inner : List Stmt} (h : Barren block)
    (hinner : Reachable block inner) : Barren inner := by
  induction hinner with
  | self => exact h
  | guard _ hbody ih =>
    obtain ⟨-, hguard, -⟩ := ih
    exact hguard _ hbody
  | function _ hmem ih =>
    obtain ⟨-, -, hfunctions⟩ := ih
    exact hfunctions _ _ hmem

/-- Nothing is taken from a block exactly when no block that it is searched through registers
anything. -/
theorem barren_iff {block : List Stmt} :
    Barren block ↔ ∀ inner, Reachable block inner → ¬HasSetup inner := by
  constructor
  · intro h inner hinner
    obtain ⟨hdirect, -, -⟩ := h.of_reachable hinner
    exact hdirect
  · intro h
    induction block using block_induction with
    | step block ihguard ihfunctions =>
      refine .intro (h block .self) (fun body hbody => ?_) fun name body hmem => ?_
      · exact ihguard body hbody fun inner hinner =>
          h inner ((Reachable.self.guard hbody).trans hinner)
      · exact ihfunctions name body hmem fun inner hinner =>
          h inner ((Reachable.self.function hmem).trans hinner)

theorem findCallSite_isSome_iff {block : List Stmt} :
    (findCallSite block).isSome ↔ ∃ inner, Reachable block inner ∧ HasSetup inner := by
  rw [Option.isSome_iff_ne_none, ne_eq, findCallSite_eq_none_iff_barren, barren_iff]
  push Not
  rfl

/-- The call of the site that is found is the one that the order of the search gives. -/
theorem yields_of_findCallSite {block : List Stmt} {site : CallSite}
    (h : findCallSite block = some site) : Yields block site.call := by
  induction block using block_induction generalizing site with
  | step block ihguard ihfunctions =>
    rcases findCallSite_eq_some_iff.mp h with ⟨hfirst, -⟩ |
      ⟨hdirect, body, inner, hbody, hinner, rfl⟩ |
      ⟨hdirect, hguard, before, name, body, after, inner, rfl, hbefore, hinner, rfl⟩
    · exact .direct hfirst
    · have hyields : Yields body inner.call := ihguard body hbody hinner
      exact .guard hdirect hbody hyields
    · have hyields : Yields body inner.call :=
        ihfunctions name body (List.mem_append_right before List.mem_cons_self) hinner
      refine .function hdirect (fun guarded hg => ?_) (fun name' body' hmem => ?_) hyields
      · exact findCallSite_eq_none_iff_barren.mp (hguard guarded hg)
      · exact findCallSite_eq_none_iff_barren.mp (hbefore name' body' hmem)

theorem findCallSite_of_yields {block : List Stmt} {call : Call} (h : Yields block call) :
    ∃ site, findCallSite block = some site ∧ site.call = call := by
  induction h with
  | @direct block call h =>
    exact ⟨⟨call, block⟩, findCallSite_eq_some_iff.mpr (.inl ⟨h, rfl⟩), rfl⟩
  | @guard block body call hdirect hbody _ ih =>
    obtain ⟨inner, hinner, rfl⟩ := ih
    exact ⟨inner.within block, findCallSite_eq_some_iff.mpr
      (.inr (.inl ⟨hdirect, body, inner, hbody, hinner, rfl⟩)), rfl⟩
  | @function before body after name call hdirect hguard hbefore _ ih =>
    obtain ⟨inner, hinner, rfl⟩ := ih
    refine ⟨_, findCallSite_eq_some_iff.mpr (.inr (.inr ⟨hdirect, fun guarded hg => ?_,
      before, name, body, after, inner, rfl, fun name' body' hmem => ?_, hinner, rfl⟩)), rfl⟩
    · exact findCallSite_eq_none_iff_barren.mpr (hguard guarded hg)
    · exact findCallSite_eq_none_iff_barren.mpr (hbefore name' body' hmem)

/-- **The search is complete, sound and takes the right call.** Whatever the script, a call site is
found exactly when a reachable block registers something among its own statements, and the call
found is the one that the rules give in their order at every level. -/
theorem findCallSite_complete_and_prioritized (script : List Stmt) :
    ((findCallSite script).isSome ↔
      ∃ block, Reachable script block ∧ ∃ stmt ∈ block, ∃ call, Registers stmt call) ∧
    ∀ call, (findCallSite script).map (·.call) = some call ↔ Yields script call := by
  refine ⟨findCallSite_isSome_iff, fun call => ?_⟩
  rw [Option.map_eq_some_iff]
  constructor
  · rintro ⟨site, hsite, rfl⟩
    exact yields_of_findCallSite hsite
  · exact findCallSite_of_yields

end Descriptor.Script
