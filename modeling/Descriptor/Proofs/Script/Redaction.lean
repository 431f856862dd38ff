import Descriptor.Proofs.Script.Fields
import Descriptor.Proofs.Script.Visibility
import Mathlib.Data.Option.Basic
import Mathlib.Logic.Relation

/-!
# What has no influence on a record

Much of a script can be blotted out without a change to the record that it registers: expressions
that register nothing; conditions that do not end their block or are no entry-point guards, with all
that stands under them; and the assignments of blocks that are never seen as a whole, since they
register nothing themselves and end in no guard with a call to find in it. The statements may stand
in any blocks, at any depth, and be as many as one likes.

## Main definitions

* `Idle` : a statement of a block that has no influence.
* `Redacts`, `Redacted` : blocks in which some idle statements, here and deeper down, are replaced
  by ones that say nothing.
* `SameView`, `SameSites` : call sites with one call that give every name the same value, where
  there are any.

## Main results

* `Redacted.sameSites` : the searches of a block and of a redacted one end at sites of one view.
* `recordOf_redacted` : redacting a script keeps its record.
-/

namespace Descriptor.Script

/-! ### Idle statements -/

/-- A block that registers nothing itself and ends in no guard with a call to find in it. -/
structure Unseen (block : List Stmt) : Prop where
  direct : ¬HasSetup block
  guard : ∀ body, EndsInGuard block body → ∀ inner, Reachable body inner → ¬HasSetup inner

/-- A statement of a block, with given statements behind it, that has no influence. -/
inductive Idle (block after : List Stmt) : Stmt → Prop
  | expression {value : Expr} (h : ∀ call, ¬Registers (.expr value) call) :
      Idle block after (.expr value)
  | notLast (test : Expr) (body : List Stmt) (h : after ≠ []) :
      Idle block after (.branch test body)
  | notGuard {test : Expr} (h : ¬GuardTest test) (body : List Stmt) :
      Idle block after (.branch test body)
  | assignment (target : String) (value : Expr) (h : Unseen block) :
      Idle block after (.assign target value)

/-- A rest of a block in which idle statements, and idle statements of the blocks within, are
replaced by ones that say nothing. Which statements are idle is told from the block as it was. -/
inductive Redacts : List Stmt → List Stmt → List Stmt → Prop
  | nil (block : List Stmt) : Redacts block [] []
  | keep {block after after' : List Stmt} (stmt : Stmt) (h : Redacts block after after') :
      Redacts block (stmt :: after) (stmt :: after')
  | blot {block after after' : List Stmt} {stmt : Stmt} (hidle : Idle block after stmt)
      (h : Redacts block after after') : Redacts block (stmt :: after) (.other :: after')
  | branch {block after after' body body' : List Stmt} (test : Expr)
      (hbody : Redacts body body body') (h : Redacts block after after') :
      Redacts block (.branch test body :: after) (.branch test body' :: after')
  | function {block after after' body body' : List Stmt} (name : String)
      (hbody : Redacts body body body') (h : Redacts block after after') :
      Redacts block (.function name body :: after) (.function name body' :: after')

/-- A block in which some idle statements, here and deeper down, are replaced by ones that say
nothing. -/
def Redacted (block redacted : List Stmt) : Prop := Redacts block block redacted

section Idle

variable {block after : List Stmt} {stmt : Stmt}

theorem Idle.setupCall?_eq_none (h : Idle block after stmt) : stmt.setupCall? = none := by
  cases h with
  | expression h =>
    refine Option.eq_none_iff_forall_ne_some.mpr fun call hcall => ?_
    exact h call (setupCall?_eq_some_iff.mp hcall)
  | _ => rfl

theorem Idle.siteWithin?_eq_none (h : Idle block after stmt) : stmt.siteWithin? = none := by
  cases h <;> rfl

/-- An idle statement of a block that is seen as a whole gives no name a value. -/
theorem Idle.assigned?_eq_none (h : Idle block after stmt) (hseen : ¬Unseen block) (name : String) :
    stmt.assigned? name = none := by
  cases h with
  | assignment target value h => exact absurd h hseen
  | _ => rfl

/-- The guard that ends a block is not idle. -/
theorem Idle.findInGuard_singleton (h : Idle block [] stmt) : findInGuard [stmt] = none := by
  cases h with
  | notLast test body h => exact absurd rfl h
  | notGuard h body =>
    rw [findInGuard, if_neg fun hguard => h (isEntryGuard_iff.mp hguard)]
  | _ => simp [findInGuard]

end Idle

/-! ### Sites of one view -/

/-- Call sites with one call that give every name the same value. -/
structure SameView (site other : CallSite) : Prop where
  call_eq : other.call = site.call
  lookup?_eq : ∀ name, lookup? other.body name = lookup? site.body name

/-- Call sites of one view have one record. -/
theorem SameView.record_eq {site other : CallSite} (h : SameView site other) :
    other.record = site.record := by
  refine CallSite.record_congr (fun keyword => ?_) fun _ value _ =>
    CallSite.alike_of_lookup?_eq h.lookup?_eq value
  simp only [CallSite.value?, h.call_eq, h.lookup?_eq]

theorem lookup?_append (body outer : List Stmt) (name : String) :
    lookup? (body ++ outer) name = (lookup? body name).or (lookup? outer name) :=
  List.findSome?_append

theorem SameView.within {site other : CallSite} {outer outer' : List Stmt}
    (h : SameView site other) (houter : ∀ name, lookup? outer' name = lookup? outer name) :
    SameView (site.within outer) (other.within outer') where
  call_eq := h.call_eq
  lookup?_eq name := by
    simp only [CallSite.within, lookup?_append, h.lookup?_eq, houter]

/-! ### The search of a redacted block -/

namespace Redacts

variable {block after after' : List Stmt}

theorem ne_nil_iff (h : Redacts block after after') : after' ≠ [] ↔ after ≠ [] := by
  cases h <;> simp

/-- The registering calls of a block are kept. -/
theorem findSome?_setupCall? (h : Redacts block after after') :
    after'.findSome? Stmt.setupCall? = after.findSome? Stmt.setupCall? := by
  induction h with
  | nil => rfl
  | keep stmt _ ih => rw [List.findSome?_cons, List.findSome?_cons, ih]
  | blot hidle _ ih =>
    rw [List.findSome?_cons, List.findSome?_cons, hidle.setupCall?_eq_none, ih]
    rfl
  | branch test _ _ _ ih => exact ih
  | function name _ _ _ ih => exact ih

/-- The assignments of a block that is seen as a whole are kept. -/
theorem lookup?_eq (h : Redacts block after after') (hseen : ¬Unseen block) (name : String) :
    lookup? after' name = lookup? after name := by
  induction h with
  | nil => rfl
  | keep stmt _ ih => rw [lookup?, List.findSome?_cons, ← lookup?, ih hseen]; rfl
  | blot hidle _ ih =>
    rw [lookup?, List.findSome?_cons, ← lookup?, ih hseen]
    rw [lookup?, lookup?, List.findSome?_cons, hidle.assigned?_eq_none hseen]
    rfl
  | branch test _ _ _ ih => exact ih hseen
  | function name _ _ _ ih => exact ih hseen

end Redacts

theorem EndsInGuard.cons {block body : List Stmt} (h : EndsInGuard block body) (stmt : Stmt) :
    EndsInGuard (stmt :: block) body := by
  obtain ⟨before, htest, body⟩ := h
  exact .intro (stmt :: before) htest body

private theorem findInGuard_cons {block : List Stmt} (h : block ≠ []) (stmt : Stmt) :
    findInGuard (stmt :: block) = findInGuard block := by
  rw [findInGuard]
  rintro test body - rfl
  exact h rfl

/-- Searches that end alike: both at sites of one view, or neither at any. -/
abbrev SameSites (found found' : Option CallSite) : Prop := Option.Rel SameView found found'

theorem SameSites.refl (found : Option CallSite) : SameSites found found := by
  cases found with
  | none => exact .none
  | some site => exact .some ⟨rfl, fun _ => rfl⟩

/-- Guards are searched alike where the last statements are and all statements behind are. -/
private theorem sameSites_guard_cons {block rest rest' : List Stmt} {stmt stmt' : Stmt}
    (h : Redacts block rest rest')
    (hlast : rest = [] → SameSites (findInGuard [stmt]) (findInGuard [stmt']))
    (hrest : SameSites (findInGuard rest) (findInGuard rest')) :
    SameSites (findInGuard (stmt :: rest)) (findInGuard (stmt' :: rest')) := by
  by_cases hnil : rest = []
  · subst hnil
    cases h
    exact hlast rfl
  · rwa [findInGuard_cons hnil, findInGuard_cons (h.ne_nil_iff.mpr hnil)]

/-- Functions are searched alike where the first statements are and all statements behind are. -/
private theorem sameSites_functions_cons {rest rest' : List Stmt} {stmt stmt' : Stmt}
    (hfirst : SameSites stmt.siteWithin? stmt'.siteWithin?)
    (hrest : SameSites (findInFunctions rest) (findInFunctions rest')) :
    SameSites (findInFunctions (stmt :: rest)) (findInFunctions (stmt' :: rest')) := by
  simp only [findInFunctions_eq_findSome?, List.findSome?_cons] at hrest ⊢
  generalize stmt.siteWithin? = found, stmt'.siteWithin? = found' at hfirst
  cases hfirst with
  | some h => exact .some h
  | none => exact hrest

namespace Redacts

variable {block after after' : List Stmt}

theorem sameSites_guard (h : Redacts block after after')
    (ih : ∀ body body', EndsInGuard after body → Redacted body body' →
      SameSites (findCallSite body) (findCallSite body')) :
    SameSites (findInGuard after) (findInGuard after') := by
  induction h with
  | nil => exact .refl _
  | keep stmt h ihrest =>
    exact sameSites_guard_cons h (fun _ => .refl _) (ihrest fun _ _ hb => ih _ _ (hb.cons stmt))
  | @blot block rest rest' stmt hidle h ihrest =>
    refine sameSites_guard_cons h (fun hnil => ?_) (ihrest fun _ _ hb => ih _ _ (hb.cons stmt))
    subst hnil
    rw [hidle.findInGuard_singleton]
    simp [findInGuard]
  | @branch block rest rest' body body' test hbody h _ ihrest =>
    refine sameSites_guard_cons h (fun hnil => ?_) (ihrest fun _ _ hb => ih _ _ (hb.cons _))
    subst hnil
    rw [findInGuard, findInGuard]
    split
    · next htest =>
      exact ih body body' (.intro [] (isEntryGuard_iff.mp htest) body) hbody
    · exact .none
  | function name hbody h _ ihrest =>
    refine sameSites_guard_cons h (fun _ => ?_) (ihrest fun _ _ hb => ih _ _ (hb.cons _))
    simp [findInGuard]

theorem sameSites_functions (h : Redacts block after after')
    (ih : ∀ name body body', .function name body ∈ after → Redacted body body' →
      SameSites (findCallSite body) (findCallSite body')) :
    SameSites (findInFunctions after) (findInFunctions after') := by
  have hmem {stmt : Stmt} {rest : List Stmt} {name : String} {body : List Stmt}
      (h : .function name body ∈ rest) : .function name body ∈ stmt :: rest :=
    List.mem_cons_of_mem stmt h
  induction h with
  | nil => exact .refl _
  | keep stmt h ihrest =>
    exact sameSites_functions_cons (.refl _) (ihrest fun _ _ _ hb => ih _ _ _ (hmem hb))
  | blot hidle h ihrest =>
    refine sameSites_functions_cons ?_ (ihrest fun _ _ _ hb => ih _ _ _ (hmem hb))
    rw [hidle.siteWithin?_eq_none]
    exact .none
  | branch test hbody h _ ihrest =>
    exact sameSites_functions_cons .none (ihrest fun _ _ _ hb => ih _ _ _ (hmem hb))
  | function name hbody h _ ihrest =>
    exact sameSites_functions_cons (ih _ _ _ List.mem_cons_self hbody)
      (ihrest fun _ _ _ hb => ih _ _ _ (hmem hb))

end Redacts

/-- A block that is left for a call through the guard that ends it is seen as a whole. -/
theorem not_unseen_of_findInGuard {block : List Stmt} {site : CallSite}
    (h : findInGuard block = some site) : ¬Unseen block := by
  obtain ⟨body, hbody, hsite⟩ := findInGuard_eq_some_iff.mp h
  obtain ⟨inner, hinner, hsetup⟩ :=
    findCallSite_isSome_iff.mp (Option.isSome_iff_exists.mpr ⟨site, hsite⟩)
  exact fun hunseen => hunseen.guard body hbody inner hinner hsetup

/-- The searches of a block and of a redacted one end alike. -/
theorem Redacted.sameSites {block redacted : List Stmt} (h : Redacted block redacted) :
    SameSites (findCallSite block) (findCallSite redacted) := by
  induction block using block_induction generalizing redacted with
  | step block ihguard ihfunctions =>
    have hguard := h.sameSites_guard fun body body' hbody hred => ihguard body hbody hred
    have hfunctions := h.sameSites_functions fun name body body' hmem hred =>
      ihfunctions name body hmem hred
    rw [findCallSite, findCallSite, h.findSome?_setupCall?]
    cases hdirect : block.findSome? Stmt.setupCall? with
    | some call =>
      obtain ⟨before, stmt, after, rfl, -, hregisters⟩ :=
        findSome?_setupCall?_eq_some_iff.mp hdirect
      have hseen : ¬Unseen (before ++ stmt :: after) := fun hunseen =>
        hunseen.direct ⟨stmt, List.mem_append_right before List.mem_cons_self, call, hregisters⟩
      exact .some ⟨rfl, h.lookup?_eq hseen⟩
    | none =>
      cases hfound : findInGuard block with
      | some site =>
        rw [hfound] at hguard
        cases hfound' : findInGuard redacted with
        | none => rw [hfound'] at hguard; cases hguard
        | some site' =>
          rw [hfound'] at hguard
          cases hguard with
          | some hview =>
            exact .some (hview.within (h.lookup?_eq (not_unseen_of_findInGuard hfound)))
      | none =>
        rw [hfound] at hguard
        generalize findInGuard redacted = found' at hguard
        cases hguard
        generalize findInFunctions block = found, findInFunctions redacted = found' at hfunctions
        cases hfunctions with
        | none => exact .none
        | some hview =>
          refine .some (hview.within fun name => ?_)
          rw [lookup?_functionsOf, lookup?_functionsOf]

/-- **What has no influence on a record.** A script and what is left of it when any of its idle
statements, in any blocks, are replaced by ones that say nothing, as often as one likes, register
the same record; and so does every other script of which the same is left. So it does not matter
which values are assigned under a condition, or outside the function that holds the call. -/
theorem recordOf_redacted {script redacted : List Stmt}
    (h : Relation.ReflTransGen Redacted script redacted) :
    recordOf redacted = recordOf script ∧
      ∀ other, Relation.ReflTransGen Redacted other redacted →
        recordOf other = recordOf script := by
  have hstep {block block' : List Stmt} (h : Redacted block block') :
      recordOf block' = recordOf block := by
    have hsites := h.sameSites
    unfold recordOf
    generalize findCallSite block = found, findCallSite block' = found' at hsites
    cases hsites with
    | none => rfl
    | some hview => exact congrArg (fun r => (some r).getD .unknown) hview.record_eq
  have hrun {block block' : List Stmt} (h : Relation.ReflTransGen Redacted block block') :
      recordOf block' = recordOf block := by
    induction h with
    | refl => rfl
    | tail _ hlast ih => exact (hstep hlast).trans ih
  exact ⟨hrun h, fun other hother => (hrun hother).symm.trans (hrun h)⟩

private def setupStmt : Stmt := .expr (.call (.name "setup") [] [.named "name" (.name "NAME")])

private def guardTest : Expr := .compare (.name "__name__") [.eq] [.text "__main__"]

/-- A script whose call stands in a function, behind a guard that does not end its block, with the
name of the package assigned in the script, under a condition, and in the function. -/
def scatteredScript : List Stmt :=
  [.assign "NAME" (.text "script"), .branch (.name "DEBUG") [.assign "NAME" (.text "debug")],
    .function "main" [.expr (.call (.name "print") [] []), .branch guardTest [setupStmt],
      .assign "NAME" (.text "main"), setupStmt]]

/-- What is left of `scatteredScript`: the function with its last two statements. -/
def scatteredRest : List Stmt :=
  [.other, .other, .function "main" [.other, .other, .assign "NAME" (.text "main"), setupStmt]]

private theorem unseen_scatteredScript : Unseen scatteredScript where
  direct := findSome?_setupCall?_eq_none_iff.mp rfl
  guard body h := by
    generalize hblock : scatteredScript = block at h
    obtain ⟨before, htest, body⟩ := h
    have hlast := congrArg List.getLast? hblock
    simp [scatteredScript] at hlast

theorem recordOf_redacted_scatteredScript :
    Relation.ReflTransGen Redacted scatteredScript scatteredRest ∧
      recordOf scatteredRest = recordOf scatteredScript ∧
      ∀ other, Relation.ReflTransGen Redacted other scatteredRest →
        recordOf other = recordOf scatteredScript := by
  have hprint : ∀ call, ¬Registers (.expr (.call (.name "print") [] [])) call :=
    fun call h => by
      have hcall := setupCall?_eq_some_iff.mpr h
      simp [Stmt.setupCall?, isSetupFunction] at hcall
  have hdebug : ¬GuardTest (.name "DEBUG") := fun h => by
    have htest := isEntryGuard_iff.mpr h
    simp [isEntryGuard] at htest
  have hred : Redacted scatteredScript scatteredRest :=
    .blot (.assignment _ _ unseen_scatteredScript) <| .blot (.notGuard hdebug _) <|
      .function "main" (.blot (.expression hprint) <| .blot (.notLast _ _ (List.cons_ne_nil _ _)) <|
        .keep _ <| .keep _ <| .nil _) <| .nil _
  have h : Relation.ReflTransGen Redacted scatteredScript scatteredRest := .single hred
  exact ⟨h, recordOf_redacted h⟩

end Descriptor.Script
