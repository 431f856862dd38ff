import Descriptor.Proofs.Script.Redaction

/-!
# Entry-point guards

A script may keep its registering call, and what the call needs, under an entry-point guard at its
end. The record is then the same as that of the script in which the statements of the guard stand
before all others. They may as well stay behind the others, without the guard, as long as no name is
assigned both under the guard and outside: the first assignment to a name is the one that counts,
and the guard's come first.

## Main definitions

* `Apart` : blocks that assign no name in common.

## Main results

* `lookup?_append_comm` : blocks that are apart give every name one value in either order.
* `recordOf_guarded` : a script with a guard at its end against the script without it.
-/

namespace Descriptor.Script

variable {pre body : List Stmt} {test : Expr}

/-! ### Blocks that assign no name in common -/

/-- Blocks of which no name is assigned, directly, in both. -/
def Apart (pre body : List Stmt) : Prop := ∀ name, Unassigned pre name ∨ Unassigned body name

/-- The values of names do not depend on the order of blocks that are apart. -/
theorem lookup?_append_comm (h : Apart pre body) (name : String) :
    lookup? (pre ++ body) name = lookup? (body ++ pre) name := by
  rw [lookup?_append, lookup?_append]
  rcases h name with hpre | hbody
  · rw [lookup?_eq_none_iff.mpr hpre, Option.none_or, Option.or_none]
  · rw [lookup?_eq_none_iff.mpr hbody, Option.none_or, Option.or_none]

/-- A condition at the end of a block gives no name a value. -/
theorem lookup?_concat_branch (block : List Stmt) (name : String) :
    lookup? (block ++ [.branch test body]) name = lookup? block name := by
  rw [lookup?_append]
  exact Option.or_none

/-! ### The call of a block of two parts -/

theorem exists_firstSetup (h : HasSetup body) : ∃ call, FirstSetup body call := by
  obtain ⟨call, hcall⟩ : ∃ call, body.findSome? Stmt.setupCall? = some call := by
    refine Option.ne_none_iff_exists'.mp fun hnone => ?_
    exact findSome?_setupCall?_eq_none_iff.mp hnone h
  exact ⟨call, findSome?_setupCall?_eq_some_iff.mp hcall⟩

theorem FirstSetup.append_right {call : Call} (h : FirstSetup body call) (after : List Stmt) :
    FirstSetup (body ++ after) call := by
  obtain ⟨before, stmt, rest, rfl, hbefore, hregisters⟩ := h
  exact ⟨before, stmt, rest ++ after, List.append_assoc before _ after, hbefore, hregisters⟩

theorem FirstSetup.append_left {call : Call} (h : FirstSetup body call) (hpre : ¬HasSetup pre) :
    FirstSetup (pre ++ body) call := by
  obtain ⟨before, stmt, rest, rfl, hbefore, hregisters⟩ := h
  refine ⟨pre ++ before, stmt, rest, (List.append_assoc pre before _).symm, ?_, hregisters⟩
  rintro ⟨earlier, hmem, hearlier⟩
  rcases List.mem_append.mp hmem with hmem | hmem
  · exact hpre ⟨earlier, hmem, hearlier⟩
  · exact hbefore ⟨earlier, hmem, hearlier⟩

theorem not_hasSetup_concat_branch (hpre : ¬HasSetup pre) :
    ¬HasSetup (pre ++ [.branch test body]) := by
  rintro ⟨stmt, hmem, call, hcall⟩
  rcases List.mem_append.mp hmem with hmem | hmem
  · exact hpre ⟨stmt, hmem, call, hcall⟩
  · obtain rfl := List.mem_singleton.mp hmem
    cases hcall

/-! ### Call sites of guarded scripts -/

theorem findCallSite_of_firstSetup {block : List Stmt} {call : Call} (h : FirstSetup block call) :
    findCallSite block = some ⟨call, block⟩ :=
  findCallSite_eq_some_iff.mpr (.inl ⟨h, rfl⟩)

/-- The call under a guard sees the guard's statements and, behind them, the whole script. -/
theorem findCallSite_guarded {call : Call} (hpre : ¬HasSetup pre) (htest : GuardTest test)
    (h : FirstSetup body call) :
    findCallSite (pre ++ [.branch test body]) =
      some ⟨call, body ++ (pre ++ [.branch test body])⟩ :=
  findCallSite_eq_some_iff.mpr <| .inr <| .inl
    ⟨not_hasSetup_concat_branch hpre, body, _, .intro pre htest body,
      findCallSite_of_firstSetup h, rfl⟩

theorem recordOf_eq_of_sameView {script other : List Stmt} {site site' : CallSite}
    (h : findCallSite script = some site) (h' : findCallSite other = some site')
    (hview : SameView site site') : recordOf other = recordOf script := by
  rw [recordOf, recordOf, h, h', Option.map_some, Option.map_some, hview.record_eq]

/-- **A guard does not change what is read.** Let a script end in an entry-point guard that
registers something among its own statements, nothing being registered before it. Its record is that
of the guard's statements with the others behind them; and where no name is assigned both before the
guard and under it, it is that of the script with the guard taken away. -/
theorem recordOf_guarded (hpre : ¬HasSetup pre) (htest : GuardTest test) (hbody : HasSetup body) :
    recordOf (pre ++ [.branch test body]) = recordOf (body ++ pre) ∧
      (Apart pre body → recordOf (pre ++ [.branch test body]) = recordOf (pre ++ body)) := by
  obtain ⟨call, hcall⟩ := exists_firstSetup hbody
  have hguarded := findCallSite_guarded hpre htest hcall
  have hlookup (name : String) :
      lookup? (body ++ (pre ++ [.branch test body])) name = lookup? (body ++ pre) name := by
    rw [← List.append_assoc, lookup?_concat_branch]
  refine ⟨?before, fun hapart => ?behind⟩
  case before =>
    have hsite := findCallSite_of_firstSetup (hcall.append_right pre)
    exact recordOf_eq_of_sameView hsite hguarded ⟨rfl, hlookup⟩
  case behind =>
    have hsite := findCallSite_of_firstSetup (hcall.append_left hpre)
    refine recordOf_eq_of_sameView hsite hguarded ⟨rfl, fun name => ?_⟩
    rw [hlookup, lookup?_append_comm hapart]

private def mainGuard : Expr := .compare (.text "__main__") [.eq] [.name "__name__"]

private def beforeGuard : List Stmt :=
  [.assign "NAME" (.text "outer"), .function "setup" [], .branch mainGuard []]

private def underGuard : List Stmt :=
  [.expr (.call (.name "print") [] []),
    .expr (.call (.attribute (.name "setuptools") "setup") [] [.named "name" (.name "NAME"),
      .named "version" (.name "VERSION")]),
    .assign "VERSION" (.text "1.0")]

private theorem apart_underGuard : Apart beforeGuard underGuard := by
  intro name
  by_cases h : name = "NAME"
  · subst h
    exact .inr fun value => by simp [underGuard]
  · exact .inl fun value => by simp [beforeGuard, h]

theorem recordOf_guarded_underGuard :
    ¬HasSetup beforeGuard ∧ GuardTest mainGuard ∧ HasSetup underGuard ∧
      Apart beforeGuard underGuard ∧
      recordOf (beforeGuard ++ [.branch mainGuard underGuard]) =
        recordOf (underGuard ++ beforeGuard) ∧
      recordOf (beforeGuard ++ [.branch mainGuard underGuard]) =
        recordOf (beforeGuard ++ underGuard) := by
  have hpre : ¬HasSetup beforeGuard := findSome?_setupCall?_eq_none_iff.mp rfl
  have htest : GuardTest mainGuard := .literalFirst _
  have hbody : HasSetup underGuard :=
    ⟨_, List.mem_cons_of_mem _ List.mem_cons_self, _, .intro .member [] _⟩
  obtain ⟨hbefore, hbehind⟩ := recordOf_guarded hpre htest hbody
  exact ⟨hpre, htest, hbody, apart_underGuard, hbefore, hbehind apart_underGuard⟩

end Descriptor.Script
