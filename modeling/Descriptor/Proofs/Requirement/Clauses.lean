import Descriptor.Proofs.Text.Squeeze
import Descriptor.Requirement.Partition
import Mathlib.Data.List.Basic

/-!
# Markers and their clauses

Laws of the functions that take a requirement and its marker apart. The clauses of a marker, joined
again, give the marker; clauses of two markers that the word `and` joins are the clauses of both,
unless the first marker ends in a word `and` of its own. The group of a marker is named by the
first of its clauses that names one. Clauses that are left of a squeezed marker, joined again, are
found again.

## Main definitions

* `Apart` : clauses that can be told apart when they are joined.
* `TakenClause` : the clauses of a marker around the one that is taken.
* `GroupClause` : the clauses that name a given group, by what they are written with.

## Main results

* `joinClauses_clauses`, `clauses_append`, `clauses_of_no_conjunction` : clauses and the word `and`.
* `Apart.clauses_joinClauses`, `isSqueezed_joinClauses_iff` : clauses that are joined again.
* `takeGroup?_eq_none_iff`, `exists_of_takeGroup?` : the clause that is taken.
* `TakenClause.spec_others` : the clauses that are left.
* `groupClause_of_extraGroup?` : what a clause that names a group looks like.
-/

namespace Descriptor.Requirement

open Text

/-! ### The marker of a requirement -/

theorem splitMarker_append_of_not_mem {before : List Char} (h : ';' ∉ before)
    (after : List Char) :
    splitMarker (before ++ after) = (before ++ (splitMarker after).1, (splitMarker after).2) := by
  induction before with
  | nil => rfl
  | cons c before ih =>
    rw [List.cons_append, splitMarker, ih fun hmem => h (List.mem_cons_of_mem c hmem)]
    · rfl
    · rintro rfl
      exact h List.mem_cons_self

theorem splitMarker_of_not_mem {front : List Char} (h : ';' ∉ front) :
    splitMarker front = (front, none) := by
  simpa [splitMarker] using splitMarker_append_of_not_mem h []

theorem splitMarker_append {front : List Char} (h : ';' ∉ front) (text : List Char) :
    splitMarker (front ++ ';' :: text) = (front, some text) := by
  simp [splitMarker_append_of_not_mem h, splitMarker]

theorem splitMarker_eq_none_iff {cs : List Char} : (splitMarker cs).2 = none ↔ ';' ∉ cs := by
  refine ⟨fun h hmem => ?_, fun h => by rw [splitMarker_of_not_mem h]⟩
  obtain ⟨front, text, rfl, hfront⟩ := List.eq_append_cons_of_mem hmem
  rw [splitMarker_append hfront] at h
  exact absurd h (Option.some_ne_none text)

/-- The marker stands behind the first semicolon. -/
theorem exists_of_splitMarker {cs text : List Char} (h : (splitMarker cs).2 = some text) :
    ∃ front, ';' ∉ front ∧ cs = front ++ ';' :: text := by
  fun_induction splitMarker cs with
  | case1 => simp only [reduceCtorEq] at h
  | case2 marker =>
    obtain rfl := Option.some.inj h
    exact ⟨[], List.not_mem_nil, rfl⟩
  | case3 c rest hne ih =>
    obtain ⟨front, hfront, rfl⟩ := ih h
    refine ⟨c :: front, ?_, rfl⟩
    rw [List.mem_cons, not_or]
    exact ⟨fun hc => hne hc.symm, hfront⟩

theorem semicolon_not_mem_compact {front : List Char} : ';' ∈ compact front ↔ ';' ∈ front := by
  have hloose : isLoose ';' = false := by decide
  simp [compact, List.mem_filter, hloose]

/-! ### Clauses and the word between them -/

private theorem clausesFrom_ne_nil (clause cs : List Char) : clausesFrom clause cs ≠ [] := by
  fun_induction clausesFrom clause cs <;> simp_all

private theorem joinClauses_clausesFrom (clause cs : List Char) :
    joinClauses (clausesFrom clause cs) = clause.reverse ++ cs := by
  fun_induction clausesFrom clause cs with
  | case1 clause => simp [joinClauses]
  | case2 clause rest ih =>
    rw [joinClauses] at ih ⊢
    rw [List.intercalate_cons_of_ne_nil (clausesFrom_ne_nil [] rest), ih]
    simp [conjunction]
  | case3 clause c rest _ ih => simpa using ih

/-- The clauses of a marker, joined again, give the marker. -/
theorem joinClauses_clauses (marker : List Char) : joinClauses (clauses marker) = marker :=
  joinClauses_clausesFrom [] marker

theorem joinClauses_append {xs ys : List (List Char)} (hxs : xs ≠ []) (hys : ys ≠ []) :
    joinClauses (xs ++ ys) = joinClauses xs ++ conjunction ++ joinClauses ys :=
  intercalate_append hxs hys

/-- A text that does not end in a word `and` does not begin the word `and` behind it. -/
private theorem not_conjunction_of_not_suffix {rest second tail : List Char}
    (h : ¬[' ', 'a', 'n', 'd'] <:+ ' ' :: rest)
    (hrest : ∀ tail, rest ≠ 'a' :: 'n' :: 'd' :: ' ' :: tail) :
    rest ++ conjunction ++ second ≠ 'a' :: 'n' :: 'd' :: ' ' :: tail := by
  intro heq
  rcases rest with _ | ⟨x, _ | ⟨y, _ | ⟨z, _ | ⟨w, rest⟩⟩⟩⟩
  · simp [conjunction] at heq
  · simp [conjunction] at heq
  · simp [conjunction] at heq
  · -- the only overlap: the text itself ends in the word
    simp only [List.cons_append, List.cons.injEq] at heq
    obtain ⟨rfl, rfl, rfl, -⟩ := heq
    exact h (List.suffix_refl _)
  · simp only [List.cons_append, List.cons.injEq] at heq
    obtain ⟨rfl, rfl, rfl, rfl, -⟩ := heq
    exact hrest rest rfl

private theorem clausesFrom_append (clause : List Char) {first : List Char}
    (h : ¬[' ', 'a', 'n', 'd'] <:+ first) (second : List Char) :
    clausesFrom clause (first ++ conjunction ++ second) =
      clausesFrom clause first ++ clauses second := by
  fun_induction clausesFrom clause first with
  | case1 clause => rfl
  | case2 clause rest ih =>
    have hrest : ¬[' ', 'a', 'n', 'd'] <:+ rest := fun hsuffix =>
      h (hsuffix.trans ⟨[' ', 'a', 'n', 'd', ' '], rfl⟩)
    exact congrArg (clause.reverse :: ·) (ih hrest)
  | case3 clause c rest hne ih =>
    have hrest : ¬[' ', 'a', 'n', 'd'] <:+ rest := fun hsuffix =>
      h (hsuffix.trans (List.suffix_cons c rest))
    rw [List.cons_append, List.cons_append, clausesFrom, ← ih hrest]
    rintro tail rfl
    exact not_conjunction_of_not_suffix h fun tail => hne tail rfl

/-- The clauses of two markers joined by the word `and` are those of both, where the first marker
does not end in that word. -/
theorem clauses_append {first : List Char} (h : ¬[' ', 'a', 'n', 'd'] <:+ first)
    (second : List Char) :
    clauses (first ++ conjunction ++ second) = clauses first ++ clauses second :=
  clausesFrom_append [] h second

private theorem clausesFrom_of_no_conjunction {clause cs : List Char} (h : ¬conjunction <:+: cs) :
    clausesFrom clause cs = [clause.reverse ++ cs] := by
  fun_induction clausesFrom clause cs with
  | case1 clause => simp
  | case2 clause rest ih => exact absurd ⟨[], rest, rfl⟩ h
  | case3 clause c rest _ ih =>
    rw [ih fun hrest => h (hrest.trans (List.suffix_cons c rest).isInfix)]
    simp

/-- A marker without a word `and` is one clause. -/
theorem clauses_of_no_conjunction {marker : List Char} (h : ¬conjunction <:+: marker) :
    clauses marker = [marker] :=
  clausesFrom_of_no_conjunction h

/-! ### Clauses that are joined and taken apart again -/

/-- Clauses that can be told apart when they are joined: the word between clauses occurs in none of
them, and none but the last ends in a word `and`. -/
structure Apart (cs : List (List Char)) : Prop where
  no_conjunction : ∀ c ∈ cs, ¬conjunction <:+: c
  not_suffix : ∀ c ∈ cs.dropLast, ¬[' ', 'a', 'n', 'd'] <:+ c

theorem Apart.sublist {cs ds : List (List Char)} (h : Apart cs) (hsub : ds.Sublist cs) :
    Apart ds where
  no_conjunction c hc := h.no_conjunction c (hsub.subset hc)
  not_suffix c hc := by
    have hlast := hsub.reverse.tail
    rw [List.tail_reverse, List.tail_reverse, List.reverse_sublist] at hlast
    exact h.not_suffix c (hlast.subset hc)

/-- Clauses that can be told apart are found again once they are joined. -/
theorem Apart.clauses_joinClauses {cs : List (List Char)} (h : Apart cs) (hne : cs ≠ []) :
    clauses (joinClauses cs) = cs := by
  induction cs with
  | nil => exact absurd rfl hne
  | cons c cs ih =>
    have hc : clauses c = [c] := clauses_of_no_conjunction (h.no_conjunction c List.mem_cons_self)
    by_cases hcs : cs = []
    · rw [hcs, joinClauses, List.intercalate_singleton, hc]
    · have hsuffix : ¬[' ', 'a', 'n', 'd'] <:+ c :=
        h.not_suffix c (by rw [List.dropLast_cons_of_ne_nil hcs]; exact List.mem_cons_self)
      have hjoin : joinClauses (c :: cs) = c ++ conjunction ++ joinClauses cs :=
        List.intercalate_cons_of_ne_nil hcs
      rw [hjoin, clauses_append hsuffix, ih (h.sublist (List.sublist_cons_self c cs)) hcs, hc,
        List.singleton_append]

/-- The word between clauses does not begin within the unfinished clause. -/
private theorem apart_clausesFrom {clause cs : List Char}
    (h : ∀ before after, clause.reverse ++ cs = before ++ conjunction ++ after →
      clause.length ≤ before.length) : Apart (clausesFrom clause cs) := by
  fun_induction clausesFrom clause cs with
  | case1 clause =>
    refine ⟨fun c hc => ?_, fun c hc => absurd hc List.not_mem_nil⟩
    obtain rfl := List.mem_singleton.mp hc
    rintro ⟨before, after, heq⟩
    have hbefore := h before after (by rw [List.append_nil, heq])
    have hlength := congrArg List.length heq
    simp only [conjunction, List.length_append, List.length_cons, List.length_reverse] at hlength
    omega
  | case2 clause rest ih =>
    have hrest : Apart (clausesFrom [] rest) := ih fun _ _ _ => Nat.zero_le _
    have hclause : ¬conjunction <:+: clause.reverse := by
      rintro ⟨before, after, heq⟩
      have hbefore := h before (after ++ conjunction ++ rest) (by rw [← heq]; simp [conjunction])
      have hlength := congrArg List.length heq
      simp only [conjunction, List.length_append, List.length_cons, List.length_reverse] at hlength
      omega
    have hsuffix : ¬[' ', 'a', 'n', 'd'] <:+ clause.reverse := by
      rintro ⟨before, heq⟩
      have hbefore := h before ('a' :: 'n' :: 'd' :: ' ' :: rest)
        (by rw [← heq]; simp [conjunction])
      have hlength := congrArg List.length heq
      simp only [List.length_append, List.length_cons, List.length_reverse] at hlength
      omega
    refine ⟨fun c hc => ?_, fun c hc => ?_⟩
    · rcases List.mem_cons.mp hc with rfl | hc
      · exact hclause
      · exact hrest.no_conjunction c hc
    · rw [List.dropLast_cons_of_ne_nil (clausesFrom_ne_nil [] rest)] at hc
      rcases List.mem_cons.mp hc with rfl | hc
      · exact hsuffix
      · exact hrest.not_suffix c hc
  | case3 clause c rest hne ih =>
    refine ih fun before after heq => ?_
    have heq' : clause.reverse ++ c :: rest = before ++ (conjunction ++ after) := by
      rw [← List.append_assoc, ← heq]
      simp
    have hle := h before after (by rw [heq', List.append_assoc])
    refine Nat.lt_of_le_of_ne hle fun hlength => ?_
    obtain ⟨hc, hrest⟩ := List.cons.inj (List.append_inj heq' (by simpa using hlength)).2
    exact hne after hc hrest

/-- The clauses of a marker can be told apart. -/
theorem apart_clauses (marker : List Char) : Apart (clauses marker) :=
  apart_clausesFrom fun _ _ _ => Nat.zero_le _

theorem clauses_ne_nil (marker : List Char) : clauses marker ≠ [] := clausesFrom_ne_nil [] marker

/-! ### Squeezed clauses -/

private theorem isSqueezed_append_conjunction_iff {xs ys : List Char} :
    IsSqueezed (xs ++ conjunction ++ ys) ↔ IsSqueezed xs ∧ IsSqueezed ys := by
  have hword : IsSqueezed ['a', 'n', 'd'] := ⟨by decide, List.cons_ne_nil _ _⟩
  have hshape : xs ++ conjunction ++ ys = xs ++ ' ' :: (['a', 'n', 'd'] ++ ' ' :: ys) := by
    simp [conjunction]
  rw [hshape, isSqueezed_append_space_iff, isSqueezed_append_space_iff, and_iff_right hword]

/-- Joined clauses are squeezed if and only if each of them is. -/
theorem isSqueezed_joinClauses_iff {cs : List (List Char)} (hne : cs ≠ []) :
    IsSqueezed (joinClauses cs) ↔ ∀ c ∈ cs, IsSqueezed c := by
  induction cs with
  | nil => exact absurd rfl hne
  | cons c cs ih =>
    by_cases hcs : cs = []
    · simp [hcs, joinClauses]
    · have hjoin : joinClauses (c :: cs) = c ++ conjunction ++ joinClauses cs :=
        List.intercalate_cons_of_ne_nil hcs
      rw [hjoin, isSqueezed_append_conjunction_iff, ih hcs, List.forall_mem_cons]

/-! ### The clause that names a group -/

theorem takeGroup?_eq_none_iff {cs : List (List Char)} :
    takeGroup? cs = none ↔ ∀ clause ∈ cs, extraGroup? clause = none := by
  induction cs with
  | nil => simp [takeGroup?]
  | cons clause cs ih =>
    rw [takeGroup?]
    cases hclause : extraGroup? clause <;> simp [hclause, ih]

theorem takeGroup?_append {before after : List (List Char)} {clause group : List Char}
    (hbefore : ∀ c ∈ before, extraGroup? c = none) (hclause : extraGroup? clause = some group) :
    takeGroup? (before ++ clause :: after) = some (group, before ++ after) := by
  induction before with
  | nil => rw [List.nil_append, takeGroup?, hclause, List.nil_append]
  | cons c before ih =>
    rw [List.cons_append, takeGroup?, hbefore c List.mem_cons_self,
      ih fun d hd => hbefore d (List.mem_cons_of_mem c hd)]
    rfl

/-- The clause that is taken is the first one that names a group; the others keep their order. -/
theorem exists_of_takeGroup? {cs others : List (List Char)} {group : List Char}
    (h : takeGroup? cs = some (group, others)) :
    ∃ before clause after, cs = before ++ clause :: after ∧ others = before ++ after ∧
      (∀ c ∈ before, extraGroup? c = none) ∧ extraGroup? clause = some group := by
  induction cs generalizing others with
  | nil => simp only [takeGroup?, reduceCtorEq] at h
  | cons clause cs ih =>
    rw [takeGroup?] at h
    cases hclause : extraGroup? clause with
    | some named =>
      rw [hclause] at h
      obtain ⟨rfl, rfl⟩ := Prod.mk.inj (Option.some.inj h)
      exact ⟨[], clause, cs, rfl, rfl, by simp, hclause⟩
    | none =>
      rw [hclause, Option.map_eq_some_iff] at h
      obtain ⟨⟨named, rest⟩, hrest, heq⟩ := h
      obtain ⟨rfl, rfl⟩ := Prod.mk.inj heq
      obtain ⟨before, taken, after, rfl, rfl, hbefore, htaken⟩ := ih hrest
      refine ⟨clause :: before, taken, after, rfl, rfl, fun c hc => ?_, htaken⟩
      rcases List.mem_cons.mp hc with rfl | hc
      · exact hclause
      · exact hbefore c hc

/-- The clauses of a marker around the first one that names a group. -/
structure TakenClause (text : List Char) (before : List (List Char)) (clause : List Char)
    (after : List (List Char)) (group : List Char) : Prop where
  clauses_eq : clauses (squeeze text) = before ++ clause :: after
  before_eq_none : ∀ c ∈ before, extraGroup? c = none
  clause_eq_some : extraGroup? clause = some group

section Taken

variable {text clause group : List Char} {before after : List (List Char)}

theorem TakenClause.takeGroup? (h : TakenClause text before clause after group) :
    takeGroup? (clauses (squeeze text)) = some (group, before ++ after) := by
  rw [h.clauses_eq, takeGroup?_append h.before_eq_none h.clause_eq_some]

theorem TakenClause.squeeze_eq (h : TakenClause text before clause after group) :
    squeeze text = joinClauses (before ++ clause :: after) := by
  rw [← h.clauses_eq, joinClauses_clauses]

theorem exists_takenClause {others : List (List Char)}
    (h : takeGroup? (clauses (squeeze text)) = some (group, others)) :
    ∃ before clause after, TakenClause text before clause after group := by
  obtain ⟨before, clause, after, hclauses, -, hbefore, hclause⟩ := exists_of_takeGroup? h
  exact ⟨before, clause, after, hclauses, hbefore, hclause⟩

/-- The clauses that are left when one is taken, joined again: nothing is squeezed further, and the
same clauses are found. -/
theorem TakenClause.spec_others (h : TakenClause text before clause after group)
    (hne : before ++ after ≠ []) :
    IsSqueezed (joinClauses (before ++ after)) ∧
      clauses (joinClauses (before ++ after)) = before ++ after := by
  have hmem : clause ∈ clauses (squeeze text) := by simp [h.clauses_eq]
  have htext : squeeze text ≠ [] := by
    intro hnil
    rw [hnil] at hmem
    obtain rfl : clause = [] := List.mem_singleton.mp hmem
    exact Option.some_ne_none group h.clause_eq_some.symm
  have hsub : (before ++ after).Sublist (clauses (squeeze text)) := by
    rw [h.clauses_eq]
    exact (List.Sublist.refl before).append (List.sublist_cons_self clause after)
  have hall : IsSqueezed (joinClauses (clauses (squeeze text))) := by
    rw [joinClauses_clauses]
    exact ⟨squeeze_squeeze text, htext⟩
  rw [isSqueezed_joinClauses_iff (clauses_ne_nil _)] at hall
  exact ⟨(isSqueezed_joinClauses_iff hne).mpr fun c hc => hall c (hsub.subset hc),
    ((apart_clauses _).sublist hsub).clauses_joinClauses hne⟩

end Taken

/-! ### What a clause that names a group looks like -/

/-- A clause that names a group: the variable, two equality signs and the group between quotation
marks, with blanks around each, `opening` parentheses in front and `closing` ones behind. -/
inductive GroupClause (group : List Char) (opening closing : ℕ) : List Char → Prop
  | intro {b₀ b₁ b₂ b₃ b₄ b₅ : List Char} {quote : Char} (h₀ : Blanks b₀) (h₁ : Blanks b₁)
      (h₂ : Blanks b₂) (h₃ : Blanks b₃) (h₄ : Blanks b₄) (h₅ : Blanks b₅)
      (hquote : isQuote quote) (hgroup : quote ∉ group) :
      GroupClause group opening closing
        (b₀ ++ List.replicate opening '(' ++ b₁ ++ extraVariable ++ b₂ ++ ['=', '='] ++ b₃ ++
          quote :: group ++ [quote] ++ b₄ ++ List.replicate closing ')' ++ b₅)

theorem not_isBlank_of_isQuote {c : Char} (h : isQuote c) : isBlank c = false := by
  simp only [isQuote, Bool.or_eq_true, decide_eq_true_eq] at h
  rcases h with rfl | rfl <;> decide

theorem quoted?_eq_some_iff {value text : List Char} :
    quoted? value = some text ↔
      ∃ quote, isQuote quote ∧ quote ∉ text ∧ value = quote :: text ++ [quote] := by
  constructor
  · intro h
    unfold quoted? at h
    split at h
    · simp only [reduceCtorEq] at h
    · next quote rest =>
      split_ifs at h with hcond
      obtain rfl := Option.some.inj h
      simp only [Bool.and_eq_true, decide_eq_true_eq, Bool.not_eq_true', List.contains_eq_mem,
        decide_eq_false_iff_not] at hcond
      obtain ⟨⟨hquote, hlast⟩, hmem⟩ := hcond
      refine ⟨quote, hquote, hmem, ?_⟩
      rw [List.cons_append, List.dropLast_append_getLast? quote hlast]
  · rintro ⟨quote, hquote, hmem, rfl⟩
    simp [quoted?, hquote, hmem]

private theorem eq_append_of_splitEquality? {cs left right : List Char}
    (h : splitEquality? cs = some (left, right)) : cs = left ++ ['=', '='] ++ right := by
  fun_induction splitEquality? cs generalizing left right with
  | case1 => simp only [reduceCtorEq] at h
  | case2 rest =>
    obtain ⟨rfl, rfl⟩ := Prod.mk.inj (Option.some.inj h)
    rfl
  | case3 c rest _ ih =>
    obtain ⟨⟨left', right'⟩, hrest, heq⟩ := Option.map_eq_some_iff.mp h
    obtain ⟨rfl, rfl⟩ := Prod.mk.inj heq
    rw [ih hrest]
    rfl

private theorem splitEquality?_append {left : List Char} (h : '=' ∉ left) (right : List Char) :
    splitEquality? (left ++ ['=', '='] ++ right) = some (left, right) := by
  induction left with
  | nil => rfl
  | cons c left ih =>
    rw [List.cons_append, List.cons_append, splitEquality?,
      ih fun hmem => h (List.mem_cons_of_mem c hmem)]
    · rfl
    · rintro rest rfl
      exact absurd List.mem_cons_self h

private theorem takeWhile_eq_replicate (c : Char) (cs : List Char) :
    ∃ n, cs.takeWhile (· = c) = List.replicate n c :=
  ⟨_, List.eq_replicate_iff.mpr ⟨rfl, fun _ h => by simpa using List.mem_takeWhile_imp h⟩⟩

theorem stripParentheses_decomposition (cs : List Char) :
    ∃ opening closing, cs =
      List.replicate opening '(' ++ stripParentheses cs ++ List.replicate closing ')' := by
  obtain ⟨opening, hopening⟩ := takeWhile_eq_replicate '(' cs
  obtain ⟨closing, hclosing⟩ := takeWhile_eq_replicate ')' (cs.dropWhile (· = '(')).reverse
  refine ⟨opening, closing, ?_⟩
  have hend : stripParentheses cs ++ List.replicate closing ')' = cs.dropWhile (· = '(') := by
    rw [stripParentheses, ← List.reverse_replicate, ← hclosing, ← List.reverse_append,
      List.takeWhile_append_dropWhile, List.reverse_reverse]
  rw [List.append_assoc, hend, ← hopening, List.takeWhile_append_dropWhile]

/-- **What a clause that names a group looks like.** It consists of the variable, the equality signs
and the quoted group; the parentheses around them need not match. -/
theorem groupClause_of_extraGroup? {clause group : List Char}
    (h : extraGroup? clause = some group) :
    group ≠ [] ∧ ∃ opening closing, GroupClause group opening closing clause := by
  simp only [extraGroup?, Option.bind_eq_bind, Option.bind_eq_some_iff, Prod.exists] at h
  obtain ⟨left, right, hsplit, h⟩ := h
  split_ifs at h with hleft
  obtain ⟨hquoted, hne⟩ := Option.filter_eq_some_iff.mp h
  obtain ⟨quote, hquote, hgroup, hvalue⟩ := quoted?_eq_some_iff.mp hquoted
  obtain ⟨b₀, b₅, h₀, h₅, hclause⟩ := trim_decomposition clause
  obtain ⟨opening, closing, hparens⟩ := stripParentheses_decomposition (trim clause)
  obtain ⟨b₁, b₄, h₁, h₄, hinner⟩ := trim_decomposition (stripParentheses (trim clause))
  obtain ⟨b₁', b₂, h₁', h₂, hname⟩ := trim_decomposition left
  obtain ⟨b₃, b₄', h₃, h₄', htext⟩ := trim_decomposition right
  have hshape := eq_append_of_splitEquality? hsplit
  refine ⟨by simpa using hne, opening, closing, ?_⟩
  have hb₁ : Blanks (b₁ ++ b₁') := fun c hc => (List.mem_append.mp hc).elim (h₁ c) (h₁' c)
  have hb₄ : Blanks (b₄' ++ b₄) := fun c hc => (List.mem_append.mp hc).elim (h₄' c) (h₄ c)
  convert GroupClause.intro h₀ hb₁ h₂ h₃ hb₄ h₅ hquote hgroup using 1
  rw [hclause, hparens, hinner, hshape, hname, htext, hleft, hvalue]
  simp only [List.append_assoc, List.cons_append]

private theorem stripParentheses_eq_self {first last : Char} {middle : List Char}
    (hfirst : first ≠ '(') (hlast : last ≠ ')') :
    stripParentheses (first :: middle ++ [last]) = first :: middle ++ [last] := by
  have hstart : (first :: middle ++ [last]).dropWhile (· = '(') = first :: middle ++ [last] := by
    simp [hfirst]
  rw [stripParentheses, hstart]
  simp [hlast]

private theorem trim_eq_self {first last : Char} {middle : List Char}
    (hfirst : isBlank first = false) (hlast : isBlank last = false) :
    trim (first :: middle ++ [last]) = first :: middle ++ [last] := by
  rw [trim, List.cons_append, trimStart_cons_of_not_blank hfirst, ← List.cons_append,
    trimEnd_append_of_not_blank hlast]

/-- A clause without parentheses or outer blanks names its group. -/
theorem extraGroup?_of_quoted {b₂ b₃ group : List Char} {quote : Char} (h₂ : Blanks b₂)
    (h₃ : Blanks b₃) (hquote : isQuote quote) (hgroup : quote ∉ group) (hne : group ≠ []) :
    extraGroup? (extraVariable ++ b₂ ++ ['=', '='] ++ (b₃ ++ (quote :: group ++ [quote]))) =
      some group := by
  have hblank : isBlank quote = false := not_isBlank_of_isQuote hquote
  have hparen : quote ≠ ')' := by
    rintro rfl
    exact absurd hquote (by decide)
  have hequal : '=' ∉ extraVariable ++ b₂ := by
    intro hmem
    rcases List.mem_append.mp hmem with hmem | hmem
    · exact absurd hmem (by decide)
    · exact absurd (h₂ '=' hmem) (by decide)
  have hleft : trim (extraVariable ++ b₂) = extraVariable := by
    rw [trim, extraVariable, List.cons_append, trimStart_cons_of_not_blank (by decide),
      ← List.cons_append, trimEnd_append_blanks h₂]
    rfl
  have hright : trim (b₃ ++ (quote :: group ++ [quote])) = quote :: group ++ [quote] := by
    rw [trim, trimStart_blanks_append h₃, ← trim, trim_eq_self hblank hblank]
  -- the clause as a text between the first letter of the variable and the closing quote
  have hshape : extraVariable ++ b₂ ++ ['=', '='] ++ (b₃ ++ (quote :: group ++ [quote])) =
      'e' :: (['x', 't', 'r', 'a'] ++ b₂ ++ ['=', '='] ++ (b₃ ++ quote :: group)) ++ [quote] := by
    simp [extraVariable]
  have hstrip : trim (stripParentheses (trim (extraVariable ++ b₂ ++ ['=', '='] ++
      (b₃ ++ (quote :: group ++ [quote]))))) =
      extraVariable ++ b₂ ++ ['=', '='] ++ (b₃ ++ (quote :: group ++ [quote])) := by
    rw [hshape, trim_eq_self (by decide) hblank, stripParentheses_eq_self (by decide) hparen,
      trim_eq_self (by decide) hblank]
  have hquoted : quoted? (quote :: group ++ [quote]) = some group :=
    quoted?_eq_some_iff.mpr ⟨quote, hquote, hgroup, rfl⟩
  simp only [extraGroup?, hstrip, splitEquality?_append hequal, Option.bind_eq_bind,
    Option.bind_some, hleft, hright, hquoted, ite_true]
  simp [Option.filter, hne]

/-! ### Filing a record -/

section Filing

variable {record : String} {front text : List Char}

theorem file_of_no_marker (h : ';' ∉ record.toList) :
    file record = ⟨String.ofList (compact record.toList), none⟩ := by
  simp only [file, splitMarker_of_not_mem h]

variable (hrecord : record.toList = front ++ ';' :: text) (hfront : ';' ∉ front)

include hrecord hfront

theorem file_of_takeGroup?_eq_none (h : takeGroup? (clauses (squeeze text)) = none) :
    file record = ⟨withMarker (compact front) (squeeze text), none⟩ := by
  simp only [file, hrecord, splitMarker_append hfront, h]

theorem file_of_takeGroup?_eq_some {group : List Char} {others : List (List Char)}
    (h : takeGroup? (clauses (squeeze text)) = some (group, others)) :
    file record =
      ⟨if (joinClauses others).isEmpty then String.ofList (compact front)
        else withMarker (compact front) (joinClauses others), some (String.ofList group)⟩ := by
  simp only [file, hrecord, splitMarker_append hfront, h]

end Filing

end Descriptor.Requirement
