import Descriptor.Proofs.Marker.Evaluation
import Descriptor.Proofs.Requirement.Clauses

/-!
# What a filed requirement means

A requirement is filed under a group by taking the clause that names the group out of the text of
its marker. The text is cut at the word `and`, wherever it stands, so the clause need not be a part
of the marker that `and` joins to all the rest: its parentheses may enclose more than the clause,
an `or` may offer an alternative to it, and it may stand within a quoted value. When the filed
requirement still means the same is told here by the marker itself.

## Main definitions

* `KeepsMeaning` : the group and the remaining marker of a filed requirement say what a marker said.
* `Separable` : the markers that a clause can be taken out of.

## Main results

* `Cut.exists_parses`, `TakenClause.exists_readsAs` : what is left without a clause.
* `keepsMeaning_file_iff_separable` : filing keeps the meaning of the separable markers, and of no
  others.
* `not_keepsMeaning_alternative` : a marker that loses its meaning.
-/

namespace Descriptor.Requirement

open Text Marker

/-! ### A clause among the tokens of a marker -/

/-- The comparison that names a group. -/
def groupComparison (group : List Char) : Comparison :=
  ⟨.named extraVariable, .symbol ['=', '='], .text group⟩

theorem isKnown_groupComparison (group : List Char) : (groupComparison group).IsKnown where
  left := show extraVariable ∈ variableNames by decide
  operator := show ['=', '='] ∈ comparators by decide
  right := trivial

theorem tokens_groupClause {group clause : List Char} {opening closing : ℕ}
    (h : GroupClause group opening closing clause) :
    tokens clause = List.replicate opening .opening ++ (groupComparison group).tokens ++
      List.replicate closing .closing := by
  obtain ⟨h₀, h₁, h₂, h₃, h₄, h₅, hquote, hgroup⟩ := h
  next b₀ b₁ b₂ b₃ b₄ b₅ quote =>
  have hopening : Mode.start '(' = ([.opening], .between) := rfl
  have hclosing : Mode.start ')' = ([.closing], .between) := rfl
  have hend : tokens (b₄ ++ (List.replicate closing ')' ++ b₅)) =
      List.replicate closing .closing := by
    rw [tokens_blanks_append h₄, tokens_replicate_append hclosing, tokens,
      Mode.tokens_blanks h₅]
    exact List.append_nil _
  have hvalue : tokens (quote :: (group ++ quote :: (b₄ ++ (List.replicate closing ')' ++ b₅)))) =
      .quoted group :: List.replicate closing .closing := by
    have hstep : Mode.step .between quote = ([], .quoted quote hquote []) := by
      simp [Mode.step, Mode.start, hquote]
    rw [tokens, Mode.tokens_cons, hstep, tokens_quoted_append hquote hgroup, hend]
    rfl
  have hsymbol : isSymbol quote = false := by
    simp only [isQuote, Bool.or_eq_true, decide_eq_true_eq] at hquote
    rcases hquote with rfl | rfl <;> rfl
  have hequal (cs : List Char) :
      tokens ('=' :: '=' :: (b₃ ++ quote :: cs)) = .symbol ['=', '='] :: tokens (quote :: cs) :=
    @tokens_blanks_append_of_step (.symbol ['=', '=']) rfl quote
      (by simp [Mode.step, hsymbol, Mode.finish]) b₃ h₃ cs
  have hname (cs : List Char) :
      tokens (extraVariable ++ (b₂ ++ '=' :: cs)) = .word extraVariable :: tokens ('=' :: cs) :=
    @tokens_blanks_append_of_step (.word extraVariable) rfl '=' rfl b₂ h₂ cs
  simp only [List.append_assoc, List.cons_append, List.nil_append]
  rw [tokens_blanks_append h₀, tokens_replicate_append hopening, tokens_blanks_append h₁, hname,
    hequal, hvalue]
  rfl

/-- A clause with matching parentheses is a part of a marker: the comparison that it contains. -/
private theorem parses_groupComparison (group : List Char) (n : ℕ) :
    Parses .single (List.replicate n .opening ++ (groupComparison group).tokens ++
      List.replicate n .closing) (.comparison (groupComparison group)) := by
  induction n with
  | zero =>
    rw [List.replicate_zero, List.nil_append, List.replicate_zero, List.append_nil]
    exact .comparison (isKnown_groupComparison group)
  | succ n ih =>
    have hshape := Parses.group (.ofConjunction (.ofSingle ih))
    rw [List.replicate_succ, List.replicate_succ']
    simpa only [List.cons_append, List.append_assoc] using hshape

@[simp] theorem eval_groupComparison (group : List Char) (env : Environment) :
    (Marker.comparison (groupComparison group)).eval env =
      decide (env.extra = some (String.ofList group)) := by
  simp [Marker.eval, Comparison.eval, groupComparison, Comparison.group?]

/-! ### The first clause that names a group -/

variable {text clause group : List Char} {before after : List (List Char)} {m : Marker}

/-- How the tokens of a marker, those of a clause of it and those of the other clauses, of which
there is one at least, belong together, where the clause does not stand within a value. -/
inductive Cut (clause : List Token) : List Token → List Token → Prop
  | first (after : List Token) : Cut clause (clause ++ .word andWord :: after) after
  | later (before after : List Token) :
      Cut clause (before ++ .word andWord :: (clause ++ after)) (before ++ after)

private theorem joinClauses_singleton (clause : List Char) : joinClauses [clause] = clause := by
  simp [joinClauses]

theorem cut_of_not_mem (hothers : before ++ after ≠ [])
    (hbefore : .unclosed ∉ tokens (joinClauses before)) (hclause : .unclosed ∉ tokens clause) :
    Cut (tokens clause) (tokens (joinClauses (before ++ clause :: after)))
      (tokens (joinClauses (before ++ after))) := by
  have htail : after ≠ [] → tokens (joinClauses (clause :: after)) =
      tokens clause ++ .word andWord :: tokens (joinClauses after) := by
    intro hafter
    have hjoin := @joinClauses_append [clause] after (List.cons_ne_nil _ _) hafter
    rw [List.singleton_append, joinClauses_singleton] at hjoin
    rw [hjoin, tokens_append_conjunction hclause]
    rfl
  by_cases hne : before = []
  · obtain rfl := hne
    rw [List.nil_append, List.nil_append, htail hothers]
    exact .first _
  · rw [joinClauses_append hne (List.cons_ne_nil clause after), tokens_append_conjunction hbefore]
    by_cases hafter : after = []
    · obtain rfl := hafter
      have hlater := @Cut.later (tokens clause) (tokens (joinClauses before)) []
      rw [List.append_nil, List.append_nil] at hlater
      rwa [joinClauses_singleton, List.append_nil]
    · rw [htail hafter, joinClauses_append hne hafter, tokens_append_conjunction hbefore]
      exact .later _ _

/-- What is left of a marker without a clause with matching parentheses is a marker, which means the
same where the group of the clause is active. -/
theorem Cut.exists_parses {ts ts' : List Token} {n : ℕ}
    (h : Cut (List.replicate n .opening ++ (groupComparison group).tokens ++
      List.replicate n .closing) ts ts') (hm : Parses .disjunction ts m) :
    ∃ m', Parses .disjunction ts' m' ∧
      ∀ env, env.extra = some (String.ofList group) → m'.eval env = m.eval env := by
  have hclause := parses_groupComparison group n
  have hholds : ∃ env, (Marker.comparison (groupComparison group)).eval env = true :=
    ⟨⟨some (String.ofList group), fun _ => true⟩, by simp⟩
  cases h with
  | first =>
    obtain ⟨m', hm', heval⟩ := hclause.drop_first hholds hm
    exact ⟨m', hm', fun env henv => heval env (by simp [henv])⟩
  | later =>
    obtain ⟨m', hm', heval⟩ := hclause.drop hholds hm
    exact ⟨m', hm', fun env henv => heval env (by simp [henv])⟩

/-- Of each kind of token other than the word `and`, the marker has those of the clause and those
that are left. -/
theorem Cut.count_eq {clause ts ts' : List Token} (h : Cut clause ts ts') {t : Token}
    (ht : t ≠ .word andWord) : ts.count t = clause.count t + ts'.count t := by
  cases h with
  | first after => simp [List.count_cons_of_ne ht.symm]
  | later before after =>
    simp only [List.count_append, List.count_cons_of_ne ht.symm]
    omega

/-! ### What is left of a marker -/

/-- A text that is a marker, or no text at all. -/
def ReadsAs (rest : List Char) : Option Marker → Prop
  | none => rest = []
  | some m => Reads rest m

theorem not_reads_nil (m : Marker) : ¬Reads [] m := fun h => Parses.ne_nil h rfl

theorem ReadsAs.eval_eq {rest : List Char} {left left' : Option Marker} (h : ReadsAs rest left)
    (h' : ReadsAs rest left') (env : Environment) :
    left.all (·.eval env) = left'.all (·.eval env) := by
  cases left with
  | none =>
    obtain rfl : rest = [] := h
    cases left' with
    | none => rfl
    | some m' => exact absurd h' (not_reads_nil m')
  | some m =>
    cases left' with
    | none =>
      obtain rfl : rest = [] := h'
      exact absurd h (not_reads_nil m)
    | some m' => exact Parses.eval_eq h h' env

/-- The tokens of a clause that names a group, which have no value without an end. -/
theorem TakenClause.exists_tokens (h : TakenClause text before clause after group) :
    ∃ opening closing, tokens clause = List.replicate opening .opening ++
      (groupComparison group).tokens ++ List.replicate closing .closing := by
  obtain ⟨-, opening, closing, hclause⟩ := groupClause_of_extraGroup? h.clause_eq_some
  exact ⟨opening, closing, tokens_groupClause hclause⟩

theorem TakenClause.unclosed_not_mem (h : TakenClause text before clause after group) :
    .unclosed ∉ tokens clause := by
  obtain ⟨opening, closing, htokens⟩ := h.exists_tokens
  simp [htokens, groupComparison, Comparison.tokens, Operand.token, Operator.tokens]

theorem TakenClause.reads (h : TakenClause text before clause after group) (hm : Reads text m) :
    Parses .disjunction (tokens (joinClauses (before ++ clause :: after))) m.collapse := by
  rw [← h.squeeze_eq]
  exact hm.squeeze

/-- Without a clause with matching parentheses, a marker or nothing is left. It means what the
squeezed marker means, where the group of the clause is active. -/
theorem TakenClause.exists_readsAs (h : TakenClause text before clause after group)
    (hm : Reads text m) (hbefore : .unclosed ∉ tokens (joinClauses before))
    (hbalanced : (tokens clause).count .opening = (tokens clause).count .closing) :
    ∃ left, ReadsAs (joinClauses (before ++ after)) left ∧
      ∀ env, env.extra = some (String.ofList group) →
        left.all (·.eval env) = m.collapse.eval env := by
  obtain ⟨opening, closing, htokens⟩ := h.exists_tokens
  obtain rfl : opening = closing := by
    rw [htokens] at hbalanced
    simpa [groupComparison, Comparison.tokens, Operand.token, Operator.tokens,
      List.count_replicate] using hbalanced
  have hm := h.reads hm
  by_cases hothers : before ++ after = []
  · obtain ⟨rfl, rfl⟩ := List.append_eq_nil_iff.mp hothers
    refine ⟨none, rfl, fun env henv => ?_⟩
    rw [List.nil_append, joinClauses_singleton, htokens] at hm
    rw [hm.eval_eq (.ofConjunction (.ofSingle (parses_groupComparison group opening))) env,
      eval_groupComparison, henv]
    simp
  · have hcut := cut_of_not_mem hothers hbefore h.unclosed_not_mem
    rw [htokens] at hcut
    obtain ⟨m', hm', heval⟩ := hcut.exists_parses hm
    exact ⟨some m', hm', heval⟩

/-- A marker or nothing is left only without a clause with matching parentheses. -/
theorem TakenClause.count_opening (h : TakenClause text before clause after group)
    (hm : Reads text m) (hbefore : .unclosed ∉ tokens (joinClauses before))
    {left : Option Marker} (hleft : ReadsAs (joinClauses (before ++ after)) left) :
    (tokens clause).count .opening = (tokens clause).count .closing := by
  have hcount := (h.reads hm).count_opening
  by_cases hothers : before ++ after = []
  · obtain ⟨rfl, rfl⟩ := List.append_eq_nil_iff.mp hothers
    rwa [List.nil_append, joinClauses_singleton] at hcount
  · have hcut := cut_of_not_mem hothers hbefore h.unclosed_not_mem
    have hrest : (tokens (joinClauses (before ++ after))).count .opening =
        (tokens (joinClauses (before ++ after))).count .closing := by
      cases left with
      | none =>
        have hnil : joinClauses (before ++ after) = [] := hleft
        rw [hnil]
        rfl
      | some m' => exact Parses.count_opening hleft
    have hopening := hcut.count_eq (t := .opening) (by simp)
    have hclosing := hcut.count_eq (t := .closing) (by simp)
    omega

/-! ### What filing keeps -/

/-- What the marker of a requirement says, if it has one. -/
def HasMarker (requirement : String) : Option Marker → Prop
  | none => (splitMarker requirement.toList).2 = none
  | some m => ∃ text, (splitMarker requirement.toList).2 = some text ∧ Reads text m

/-- A filed requirement keeps the meaning of a marker: the marker holds where the group is active
that the requirement belongs to, if any, and the marker holds that the requirement has, if any. -/
def KeepsMeaning (m : Marker) (f : Filed) : Prop :=
  ∃ left, HasMarker f.requirement left ∧ ∀ env,
    m.eval env = (f.group.all (fun group => env.extra = some group) && left.all (·.eval env))

theorem hasMarker_withMarker_iff {front rest : List Char} (h : ';' ∉ front)
    {left : Option Marker} :
    HasMarker (withMarker front rest) left ↔ ∃ m, left = some m ∧ Reads rest m := by
  have hsplit : splitMarker (withMarker front rest).toList = (front, some (' ' :: rest)) := by
    rw [withMarker, String.toList_ofList]
    exact splitMarker_append h (' ' :: rest)
  have hspace : tokens (' ' :: rest) = tokens rest :=
    @tokens_blanks_append [' '] (fun c hc => by rw [List.mem_singleton.mp hc]; rfl) rest
  cases left with
  | none => simp [HasMarker, hsplit]
  | some m => simp [HasMarker, hsplit, Reads, hspace]

theorem hasMarker_iff_readsAs {front rest : List Char} (h : ';' ∉ front) {left : Option Marker} :
    HasMarker (if rest.isEmpty then String.ofList front else withMarker front rest) left ↔
      ReadsAs rest left := by
  by_cases hrest : rest = []
  · obtain rfl := hrest
    rw [List.isEmpty_nil, if_pos rfl]
    cases left with
    | none => simp [HasMarker, splitMarker_of_not_mem h, ReadsAs]
    | some m => simp [HasMarker, splitMarker_of_not_mem h, ReadsAs, not_reads_nil]
  · rw [if_neg (by simpa using hrest), hasMarker_withMarker_iff h]
    cases left with
    | none => simp [ReadsAs, hrest]
    | some m => simp [ReadsAs]

section Filing

variable {record : String} (hrecord : (splitMarker record.toList).2 = some text)

include hrecord

/-- A requirement of no group keeps its meaning when squeezing the texts of its marker does not
change what the marker means. -/
theorem keepsMeaning_iff_of_eq_none (hm : Reads text m)
    (hnone : ∀ clause ∈ clauses (squeeze text), extraGroup? clause = none) :
    KeepsMeaning m (file record) ↔ ∀ env, m.eval env = m.collapse.eval env := by
  obtain ⟨front, hfront, hsplit⟩ := exists_of_splitMarker hrecord
  have hcompact : ';' ∉ compact front := fun h => hfront (semicolon_not_mem_compact.mp h)
  rw [file_of_takeGroup?_eq_none hsplit hfront (takeGroup?_eq_none_iff.mpr hnone), KeepsMeaning]
  simp only [hasMarker_withMarker_iff hcompact]
  constructor
  · rintro ⟨_, ⟨m', rfl, hm'⟩, heval⟩ env
    rw [heval env, ← hm'.eval_eq hm.squeeze env]
    simp
  · intro heval
    exact ⟨some m.collapse, ⟨m.collapse, rfl, hm.squeeze⟩, fun env => by simp [heval env]⟩

/-- A requirement from which a clause is taken keeps its meaning when the marker holds only where
the group of the clause is active, and means the same there as what is left of it. -/
theorem keepsMeaning_iff_of_takenClause (h : TakenClause text before clause after group) :
    KeepsMeaning m (file record) ↔
      (∀ env, m.eval env = true → env.extra = some (String.ofList group)) ∧
      ∃ left, ReadsAs (joinClauses (before ++ after)) left ∧
        ∀ env, env.extra = some (String.ofList group) → m.eval env = left.all (·.eval env) := by
  obtain ⟨front, hfront, hsplit⟩ := exists_of_splitMarker hrecord
  have hcompact : ';' ∉ compact front := fun h => hfront (semicolon_not_mem_compact.mp h)
  rw [file_of_takeGroup?_eq_some hsplit hfront h.takeGroup?, KeepsMeaning]
  simp only [hasMarker_iff_readsAs hcompact, Option.all_some]
  constructor
  · rintro ⟨left, hleft, heval⟩
    refine ⟨fun env hholds => ?_, left, hleft, fun env henv => ?_⟩
    · rw [heval env, Bool.and_eq_true, decide_eq_true_eq] at hholds
      exact hholds.1
    · rw [heval env, decide_eq_true henv, Bool.true_and]
  · rintro ⟨hgroup, left, hleft, heval⟩
    refine ⟨left, hleft, fun env => ?_⟩
    by_cases henv : env.extra = some (String.ofList group)
    · rw [decide_eq_true henv, Bool.true_and, heval env henv]
    · rw [decide_eq_false henv, Bool.false_and, Bool.eq_false_iff]
      exact fun hholds => henv (hgroup env hholds)

/-- If the clause does not stand within a value, what is left is a marker when the parentheses of
the clause match, and it means the same as the squeezed marker. -/
theorem keepsMeaning_iff_of_not_mem (hm : Reads text m)
    (h : TakenClause text before clause after group)
    (hbefore : .unclosed ∉ tokens (joinClauses before)) :
    KeepsMeaning m (file record) ↔
      (tokens clause).count .opening = (tokens clause).count .closing ∧
      (∀ env, m.eval env = true → env.extra = some (String.ofList group)) ∧
      ∀ env, env.extra = some (String.ofList group) → m.eval env = m.collapse.eval env := by
  rw [keepsMeaning_iff_of_takenClause hrecord h]
  constructor
  · rintro ⟨hgroup, left, hleft, heval⟩
    have hbalanced := h.count_opening hm hbefore hleft
    obtain ⟨left', hleft', heval'⟩ := h.exists_readsAs hm hbefore hbalanced
    refine ⟨hbalanced, hgroup, fun env henv => ?_⟩
    rw [heval env henv, hleft.eval_eq hleft', heval' env henv]
  · rintro ⟨hbalanced, hgroup, hsqueezed⟩
    obtain ⟨left, hleft, heval⟩ := h.exists_readsAs hm hbefore hbalanced
    exact ⟨hgroup, left, hleft, fun env henv => by rw [heval env henv, hsqueezed env henv]⟩

/-- If the clause stands within a value, something is left, and it has to be a marker. -/
theorem keepsMeaning_iff_of_mem (h : TakenClause text before clause after group)
    (hbefore : .unclosed ∈ tokens (joinClauses before)) :
    KeepsMeaning m (file record) ↔
      (∀ env, m.eval env = true → env.extra = some (String.ofList group)) ∧
      ∃ left, Reads (joinClauses (before ++ after)) left ∧
        ∀ env, env.extra = some (String.ofList group) → m.eval env = left.eval env := by
  have hne : joinClauses (before ++ after) ≠ [] := by
    have hjoin : joinClauses before ≠ [] := by
      intro hnil
      rw [hnil] at hbefore
      exact absurd hbefore List.not_mem_nil
    have hlist : before ≠ [] := by
      rintro rfl
      exact hjoin rfl
    by_cases hafter : after = []
    · rwa [hafter, List.append_nil]
    · rw [joinClauses_append hlist hafter]
      simp [hjoin]
  rw [keepsMeaning_iff_of_takenClause hrecord h]
  refine and_congr_right fun _ => ⟨?_, ?_⟩
  · rintro ⟨left, hleft, heval⟩
    cases left with
    | none => exact absurd hleft hne
    | some left => exact ⟨left, hleft, heval⟩
  · rintro ⟨left, hleft, heval⟩
    exact ⟨some left, hleft, heval⟩

end Filing

/-- The markers that keep their meaning when a clause that names a group is taken out of their text.
Either no clause names a group, and squeezing the texts of the marker does not change what it means.
Or the first clause that does is a part of the marker, with matching parentheses; the marker holds
only where the group is active, and squeezing its texts does not change what it means there. Or that
clause stands within a value; the marker holds only where the group is active, and without the
clause its text is a marker that means the same there. -/
inductive Separable (text : List Char) (m : Marker) : Prop
  | whole (hnone : ∀ clause ∈ clauses (squeeze text), extraGroup? clause = none)
      (hsqueezed : ∀ env, m.eval env = m.collapse.eval env)
  | part {before after : List (List Char)} {clause group : List Char}
      (h : TakenClause text before clause after group)
      (hbefore : .unclosed ∉ tokens (joinClauses before))
      (hbalanced : (tokens clause).count .opening = (tokens clause).count .closing)
      (hgroup : ∀ env, m.eval env = true → env.extra = some (String.ofList group))
      (hsqueezed : ∀ env, env.extra = some (String.ofList group) →
        m.eval env = m.collapse.eval env)
  | within {before after : List (List Char)} {clause group : List Char} {left : Marker}
      (h : TakenClause text before clause after group)
      (hbefore : .unclosed ∈ tokens (joinClauses before))
      (hgroup : ∀ env, m.eval env = true → env.extra = some (String.ofList group))
      (hleft : Reads (joinClauses (before ++ after)) left)
      (heval : ∀ env, env.extra = some (String.ofList group) → m.eval env = left.eval env)

/-- A filed requirement keeps the meaning of its marker exactly when the marker is separable. -/
theorem keepsMeaning_file_iff_separable {record : String} {text : List Char} {m : Marker}
    (hrecord : (splitMarker record.toList).2 = some text) (hm : Reads text m) :
    KeepsMeaning m (file record) ↔ Separable text m := by
  constructor
  · intro hkeeps
    cases htake : takeGroup? (clauses (squeeze text)) with
    | none =>
      have hnone := takeGroup?_eq_none_iff.mp htake
      exact .whole hnone ((keepsMeaning_iff_of_eq_none hrecord hm hnone).mp hkeeps)
    | some taken =>
      obtain ⟨group, others⟩ := taken
      obtain ⟨before, clause, after, hclauses, -, hbefore, hclause⟩ := exists_of_takeGroup? htake
      have h : TakenClause text before clause after group := ⟨hclauses, hbefore, hclause⟩
      by_cases hmem : .unclosed ∈ tokens (joinClauses before)
      · obtain ⟨hgroup, left, hleft, heval⟩ := (keepsMeaning_iff_of_mem hrecord h hmem).mp hkeeps
        exact .within h hmem hgroup hleft heval
      · obtain ⟨hbalanced, hgroup, hsqueezed⟩ :=
          (keepsMeaning_iff_of_not_mem hrecord hm h hmem).mp hkeeps
        exact .part h hmem hbalanced hgroup hsqueezed
  · rintro (⟨hnone, hsqueezed⟩ | ⟨h, hmem, hbalanced, hgroup, hsqueezed⟩ |
      ⟨h, hmem, hgroup, hleft, heval⟩)
    · exact (keepsMeaning_iff_of_eq_none hrecord hm hnone).mpr hsqueezed
    · exact (keepsMeaning_iff_of_not_mem hrecord hm h hmem).mpr ⟨hbalanced, hgroup, hsqueezed⟩
    · exact (keepsMeaning_iff_of_mem hrecord h hmem).mpr ⟨hgroup, _, hleft, heval⟩

private def versionComparison : Comparison :=
  ⟨.named "python_version".toList, .symbol ['<'], .text "3.8".toList⟩

private theorem isKnown_versionComparison : versionComparison.IsKnown where
  left := show "python_version".toList ∈ variableNames by decide
  operator := show ['<'] ∈ comparators by decide
  right := trivial

/-- A condition and a group, joined by `and`. -/
def joinedMarker : Marker :=
  .all (.comparison versionComparison) (.comparison (groupComparison "test".toList))

/-- The text of `joinedMarker`. -/
def joinedText : List Char := " python_version < '3.8' and extra == 'test'".toList

private theorem reads_joinedText : Reads joinedText joinedMarker := by
  have htokens : tokens joinedText =
      versionComparison.tokens ++ .word andWord :: (groupComparison "test".toList).tokens := by
    decide
  rw [Reads, htokens]
  exact .ofConjunction (.and (.ofSingle (.comparison isKnown_versionComparison))
    (.comparison (isKnown_groupComparison "test".toList)))

private theorem separable_joinedText : Separable joinedText joinedMarker := by
  have htaken : TakenClause joinedText ["python_version < '3.8'".toList]
      "extra == 'test'".toList [] "test".toList := ⟨by decide, by decide, by decide⟩
  refine .part htaken (by decide) (by decide) (fun env hholds => ?_) fun env _ => rfl
  rw [joinedMarker, Marker.eval, Bool.and_eq_true, eval_groupComparison] at hholds
  simpa using hholds.2

theorem keepsMeaning_file_iff_separable_joined :
    (splitMarker "mock; python_version < '3.8' and extra == 'test'".toList).2 = some joinedText ∧
      Reads joinedText joinedMarker ∧
      KeepsMeaning joinedMarker (file "mock; python_version < '3.8' and extra == 'test'") := by
  have hrecord : (splitMarker "mock; python_version < '3.8' and extra == 'test'".toList).2 =
      some joinedText := by decide
  exact ⟨hrecord, reads_joinedText,
    (keepsMeaning_file_iff_separable hrecord reads_joinedText).mpr separable_joinedText⟩

private def nameComparison : Comparison :=
  ⟨.named "os_name".toList, .symbol ['=', '='], .text "x".toList⟩

private theorem isKnown_nameComparison : nameComparison.IsKnown where
  left := show "os_name".toList ∈ variableNames by decide
  operator := show ['=', '='] ∈ comparators by decide
  right := trivial

private def platformComparison : Comparison :=
  ⟨.named "sys_platform".toList, .symbol ['=', '='], .text "y".toList⟩

private theorem isKnown_platformComparison : platformComparison.IsKnown where
  left := show "sys_platform".toList ∈ variableNames by decide
  operator := show ['=', '='] ∈ comparators by decide
  right := trivial

/-- A group that `and` joins to a condition, with an alternative to both. -/
def alternativeMarker : Marker :=
  .any (.all (.comparison (groupComparison "a".toList)) (.comparison nameComparison))
    (.comparison platformComparison)

private theorem hasMarker_alternative :
    HasMarker "foo; extra == \"a\" and os_name == \"x\" or sys_platform == \"y\""
      (some alternativeMarker) := by
  refine ⟨" extra == \"a\" and os_name == \"x\" or sys_platform == \"y\"".toList, by decide, ?_⟩
  have htokens : tokens " extra == \"a\" and os_name == \"x\" or sys_platform == \"y\"".toList =
      (groupComparison "a".toList).tokens ++ .word andWord :: nameComparison.tokens ++
        .word orWord :: platformComparison.tokens := by decide
  rw [Reads, htokens]
  exact .or (.ofConjunction (.and (.ofSingle (.comparison (isKnown_groupComparison "a".toList)))
    (.comparison isKnown_nameComparison))) (.ofSingle (.comparison isKnown_platformComparison))

/-- The requirement is filed under the group, although its marker holds on a platform where the
group is not active. -/
theorem not_keepsMeaning_alternative :
    HasMarker "foo; extra == \"a\" and os_name == \"x\" or sys_platform == \"y\""
        (some alternativeMarker) ∧
      file "foo; extra == \"a\" and os_name == \"x\" or sys_platform == \"y\"" =
        ⟨"foo; os_name == \"x\" or sys_platform == \"y\"", some "a"⟩ ∧
      ¬KeepsMeaning alternativeMarker
        (file "foo; extra == \"a\" and os_name == \"x\" or sys_platform == \"y\"") := by
  have hfile : file "foo; extra == \"a\" and os_name == \"x\" or sys_platform == \"y\"" =
      ⟨"foo; os_name == \"x\" or sys_platform == \"y\"", some "a"⟩ := by decide
  refine ⟨hasMarker_alternative, hfile, ?_⟩
  rw [hfile]
  rintro ⟨left, -, heval⟩
  have hholds := heval ⟨none, fun _ => true⟩
  simp only [Option.all_some, reduceCtorEq, decide_false, Bool.false_and] at hholds
  exact absurd hholds (by decide)

end Descriptor.Requirement
