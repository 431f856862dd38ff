import Descriptor.Proofs.Marker.Grammar

/-!
# Evaluating a marker token by token

Whether a marker holds can be found in one pass over its tokens, with a stack of what the open
parentheses interrupt. What the pass has found after some tokens is a state, and a comparison that
holds leaves it unchanged: this is what makes it possible to take a comparison out of a marker and
to say what is left.

The pass succeeds on the tokens that the grammar describes and on no others, and then it computes
the meaning of the marker. So the tokens of a marker determine its meaning.

## Main definitions

* `State`, `State.step`, `State.run` : the pass, with `State.Move` for what a step can do.
* `Context`, `Pending`, `Finished` : what the tokens in front of a point in a marker consist of.

## Main results

* `Parses.run` : the pass computes the meaning of a marker.
* `exists_parses_of_run` : the pass succeeds on markers only.
* `Parses.eval_eq` : the meaning of a marker is determined by its tokens.
* `State.run_and_single` : a part that holds, behind the word `and`, leaves the state unchanged.
* `Parses.drop`, `Parses.drop_first` : what is left of a marker without one of its parts.
-/

namespace Descriptor.Marker

/-! ### The pass -/

/-- The value of what `or` joins so far, and that of what `and` joins since. -/
structure Frame where
  any : Bool
  all : Bool
  deriving DecidableEq, Repr

namespace Frame

/-- Nothing yet. -/
def start : Frame := ⟨false, true⟩

/-- The value of a frame that ends here. -/
def value (f : Frame) : Bool := f.any || f.all

/-- A further value that `and` joins. -/
def and (f : Frame) (b : Bool) : Frame := ⟨f.any, f.all && b⟩

@[simp] theorem and_true (f : Frame) : f.and true = f := by simp [and]

theorem and_and (f : Frame) (a b : Bool) : (f.and a).and b = f.and (a && b) := by
  simp [and, Bool.and_assoc]

end Frame

/-- A point in a marker: in front of an operand, behind the left operand of a comparison, behind the
word `not`, behind an operator, or behind a comparison or a closing parenthesis. -/
inductive Point
  | operand
  | left (o : Operand)
  | negated (o : Operand)
  | right (o : Operand) (operator : Operator)
  | done
  deriving DecidableEq, Repr

/-- A point in a marker with the values found so far, those in front of the open parentheses from
the inside out. -/
structure State where
  point : Point
  frame : Frame
  outer : List Frame
  deriving DecidableEq, Repr

/-- The operand that a token is. -/
def operand? : Token → Option Operand
  | .word name => if name ∈ variableNames then some (.named name) else none
  | .quoted value => some (.text value)
  | _ => none

namespace State

/-- The state in front of a marker. -/
def start : State := ⟨.operand, .start, []⟩

/-- The state behind a further token, if it can stand there. -/
def step (env : Environment) : State → Token → Option State
  | ⟨.operand, frame, outer⟩, .opening => some ⟨.operand, .start, frame :: outer⟩
  | ⟨.operand, frame, outer⟩, t => (operand? t).map fun o => ⟨.left o, frame, outer⟩
  | ⟨.left o, frame, outer⟩, .symbol operator =>
    if operator ∈ comparators then some ⟨.right o (.symbol operator), frame, outer⟩ else none
  | ⟨.left o, frame, outer⟩, .word name =>
    if name = inWord then some ⟨.right o .within, frame, outer⟩
    else if name = notWord then some ⟨.negated o, frame, outer⟩ else none
  | ⟨.negated o, frame, outer⟩, .word name =>
    if name = inWord then some ⟨.right o .outside, frame, outer⟩ else none
  | ⟨.right o operator, frame, outer⟩, t =>
    (operand? t).map fun o' => ⟨.done, frame.and (Comparison.eval env ⟨o, operator, o'⟩), outer⟩
  | ⟨.done, frame, outer⟩, .word name =>
    if name = andWord then some ⟨.operand, frame, outer⟩
    else if name = orWord then some ⟨.operand, ⟨frame.value, true⟩, outer⟩ else none
  | ⟨.done, frame, outer :: rest⟩, .closing => some ⟨.done, outer.and frame.value, rest⟩
  | _, _ => none

/-- The state behind some tokens, if they can stand there. -/
def run (env : Environment) (s : State) (ts : List Token) : Option State :=
  ts.foldlM (step env) s

variable {env : Environment}

theorem run_append (s : State) (ts ts' : List Token) :
    s.run env (ts ++ ts') = (s.run env ts).bind (·.run env ts') :=
  List.foldlM_append

theorem run_cons (s : State) (t : Token) (ts : List Token) :
    s.run env (t :: ts) = (s.step env t).bind (·.run env ts) :=
  List.foldlM_cons

/-! ### The pass computes the meaning -/

theorem operand?_token {o : Operand} (h : o.IsKnown) : operand? o.token = some o := by
  cases o with
  | named name => exact if_pos h
  | text value => rfl

private theorem step_operand_token {o : Operand} (h : o.IsKnown) (frame : Frame)
    (outer : List Frame) :
    step env ⟨.operand, frame, outer⟩ o.token = some ⟨.left o, frame, outer⟩ := by
  cases o with
  | named name =>
    have hname : name ∈ variableNames := h
    simp only [Operand.token, step, operand?, if_pos hname, Option.map_some]
  | text value => rfl

private theorem run_left_tokens {operator : Operator} (h : operator.IsKnown) (o : Operand)
    (frame : Frame) (outer : List Frame) :
    run env ⟨.left o, frame, outer⟩ operator.tokens = some ⟨.right o operator, frame, outer⟩ := by
  cases operator with
  | symbol operator =>
    have hoperator : operator ∈ comparators := h
    rw [Operator.tokens, run_cons, step, if_pos hoperator]
    rfl
  | within => rfl
  | outside => rfl

theorem run_comparison {c : Comparison} (h : c.IsKnown) (frame : Frame) (outer : List Frame) :
    run env ⟨.operand, frame, outer⟩ c.tokens = some ⟨.done, frame.and (c.eval env), outer⟩ := by
  rw [Comparison.tokens, run_cons, step_operand_token h.left, Option.bind_some, run_append,
    run_left_tokens h.operator, Option.bind_some, run_cons]
  simp only [step, operand?_token h.right, Option.map_some, Option.bind_some]
  rfl

/-- What the pass does on a part of a marker with the given value. Behind what `or` joins, only the
value of the frame is determined. -/
def Computes (env : Environment) (b : Bool) (ts : List Token) : Level → Prop
  | .disjunction => ∀ any outer, ∃ frame : Frame, frame.value = (any || b) ∧
      run env ⟨.operand, ⟨any, true⟩, outer⟩ ts = some ⟨.done, frame, outer⟩
  | _ => ∀ frame outer,
      run env ⟨.operand, frame, outer⟩ ts = some ⟨.done, frame.and b, outer⟩

end State

/-- The pass computes the value of every part of a marker. -/
theorem Parses.computes {env : Environment} {level : Level} {ts : List Token} {m : Marker}
    (h : Parses level ts m) : State.Computes env (m.eval env) ts level := by
  induction h with
  | comparison h => exact State.run_comparison h
  | @group ts m _ ih =>
    intro frame outer
    obtain ⟨inner, hvalue, hrun⟩ := ih false (frame :: outer)
    have hopening : State.step env ⟨.operand, frame, outer⟩ .opening =
        some ⟨.operand, .start, frame :: outer⟩ := rfl
    have hclosing : State.run env ⟨.done, inner, frame :: outer⟩ [.closing] =
        some ⟨.done, frame.and inner.value, outer⟩ := rfl
    rw [State.run_cons, hopening, Option.bind_some, State.run_append, Frame.start, hrun,
      Option.bind_some, hclosing, hvalue, Bool.false_or]
  | ofSingle _ ih => exact ih
  | @and ts ts' m m' _ _ ih ih' =>
    intro frame outer
    have hword : State.step env ⟨.done, frame.and (m.eval env), outer⟩ (.word andWord) =
        some ⟨.operand, frame.and (m.eval env), outer⟩ := rfl
    rw [State.run_append, ih frame outer, Option.bind_some, State.run_cons, hword,
      Option.bind_some, ih' _ outer, Frame.and_and]
    rfl
  | @ofConjunction ts m _ ih =>
    intro any outer
    exact ⟨Frame.and ⟨any, true⟩ (m.eval env), rfl, ih ⟨any, true⟩ outer⟩
  | @or ts ts' m m' _ _ ih ih' =>
    intro any outer
    obtain ⟨frame, hvalue, hrun⟩ := ih any outer
    have hword : State.step env ⟨.done, frame, outer⟩ (.word orWord) =
        some ⟨.operand, ⟨frame.value, true⟩, outer⟩ := rfl
    refine ⟨Frame.and ⟨frame.value, true⟩ (m'.eval env), ?_, ?_⟩
    · simp only [Frame.value, Frame.and] at hvalue ⊢
      rw [hvalue, Bool.true_and, Bool.or_assoc]
      rfl
    · rw [State.run_append, hrun, Option.bind_some, State.run_cons, hword, Option.bind_some,
        ih' _ outer]

/-- The pass succeeds on a marker and computes its meaning. -/
theorem Parses.run {ts : List Token} {m : Marker} (h : Parses .disjunction ts m)
    (env : Environment) :
    ∃ frame, State.run env .start ts = some ⟨.done, frame, []⟩ ∧ frame.value = m.eval env := by
  obtain ⟨frame, hvalue, hrun⟩ := @Parses.computes env _ _ _ h false []
  exact ⟨frame, hrun, by rw [hvalue, Bool.false_or]⟩

/-- The tokens of a marker determine its meaning. -/
theorem Parses.eval_eq {ts : List Token} {m m' : Marker} (h : Parses .disjunction ts m)
    (h' : Parses .disjunction ts m') (env : Environment) : m.eval env = m'.eval env := by
  obtain ⟨frame, hrun, hvalue⟩ := h.run env
  obtain ⟨frame', hrun', hvalue'⟩ := h'.run env
  obtain rfl : frame = frame' := by
    rw [hrun] at hrun'
    simpa using hrun'
  rw [← hvalue, ← hvalue']

/-! ### The pass succeeds on markers only -/

/-- What `or` joins in front of a point, with the word behind it, or nothing. -/
inductive Alternatives : List Token → Prop
  | nil : Alternatives []
  | or {ts : List Token} {m : Marker} (h : Parses .disjunction ts m) :
      Alternatives (ts ++ [.word orWord])

/-- What stands in front of a point where a marker could end, since the last parenthesis that is
open. -/
def Finished (ts : List Token) : Prop :=
  ∃ before after m, ts = before ++ after ∧ Alternatives before ∧ Parses .conjunction after m

/-- What stands in front of a point where an operand is awaited, since the last parenthesis that is
open. -/
inductive Pending : List Token → Prop
  | alternatives {ts : List Token} (h : Alternatives ts) : Pending ts
  | and {ts : List Token} (h : Finished ts) : Pending (ts ++ [.word andWord])

/-- What stands in front of the last parenthesis that is open, and that parenthesis, for a number of
open ones. -/
inductive Context : ℕ → List Token → Prop
  | nil : Context 0 []
  | opening {n : ℕ} {ts ts' : List Token} (h : Context n ts) (h' : Pending ts') :
      Context (n + 1) (ts ++ (ts' ++ [.opening]))

theorem Pending.finished {ts ts' : List Token} {m : Marker} (h : Pending ts)
    (h' : Parses .single ts' m) : Finished (ts ++ ts') := by
  cases h with
  | alternatives h => exact ⟨ts, ts', m, rfl, h, .ofSingle h'⟩
  | and h =>
    obtain ⟨before, after, m', rfl, hbefore, hafter⟩ := h
    exact ⟨before, after ++ .word andWord :: ts', .all m' m, by simp, hbefore, hafter.and h'⟩

theorem Finished.exists_parses {ts : List Token} (h : Finished ts) :
    ∃ m, Parses .disjunction ts m := by
  obtain ⟨before, after, m, rfl, hbefore, hafter⟩ := h
  cases hbefore with
  | nil => exact ⟨m, .ofConjunction hafter⟩
  | @or ts m' h =>
    refine ⟨.any m' m, ?_⟩
    rw [List.append_assoc]
    exact h.or hafter

/-- What stands in front of each point of a marker, since the last parenthesis that is open. -/
def Point.Behind : Point → List Token → Prop
  | operand, ts => Pending ts
  | left o, ts => o.IsKnown ∧ ∃ before, Pending before ∧ ts = before ++ [o.token]
  | negated o, ts =>
    o.IsKnown ∧ ∃ before, Pending before ∧ ts = before ++ [o.token, .word notWord]
  | right o operator, ts =>
    o.IsKnown ∧ operator.IsKnown ∧ ∃ before, Pending before ∧
      ts = before ++ o.token :: operator.tokens
  | done, ts => Finished ts

namespace State

/-- The tokens that the pass has taken in a state. -/
def Behind (s : State) (ts : List Token) : Prop :=
  ∃ before inner, ts = before ++ inner ∧ Context s.outer.length before ∧ s.point.Behind inner

variable {env : Environment}

theorem token_of_operand? {t : Token} {o : Operand} (h : operand? t = some o) :
    o.token = t ∧ o.IsKnown := by
  unfold operand? at h
  split at h
  · split_ifs at h with hname
    obtain rfl := Option.some.inj h
    exact ⟨rfl, hname⟩
  · obtain rfl := Option.some.inj h
    exact ⟨rfl, trivial⟩
  · simp only [reduceCtorEq] at h

/-- The steps that the pass can take. -/
inductive Move (env : Environment) : State → Token → State → Prop
  | opening (frame : Frame) (outer : List Frame) :
      Move env ⟨.operand, frame, outer⟩ .opening ⟨.operand, .start, frame :: outer⟩
  | left {o : Operand} (h : o.IsKnown) (frame : Frame) (outer : List Frame) :
      Move env ⟨.operand, frame, outer⟩ o.token ⟨.left o, frame, outer⟩
  | symbol {operator : List Char} (h : operator ∈ comparators) (o : Operand) (frame : Frame)
      (outer : List Frame) : Move env ⟨.left o, frame, outer⟩ (.symbol operator)
        ⟨.right o (.symbol operator), frame, outer⟩
  | within (o : Operand) (frame : Frame) (outer : List Frame) :
      Move env ⟨.left o, frame, outer⟩ (.word inWord) ⟨.right o .within, frame, outer⟩
  | not (o : Operand) (frame : Frame) (outer : List Frame) :
      Move env ⟨.left o, frame, outer⟩ (.word notWord) ⟨.negated o, frame, outer⟩
  | outside (o : Operand) (frame : Frame) (outer : List Frame) :
      Move env ⟨.negated o, frame, outer⟩ (.word inWord) ⟨.right o .outside, frame, outer⟩
  | right {o' : Operand} (h : o'.IsKnown) (o : Operand) (operator : Operator) (frame : Frame)
      (outer : List Frame) : Move env ⟨.right o operator, frame, outer⟩ o'.token
        ⟨.done, frame.and (Comparison.eval env ⟨o, operator, o'⟩), outer⟩
  | and (frame : Frame) (outer : List Frame) :
      Move env ⟨.done, frame, outer⟩ (.word andWord) ⟨.operand, frame, outer⟩
  | or (frame : Frame) (outer : List Frame) :
      Move env ⟨.done, frame, outer⟩ (.word orWord) ⟨.operand, ⟨frame.value, true⟩, outer⟩
  | closing (frame outer : Frame) (rest : List Frame) :
      Move env ⟨.done, frame, outer :: rest⟩ .closing ⟨.done, outer.and frame.value, rest⟩

theorem move_of_step {s s' : State} {t : Token} (h : s.step env t = some s') : Move env s t s' := by
  unfold State.step at h
  split at h
  · obtain rfl := Option.some.inj h
    exact .opening _ _
  · obtain ⟨o, ho, rfl⟩ := Option.map_eq_some_iff.mp h
    obtain ⟨rfl, hknown⟩ := token_of_operand? ho
    exact .left hknown _ _
  · split_ifs at h with hoperator
    obtain rfl := Option.some.inj h
    exact .symbol hoperator _ _ _
  · split_ifs at h with hin hnot
    · obtain rfl := Option.some.inj h
      exact hin ▸ .within _ _ _
    · obtain rfl := Option.some.inj h
      exact hnot ▸ .not _ _ _
  · split_ifs at h with hin
    obtain rfl := Option.some.inj h
    exact hin ▸ .outside _ _ _
  · obtain ⟨o', ho', rfl⟩ := Option.map_eq_some_iff.mp h
    obtain ⟨rfl, hknown⟩ := token_of_operand? ho'
    exact .right hknown _ _ _ _
  · split_ifs at h with hand hor
    · obtain rfl := Option.some.inj h
      exact hand ▸ .and _ _
    · obtain rfl := Option.some.inj h
      exact hor ▸ .or _ _
  · obtain rfl := Option.some.inj h
    exact .closing _ _ _
  · simp only [reduceCtorEq] at h

/-- A step keeps what stands in front of a point: either it goes on with the operands and operators
since the last parenthesis that is open, or it opens or closes one. -/
theorem Behind.step {s s' : State} {ts : List Token} {t : Token} (h : s.Behind ts)
    (hstep : s.step env t = some s') : s'.Behind (ts ++ [t]) := by
  obtain ⟨before, inner, rfl, hcontext, hpoint⟩ := h
  cases move_of_step hstep with
  | opening frame outer =>
    exact ⟨before ++ (inner ++ [.opening]), [], by simp, hcontext.opening hpoint,
      .alternatives .nil⟩
  | @left o hknown frame outer =>
    exact ⟨before, inner ++ [o.token], by simp, hcontext, hknown, inner, hpoint, rfl⟩
  | @symbol operator hoperator o frame outer =>
    obtain ⟨hknown, front, hfront, rfl⟩ := hpoint
    exact ⟨before, front ++ [o.token, .symbol operator], by simp, hcontext, hknown, hoperator,
      front, hfront, rfl⟩
  | within o frame outer =>
    obtain ⟨hknown, front, hfront, rfl⟩ := hpoint
    exact ⟨before, front ++ [o.token, .word inWord], by simp, hcontext, hknown, trivial, front,
      hfront, rfl⟩
  | not o frame outer =>
    obtain ⟨hknown, front, hfront, rfl⟩ := hpoint
    exact ⟨before, front ++ [o.token, .word notWord], by simp, hcontext, hknown, front, hfront,
      rfl⟩
  | outside o frame outer =>
    obtain ⟨hknown, front, hfront, rfl⟩ := hpoint
    exact ⟨before, front ++ [o.token, .word notWord, .word inWord], by simp, hcontext, hknown,
      trivial, front, hfront, rfl⟩
  | @right o' hknown' o operator frame outer =>
    obtain ⟨hknown, hoperator, front, hfront, rfl⟩ := hpoint
    have hcomparison : Parses .single (Comparison.tokens ⟨o, operator, o'⟩) _ :=
      .comparison ⟨hknown, hoperator, hknown'⟩
    exact ⟨before, front ++ Comparison.tokens ⟨o, operator, o'⟩, by simp [Comparison.tokens],
      hcontext, hfront.finished hcomparison⟩
  | and frame outer =>
    exact ⟨before, inner ++ [Token.word andWord], by simp, hcontext, Pending.and hpoint⟩
  | or frame outer =>
    obtain ⟨m, hm⟩ := Finished.exists_parses hpoint
    exact ⟨before, inner ++ [.word orWord], by simp, hcontext, .alternatives (.or hm)⟩
  | closing frame outer rest =>
    obtain ⟨m, hm⟩ := Finished.exists_parses hpoint
    cases hcontext with
    | @opening n ts ts' hts hts' =>
      exact ⟨ts, ts' ++ (.opening :: (inner ++ [.closing])), by simp, hts,
        hts'.finished (.group hm)⟩

theorem Behind.run {s s' : State} {ts ts' : List Token} (h : s.Behind ts)
    (hrun : s.run env ts' = some s') : s'.Behind (ts ++ ts') := by
  induction ts' generalizing s ts with
  | nil =>
    obtain rfl := Option.some.inj hrun
    rwa [List.append_nil]
  | cons t ts' ih =>
    rw [run_cons, Option.bind_eq_some_iff] at hrun
    obtain ⟨s₁, hstep, hrun⟩ := hrun
    rw [List.append_cons]
    exact ih (h.step hstep) hrun

end State

/-- The pass succeeds on markers only. -/
theorem exists_parses_of_run {env : Environment} {ts : List Token} {frame : Frame}
    (h : State.run env .start ts = some ⟨.done, frame, []⟩) :
    ∃ m, Parses .disjunction ts m ∧ m.eval env = frame.value := by
  have hstart : State.start.Behind [] := ⟨[], [], rfl, .nil, .alternatives .nil⟩
  obtain ⟨before, inner, hts, hcontext, hpoint⟩ := hstart.run h
  cases hcontext with
  | nil =>
    obtain rfl : ts = inner := hts
    obtain ⟨m, hm⟩ := Finished.exists_parses hpoint
    obtain ⟨frame', hrun, hvalue⟩ := hm.run env
    obtain rfl : frame = frame' := by
      rw [h] at hrun
      simpa using hrun
    exact ⟨m, hm, hvalue.symm⟩

/-! ### Taking out a part that holds -/

namespace State

variable {env : Environment} {clause : List Token} {e : Marker}

theorem run_single (h : Parses .single clause e) (he : e.eval env = true) (frame : Frame)
    (outer : List Frame) :
    run env ⟨.operand, frame, outer⟩ clause = some ⟨.done, frame, outer⟩ := by
  have hrun := @Parses.computes env _ _ _ h frame outer
  rwa [he, Frame.and_true] at hrun

/-- The word `and` stands behind a comparison or a closing parenthesis, and an operand is awaited
behind it. -/
theorem step_andWord {s s' : State} (h : s.step env (.word andWord) = some s') :
    s.point = .done ∧ s' = ⟨.operand, s.frame, s.outer⟩ := by
  obtain ⟨point, frame, outer⟩ := s
  have hname : operand? (.word andWord) = none := by decide
  cases point with
  | operand => simp [step, hname] at h
  | left o => simp [step, show andWord ≠ inWord by decide, show andWord ≠ notWord by decide] at h
  | negated o => simp [step, show andWord ≠ inWord by decide] at h
  | right o operator => simp [step, hname] at h
  | done => exact ⟨rfl, by simpa [step, eq_comm] using h⟩

/-- A part that holds, behind the word `and`, leaves the state unchanged. -/
theorem run_and_single (h : Parses .single clause e) (he : e.eval env = true) {s s' : State}
    (hstep : s.step env (.word andWord) = some s') : s'.run env clause = some s := by
  obtain ⟨hdone, rfl⟩ := step_andWord hstep
  rw [run_single h he, ← hdone]

theorem run_drop (h : Parses .single clause e) (he : e.eval env = true) {s s' : State}
    {before after : List Token}
    (hrun : s.run env (before ++ .word andWord :: (clause ++ after)) = some s') :
    s.run env (before ++ after) = some s' := by
  rw [run_append, Option.bind_eq_some_iff] at hrun ⊢
  obtain ⟨s₁, hbefore, hrun⟩ := hrun
  rw [run_cons, Option.bind_eq_some_iff] at hrun
  obtain ⟨s₂, hstep, hrun⟩ := hrun
  rw [run_append, run_and_single h he hstep] at hrun
  exact ⟨s₁, hbefore, hrun⟩

theorem run_drop_first (h : Parses .single clause e) (he : e.eval env = true) {after : List Token} :
    run env .start (clause ++ .word andWord :: after) = run env .start after := by
  rw [run_append, start, run_single h he, Option.bind_some, run_cons]
  rfl

end State

variable {clause before after : List Token} {e m : Marker}

/-- Tokens that the pass takes to the same state where a part holds: a marker stays a marker, and
means the same there. -/
private theorem Parses.exists_of_run {ts ts' : List Token} (h : Parses .disjunction ts m)
    (hrun : ∀ env s, e.eval env = true → State.run env .start ts = some s →
      State.run env .start ts' = some s) (hholds : ∃ env, e.eval env = true) :
    ∃ m', Parses .disjunction ts' m' ∧ ∀ env, e.eval env = true → m'.eval env = m.eval env := by
  obtain ⟨env₀, he₀⟩ := hholds
  obtain ⟨frame₀, hrun₀, -⟩ := h.run env₀
  obtain ⟨m', hm', -⟩ := exists_parses_of_run (hrun env₀ _ he₀ hrun₀)
  refine ⟨m', hm', fun env he => ?_⟩
  obtain ⟨frame, hframe, hvalue⟩ := h.run env
  obtain ⟨m'', hm'', hvalue''⟩ := exists_parses_of_run (hrun env _ he hframe)
  rw [hm'.eval_eq hm'' env, hvalue'', hvalue]

/-- A part of a marker behind the word `and` can be taken out, with that word: what is left is a
marker, and means the same wherever the part holds. -/
theorem Parses.drop (hclause : Parses .single clause e) (hholds : ∃ env, e.eval env = true)
    (h : Parses .disjunction (before ++ .word andWord :: (clause ++ after)) m) :
    ∃ m', Parses .disjunction (before ++ after) m' ∧
      ∀ env, e.eval env = true → m'.eval env = m.eval env :=
  h.exists_of_run (fun _ _ he => State.run_drop hclause he) hholds

/-- The first part of a marker can be taken out with the word `and` behind it. -/
theorem Parses.drop_first (hclause : Parses .single clause e) (hholds : ∃ env, e.eval env = true)
    (h : Parses .disjunction (clause ++ .word andWord :: after) m) :
    ∃ m', Parses .disjunction after m' ∧ ∀ env, e.eval env = true → m'.eval env = m.eval env :=
  h.exists_of_run (fun _ _ he hrun => State.run_drop_first hclause he ▸ hrun) hholds

end Descriptor.Marker
