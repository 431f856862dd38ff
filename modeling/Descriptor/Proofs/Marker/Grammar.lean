import Descriptor.Proofs.Marker.Token

/-!
# Environment markers and what they mean

The grammar of environment markers: comparisons between variables and quoted texts, joined by `and`
and `or`, of which `and` binds tighter, and by parentheses. A marker is a condition on an
environment, in which one group of extras may be active and every other comparison holds or does
not.

## Main definitions

* `Marker` : what a well-formed marker says.
* `Parses`, `Reads` : the grammar, on tokens and on texts.
* `Environment`, `Marker.eval` : the meaning of a marker.

## Main results

* `Reads.squeeze` : a squeezed marker says the same with squeezed values.
* `Parses.count_opening` : the parentheses of a marker match.
-/

namespace Descriptor

open Text Requirement

namespace Marker

/-- One side of a comparison: a variable, or a quoted text. -/
inductive Operand
  | named (name : List Char)
  | text (value : List Char)
  deriving DecidableEq, Repr

/-- What a comparison compares with: a symbol, or the words `in` and `not in`. -/
inductive Operator
  | symbol (operator : List Char)
  | within
  | outside
  deriving DecidableEq, Repr

/-- A comparison of two operands. -/
structure Comparison where
  left : Operand
  operator : Operator
  right : Operand
  deriving DecidableEq, Repr

end Marker

/-- What a marker says. -/
inductive Marker
  | comparison (c : Marker.Comparison)
  | all (first second : Marker)
  | any (first second : Marker)
  deriving DecidableEq, Repr

namespace Marker

/-! ### The grammar -/

/-- The variables that a marker can compare. -/
def variableNames : List (List Char) :=
  ["python_version".toList, "python_full_version".toList, "os_name".toList, "sys_platform".toList,
    "platform_release".toList, "platform_system".toList, "platform_version".toList,
    "platform_machine".toList, "platform_python_implementation".toList,
    "implementation_name".toList, "implementation_version".toList, extraVariable]

/-- The symbols that a marker can compare with. -/
def comparators : List (List Char) :=
  ["<=".toList, "<".toList, "!=".toList, "==".toList, ">=".toList, ">".toList, "~=".toList,
    "===".toList]

/-- The words that are no variables. -/
def andWord : List Char := ['a', 'n', 'd']

@[inherit_doc andWord]
def orWord : List Char := ['o', 'r']

@[inherit_doc andWord]
def inWord : List Char := ['i', 'n']

@[inherit_doc andWord]
def notWord : List Char := ['n', 'o', 't']

/-- The token of an operand. -/
def Operand.token : Operand → Token
  | named name => .word name
  | text value => .quoted value

/-- The tokens of an operator. -/
def Operator.tokens : Operator → List Token
  | symbol operator => [.symbol operator]
  | within => [.word inWord]
  | outside => [.word notWord, .word inWord]

/-- The tokens of a comparison. -/
def Comparison.tokens (c : Comparison) : List Token :=
  c.left.token :: (c.operator.tokens ++ [c.right.token])

/-- Every variable is one of those that there are. -/
def Operand.IsKnown : Operand → Prop
  | named name => name ∈ variableNames
  | text _ => True

/-- Every symbol is one of those that there are. -/
def Operator.IsKnown : Operator → Prop
  | symbol operator => operator ∈ comparators
  | _ => True

/-- Every variable and every symbol is one of those that there are. -/
structure Comparison.IsKnown (c : Comparison) : Prop where
  left : c.left.IsKnown
  operator : c.operator.IsKnown
  right : c.right.IsKnown

/-- The parts of a marker, from the tightest to the loosest: comparisons and what stands in
parentheses, what `and` joins, and what `or` joins. -/
inductive Level
  | single
  | conjunction
  | disjunction
  deriving DecidableEq, Repr

/-- The tokens of the parts of a marker, and what they say. -/
inductive Parses : Level → List Token → Marker → Prop
  | comparison {c : Comparison} (h : c.IsKnown) : Parses .single c.tokens (.comparison c)
  | group {ts : List Token} {m : Marker} (h : Parses .disjunction ts m) :
      Parses .single (.opening :: (ts ++ [.closing])) m
  | ofSingle {ts : List Token} {m : Marker} (h : Parses .single ts m) : Parses .conjunction ts m
  | and {ts ts' : List Token} {m m' : Marker} (h : Parses .conjunction ts m)
      (h' : Parses .single ts' m') : Parses .conjunction (ts ++ .word andWord :: ts') (.all m m')
  | ofConjunction {ts : List Token} {m : Marker} (h : Parses .conjunction ts m) :
      Parses .disjunction ts m
  | or {ts ts' : List Token} {m m' : Marker} (h : Parses .disjunction ts m)
      (h' : Parses .conjunction ts' m') :
      Parses .disjunction (ts ++ .word orWord :: ts') (.any m m')

/-- A text that is a well-formed marker, with what it says. -/
def Reads (text : List Char) (m : Marker) : Prop := Parses .disjunction (tokens text) m

/-! ### Meaning -/

/-- The group that a comparison asks for: it compares the variable `extra` for equality. -/
def Comparison.group? : Comparison → Option (List Char)
  | ⟨.named name, .symbol operator, .text group⟩ =>
    if name = extraVariable ∧ operator = ['=', '='] then some group else none
  | _ => none

/-- The group that is active, if any, and which comparisons hold otherwise. -/
structure Environment where
  extra : Option String
  holds : Comparison → Bool

/-- Whether a comparison holds. -/
def Comparison.eval (env : Environment) (c : Comparison) : Bool :=
  match c.group? with
  | some group => env.extra = some (String.ofList group)
  | none => env.holds c

/-- Whether a marker holds. -/
def eval (env : Environment) : Marker → Bool
  | comparison c => c.eval env
  | all first second => first.eval env && second.eval env
  | any first second => first.eval env || second.eval env

/-! ### Squeezed markers -/

/-- An operand with one space for every run of blanks in its text. -/
def Operand.collapse : Operand → Operand
  | named name => named name
  | text value => text (Text.collapse false value)

/-- A marker with one space for every run of blanks in its texts. -/
def collapse : Marker → Marker
  | comparison c => comparison ⟨c.left.collapse, c.operator, c.right.collapse⟩
  | all first second => all first.collapse second.collapse
  | any first second => any first.collapse second.collapse

private theorem Operand.token_collapse (o : Operand) : o.collapse.token = o.token.collapse := by
  cases o <;> rfl

private theorem Operator.map_collapse_tokens (o : Operator) :
    o.tokens.map Token.collapse = o.tokens := by
  cases o <;> rfl

private theorem Operand.isKnown_collapse {o : Operand} (h : o.IsKnown) : o.collapse.IsKnown := by
  cases o <;> exact h

theorem Parses.collapse {level : Level} {ts : List Token} {m : Marker} (h : Parses level ts m) :
    Parses level (ts.map Token.collapse) m.collapse := by
  induction h with
  | @comparison c h =>
    have htokens : c.tokens.map Token.collapse =
        Comparison.tokens ⟨c.left.collapse, c.operator, c.right.collapse⟩ := by
      simp [Comparison.tokens, Operand.token_collapse, Operator.map_collapse_tokens]
    rw [htokens]
    exact .comparison ⟨Operand.isKnown_collapse h.left, h.operator,
      Operand.isKnown_collapse h.right⟩
  | group _ ih =>
    rw [List.map_cons, List.map_append]
    exact .group ih
  | ofSingle _ ih => exact .ofSingle ih
  | and _ _ ih ih' =>
    rw [List.map_append, List.map_cons]
    exact .and ih ih'
  | ofConjunction _ ih => exact .ofConjunction ih
  | or _ _ ih ih' =>
    rw [List.map_append, List.map_cons]
    exact .or ih ih'

/-- A squeezed marker says the same about squeezed texts. -/
theorem Reads.squeeze {text : List Char} {m : Marker} (h : Reads text m) :
    Reads (Text.squeeze text) m.collapse := by
  rw [Reads, tokens_squeeze]
  exact Parses.collapse h

/-! ### Parentheses and values -/

private theorem Comparison.not_mem_tokens {t : Token} (c : Comparison)
    (hword : ∀ name, t ≠ .word name) (hsymbol : ∀ operator, t ≠ .symbol operator)
    (hquoted : ∀ value, t ≠ .quoted value) : t ∉ c.tokens := by
  obtain ⟨left, operator, right⟩ := c
  cases left <;> cases operator <;> cases right <;>
    simp [Comparison.tokens, Operand.token, Operator.tokens, hword, hsymbol, hquoted]

theorem Parses.ne_nil {level : Level} {ts : List Token} {m : Marker} (h : Parses level ts m) :
    ts ≠ [] := by
  induction h with
  | comparison | group => exact List.cons_ne_nil _ _
  | ofSingle _ ih | ofConjunction _ ih => exact ih
  | and | or => exact List.append_ne_nil_of_right_ne_nil _ (List.cons_ne_nil _ _)

/-- As many parentheses open as close. -/
theorem Parses.count_opening {level : Level} {ts : List Token} {m : Marker}
    (h : Parses level ts m) : ts.count .opening = ts.count .closing := by
  induction h with
  | @comparison c h =>
    rw [List.count_eq_zero_of_not_mem (c.not_mem_tokens (by simp) (by simp) (by simp)),
      List.count_eq_zero_of_not_mem (c.not_mem_tokens (by simp) (by simp) (by simp))]
  | group _ ih => simp [ih]
  | ofSingle _ ih => exact ih
  | and _ _ ih ih' => simp [ih, ih']
  | ofConjunction _ ih => exact ih
  | or _ _ ih ih' => simp [ih, ih']

end Marker

end Descriptor
