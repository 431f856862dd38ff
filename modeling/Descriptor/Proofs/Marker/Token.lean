import Descriptor.Proofs.Text.Squeeze
import Descriptor.Requirement.Clause

/-!
# Tokens of environment markers

An environment marker consists of words, operators, quoted values and parentheses, with any white
space between them. A text is read character by character in a mode, which says what has begun and
not ended; so what a text is read as does not depend on how it is cut, once the mode at the cut is
known.

White space counts only inside a quoted value. Squeezing a text therefore changes its values and
nothing else, and the word `and` between two texts stands between their tokens, unless the first
text ends within a value.

## Main definitions

* `Token`, `Mode` : what a marker consists of, and what is being read.
* `tokens` : the tokens of a text.

## Main results

* `tokens_squeeze` : the tokens of a squeezed text.
* `tokens_append_conjunction` : the tokens of two texts with the word `and` between them.
-/

namespace Descriptor.Marker

open Text Requirement

/-! ### Reading a text -/

/-- What a marker consists of. A value without its closing quotation mark is `unclosed`. -/
inductive Token
  | opening
  | closing
  | word (name : List Char)
  | symbol (operator : List Char)
  | quoted (value : List Char)
  | unclosed
  deriving DecidableEq, Repr

/-- What has begun and not ended: nothing, a word, an operator, or a value with its quotation
mark. -/
inductive Mode
  | between
  | word (name : List Char)
  | symbol (operator : List Char)
  | quoted (quote : Char) (hquote : isQuote quote) (value : List Char)

namespace Mode

/-- The token of what has begun when the text ends. -/
def finish : Mode → List Token
  | between => []
  | word name => [.word name]
  | symbol operator => [.symbol operator]
  | quoted _ _ _ => [.unclosed]

end Mode

/-- Whether a character belongs to an operator. -/
def isSymbol (c : Char) : Bool := ['<', '>', '=', '!', '~'].contains c

/-- Whether a character belongs to a word. -/
def isWord (c : Char) : Bool :=
  !(isBlank c || isQuote c || isSymbol c || c = '(' || c = ')')

namespace Mode

/-- A character where nothing has begun: the token that it is, if any, and what it begins. -/
def start (c : Char) : List Token × Mode :=
  if h : isQuote c then ([], quoted c h [])
  else if isSymbol c then ([], symbol [c])
  else if isWord c then ([], word [c])
  else if c = '(' then ([.opening], between)
  else if c = ')' then ([.closing], between)
  else ([], between)

/-- A further character, with the tokens that end at it or in front of it. -/
def step : Mode → Char → List Token × Mode
  | between, c => start c
  | word name, c =>
    if isWord c then ([], word (name ++ [c])) else (.word name :: (start c).1, (start c).2)
  | symbol operator, c =>
    if isSymbol c then ([], symbol (operator ++ [c]))
    else (.symbol operator :: (start c).1, (start c).2)
  | quoted quote hquote value, c =>
    if c = quote then ([.quoted value], between) else ([], quoted quote hquote (value ++ [c]))

/-- The tokens that end within a text, and what has begun at its end. -/
def run : Mode → List Char → List Token × Mode
  | mode, [] => ([], mode)
  | mode, c :: cs =>
    ((mode.step c).1 ++ ((mode.step c).2.run cs).1, ((mode.step c).2.run cs).2)

/-- The tokens of a text that begins in the given mode. -/
def tokens (mode : Mode) (cs : List Char) : List Token := (mode.run cs).1 ++ (mode.run cs).2.finish

/-- Whether no quoted value has begun. -/
def isPlain : Mode → Bool
  | quoted _ _ _ => false
  | _ => true

end Mode

/-- The tokens of a text. -/
def tokens (cs : List Char) : List Token := Mode.between.tokens cs

/-! ### Cutting a text -/

namespace Mode

theorem run_append (mode : Mode) (xs ys : List Char) :
    mode.run (xs ++ ys) =
      ((mode.run xs).1 ++ ((mode.run xs).2.run ys).1, ((mode.run xs).2.run ys).2) := by
  induction xs generalizing mode with
  | nil => rfl
  | cons c xs ih => simp only [List.cons_append, run, ih, List.append_assoc]

theorem tokens_append (mode : Mode) (xs ys : List Char) :
    mode.tokens (xs ++ ys) = (mode.run xs).1 ++ (mode.run xs).2.tokens ys := by
  simp only [tokens, run_append, List.append_assoc]

theorem tokens_cons (mode : Mode) (c : Char) (cs : List Char) :
    mode.tokens (c :: cs) = (mode.step c).1 ++ (mode.step c).2.tokens cs := by
  simp only [tokens, run, List.append_assoc]

end Mode

/-! ### Blanks -/

theorem isQuote_of_isBlank {c : Char} (h : isBlank c) : isQuote c = false := by
  by_contra hquote
  simp only [isQuote, Bool.not_eq_false, Bool.or_eq_true, decide_eq_true_eq] at hquote
  rcases hquote with rfl | rfl <;> exact absurd h (by decide)

theorem isSymbol_of_isBlank {c : Char} (h : isBlank c) : isSymbol c = false := by
  by_contra hsymbol
  simp only [isSymbol, Bool.not_eq_false, List.contains_eq_mem, decide_eq_true_eq] at hsymbol
  have hblank : ∀ d ∈ ['<', '>', '=', '!', '~'], isBlank d = false :=
    List.all_iff_forall_prop.mp (by decide)
  exact absurd h (by rw [hblank c hsymbol]; decide)

namespace Mode

/-- A blank begins nothing. -/
theorem start_of_isBlank {c : Char} (h : isBlank c) : start c = ([], between) := by
  have hopening : c ≠ '(' := by
    rintro rfl
    exact absurd h (by decide)
  have hclosing : c ≠ ')' := by
    rintro rfl
    exact absurd h (by decide)
  simp [start, isQuote_of_isBlank h, isSymbol_of_isBlank h, isWord, h, hopening, hclosing]

theorem step_of_isBlank {mode : Mode} (hplain : mode.isPlain) {c : Char} (h : isBlank c) :
    mode.step c = (mode.finish, between) := by
  have hword : isWord c = false := by simp [isWord, h]
  cases mode with
  | between => exact start_of_isBlank h
  | word name => simp [step, hword, start_of_isBlank h, finish]
  | symbol operator => simp [step, isSymbol_of_isBlank h, start_of_isBlank h, finish]
  | quoted quote hquote value => exact absurd hplain Bool.false_ne_true

/-- A blank outside of a value ends what has begun. -/
theorem tokens_cons_of_isBlank {mode : Mode} (hplain : mode.isPlain) {c : Char} (h : isBlank c)
    (cs : List Char) : mode.tokens (c :: cs) = mode.finish ++ between.tokens cs := by
  rw [tokens_cons, step_of_isBlank hplain h]

/-- Blanks at the end of a text make no difference. -/
theorem tokens_blanks {blanks : List Char} (h : Blanks blanks) (mode : Mode) :
    mode.tokens blanks = mode.finish := by
  induction blanks generalizing mode with
  | nil => exact List.nil_append _
  | cons c blanks ih =>
    have hc := h c List.mem_cons_self
    have ih := ih fun d hd => h d (List.mem_cons_of_mem c hd)
    by_cases hplain : mode.isPlain
    · rw [tokens_cons_of_isBlank hplain hc, ih]
      exact List.append_nil _
    · cases mode with
      | quoted quote hquote value =>
        have hne : c ≠ quote := by
          rintro rfl
          simp [isQuote_of_isBlank hc] at hquote
        rw [tokens_cons, step, if_neg hne, ih]
        rfl
      | between | word | symbol => exact absurd rfl hplain

theorem tokens_append_blanks (mode : Mode) (cs : List Char) {blanks : List Char}
    (h : Blanks blanks) : mode.tokens (cs ++ blanks) = mode.tokens cs := by
  rw [tokens_append, tokens_blanks h, tokens]

end Mode

theorem tokens_blanks_append {blanks : List Char} (h : Blanks blanks) (cs : List Char) :
    tokens (blanks ++ cs) = tokens cs := by
  induction blanks with
  | nil => rfl
  | cons c blanks ih =>
    rw [List.cons_append, tokens, Mode.tokens_cons_of_isBlank rfl (h c List.mem_cons_self)]
    exact ih fun d hd => h d (List.mem_cons_of_mem c hd)

/-! ### Values without an end -/

namespace Mode

theorem unclosed_not_mem_start (c : Char) : .unclosed ∉ (start c).1 := by
  unfold start
  split_ifs <;> simp

theorem unclosed_not_mem_step (mode : Mode) (c : Char) : .unclosed ∉ (mode.step c).1 := by
  cases mode <;> unfold step <;> dsimp only
  · exact unclosed_not_mem_start c
  · split_ifs <;> simp [unclosed_not_mem_start c]
  · split_ifs <;> simp [unclosed_not_mem_start c]
  · split_ifs <;> simp

theorem unclosed_not_mem_run (mode : Mode) (cs : List Char) : .unclosed ∉ (mode.run cs).1 := by
  induction cs generalizing mode with
  | nil => exact List.not_mem_nil
  | cons c cs ih =>
    rw [run, List.mem_append, not_or]
    exact ⟨unclosed_not_mem_step mode c, ih _⟩

/-- A text has a value without an end when it ends within a value. -/
theorem unclosed_not_mem_tokens_iff {mode : Mode} {cs : List Char} :
    .unclosed ∉ mode.tokens cs ↔ (mode.run cs).2.isPlain := by
  rw [tokens, List.mem_append, or_iff_right (unclosed_not_mem_run mode cs)]
  cases (mode.run cs).2 <;> simp [finish, isPlain]

end Mode

/-- The word `and` between two texts, the first of which does not end within a value. -/
theorem tokens_append_conjunction {xs : List Char} (h : .unclosed ∉ tokens xs) (ys : List Char) :
    tokens (xs ++ conjunction ++ ys) =
      tokens xs ++ .word ['a', 'n', 'd'] :: tokens ys := by
  have hplain := Mode.unclosed_not_mem_tokens_iff.mp h
  have hword : tokens (['a', 'n', 'd', ' '] ++ ys) = .word ['a', 'n', 'd'] :: tokens ys := by
    rw [tokens, Mode.tokens_append]
    rfl
  rw [List.append_assoc, tokens, Mode.tokens_append, conjunction, List.cons_append,
    Mode.tokens_cons_of_isBlank hplain isBlank_space]
  rw [tokens] at hword
  rw [hword, ← List.append_assoc]
  rfl

/-! ### Repeated characters, values and gaps -/

theorem tokens_replicate_append {c : Char} {t : Token}
    (h : Mode.start c = ([t], .between)) (n : ℕ) (cs : List Char) :
    tokens (List.replicate n c ++ cs) = List.replicate n t ++ tokens cs := by
  induction n with
  | zero => rfl
  | succ n ih =>
    have hstep : Mode.step .between c = ([t], .between) := h
    rw [List.replicate_succ, List.cons_append, tokens, Mode.tokens_cons, hstep, ← tokens, ih]
    rfl

theorem tokens_quoted_append {quote : Char} (hquote : isQuote quote)
    {text : List Char} (h : quote ∉ text) (value cs : List Char) :
    (Mode.quoted quote hquote value).tokens (text ++ quote :: cs) =
      .quoted (value ++ text) :: tokens cs := by
  induction text generalizing value with
  | nil =>
    rw [List.nil_append, Mode.tokens_cons, Mode.step, if_pos rfl, List.append_nil]
    rfl
  | cons c text ih =>
    have hne : c ≠ quote := fun heq => h (heq ▸ List.mem_cons_self)
    rw [List.cons_append, Mode.tokens_cons, Mode.step, if_neg hne,
      ih fun hmem => h (List.mem_cons_of_mem c hmem)]
    simp

/-- Blanks in front of the next character end what has begun, as that character would. -/
theorem tokens_blanks_append_of_step {mode : Mode} (hplain : mode.isPlain) {c : Char}
    (hstep : mode.step c = (mode.finish ++ (Mode.start c).1, (Mode.start c).2))
    {blanks : List Char} (h : Blanks blanks) (cs : List Char) :
    mode.tokens (blanks ++ c :: cs) = mode.finish ++ tokens (c :: cs) := by
  cases blanks with
  | nil =>
    rw [List.nil_append, Mode.tokens_cons, hstep, tokens, Mode.tokens_cons, List.append_assoc]
    rfl
  | cons b blanks =>
    rw [List.cons_append, Mode.tokens_cons_of_isBlank hplain (h b List.mem_cons_self),
      ← tokens, tokens_blanks_append fun d hd => h d (List.mem_cons_of_mem b hd)]

/-! ### Squeezed texts -/

/-- A token with one space for every run of blanks in its value. -/
def Token.collapse : Token → Token
  | .quoted value => .quoted (Text.collapse false value)
  | token => token

namespace Mode

/-- What has begun, with one space for every run of blanks in its value. -/
def collapse : Mode → Mode
  | quoted quote hquote value => quoted quote hquote (Text.collapse false value)
  | mode => mode

/-- Whether the last character was blank, as far as what has begun tells it. -/
def Follows (blank : Bool) : Mode → Prop
  | between => True
  | word _ => blank = false
  | symbol _ => blank = false
  | quoted _ _ value => blank = endsBlank false value

private theorem collapse_start (c : Char) :
    (start c).1.map Token.collapse = (start c).1 ∧ (start c).2.collapse = (start c).2 ∧
      (isBlank c = false → Follows false (start c).2) := by
  unfold start
  split_ifs <;> simp [Token.collapse, collapse, Text.collapse, Follows, endsBlank]

private theorem run_singleton (mode : Mode) (c : Char) : mode.run [c] = mode.step c := by
  simp [run]

private theorem run_collapse_of_isBlank {mode : Mode} {blank : Bool} (h : Follows blank mode)
    {c : Char} (hc : isBlank c) :
    mode.collapse.run (Text.collapse blank [c]) =
        ((mode.step c).1.map Token.collapse, (mode.step c).2.collapse) ∧
      Follows true (mode.step c).2 := by
  cases mode with
  | between =>
    rw [step_of_isBlank rfl hc]
    cases blank <;> simp only [Text.collapse, hc] <;> exact ⟨rfl, trivial⟩
  | word name =>
    obtain rfl : blank = false := h
    rw [step_of_isBlank rfl hc]
    simp only [Text.collapse, hc, collapse, ite_true, Bool.false_eq_true, ite_false]
    rw [run_singleton, step_of_isBlank rfl isBlank_space]
    exact ⟨rfl, trivial⟩
  | symbol operator =>
    obtain rfl : blank = false := h
    rw [step_of_isBlank rfl hc]
    simp only [Text.collapse, hc, collapse, ite_true, Bool.false_eq_true, ite_false]
    rw [run_singleton, step_of_isBlank rfl isBlank_space]
    exact ⟨rfl, trivial⟩
  | quoted quote hquote value =>
    obtain rfl : blank = endsBlank false value := h
    have hne : ∀ d, isBlank d → d ≠ quote := by
      rintro d hd rfl
      simp [isQuote_of_isBlank hd] at hquote
    rw [step, if_neg (hne c hc)]
    refine ⟨?_, by simp [Follows, endsBlank_append, endsBlank, hc]⟩
    cases hends : endsBlank false value <;>
      simp [Text.collapse, hc, collapse, run, step, hne _ isBlank_space, collapse_append, hends]

private theorem run_collapse_of_not_blank {mode : Mode} {blank : Bool} (h : Follows blank mode)
    {c : Char} (hc : isBlank c = false) :
    mode.collapse.run (Text.collapse blank [c]) =
        ((mode.step c).1.map Token.collapse, (mode.step c).2.collapse) ∧
      Follows false (mode.step c).2 := by
  obtain ⟨htokens, hmode, hfollows⟩ := collapse_start c
  rw [collapse_cons_of_not_blank hc, Text.collapse, run_singleton]
  cases mode with
  | between => exact ⟨Prod.ext htokens.symm hmode.symm, hfollows hc⟩
  | word name =>
    simp only [collapse, step]
    split_ifs
    · exact ⟨rfl, rfl⟩
    · exact ⟨Prod.ext (congrArg (.word name :: ·) htokens.symm) hmode.symm, hfollows hc⟩
  | symbol operator =>
    simp only [collapse, step]
    split_ifs
    · exact ⟨rfl, rfl⟩
    · exact ⟨Prod.ext (congrArg (.symbol operator :: ·) htokens.symm) hmode.symm, hfollows hc⟩
  | quoted quote hquote value =>
    obtain rfl : blank = endsBlank false value := h
    simp only [collapse, step]
    split_ifs
    · exact ⟨rfl, trivial⟩
    · simp [collapse_append, Text.collapse, Follows, endsBlank_append, endsBlank, hc]

/-- Collapsing the blanks of a text does the same to what is read of it. -/
theorem run_collapse {mode : Mode} {blank : Bool} (h : Follows blank mode) (cs : List Char) :
    mode.collapse.run (Text.collapse blank cs) =
      ((mode.run cs).1.map Token.collapse, (mode.run cs).2.collapse) := by
  induction cs generalizing mode blank with
  | nil => rfl
  | cons c cs ih =>
    have hstep : mode.collapse.run (Text.collapse blank [c]) =
        ((mode.step c).1.map Token.collapse, (mode.step c).2.collapse) ∧
          Follows (isBlank c) (mode.step c).2 := by
      cases hc : isBlank c with
      | true => exact run_collapse_of_isBlank h hc
      | false => exact run_collapse_of_not_blank h hc
    have hsplit : Text.collapse blank (c :: cs) =
        Text.collapse blank [c] ++ Text.collapse (isBlank c) cs := collapse_append blank [c] cs
    rw [hsplit, run_append, hstep.1]
    dsimp only
    rw [ih hstep.2, run, List.map_append]

end Mode

/-- Squeezing a text does to its tokens what it does to their values. -/
theorem tokens_squeeze (cs : List Char) : tokens (squeeze cs) = (tokens cs).map Token.collapse := by
  obtain ⟨blanks, hblanks, hend⟩ := trimEnd_decomposition (Text.collapse true cs)
  have hfinish : ∀ mode : Mode, mode.collapse.finish = mode.finish.map Token.collapse := by
    intro mode
    cases mode <;> rfl
  have hrun : Mode.between.run (Text.collapse true cs) =
      ((Mode.between.run cs).1.map Token.collapse, (Mode.between.run cs).2.collapse) :=
    @Mode.run_collapse .between true trivial cs
  rw [squeeze_eq_trimEnd_collapse, tokens, ← Mode.tokens_append_blanks _ _ hblanks, ← hend,
    Mode.tokens, hrun, hfinish, ← List.map_append]
  rfl

end Descriptor.Marker
