import Descriptor.Text.Blank
import Mathlib.Data.Bool.AllAny
import Mathlib.Data.List.TakeWhile

/-!
# Trimmed and squeezed texts

Laws of the functions that remove blanks. A text is its trimmed form between two runs of blanks,
and squeezing it is the same as writing one space for every run of blanks and trimming the result.
The second form goes through a text from front to back, so that it can be read beside anything else
that does.

## Main definitions

* `Blanks` : a run of blanks, possibly empty.
* `collapse` : a text with one space for every run of blanks.
* `endsBlank` : whether the last character is blank.
* `IsSqueezed` : a text of words with single spaces between them.

## Main results

* `trim_decomposition` : a text is its trimmed form with blanks around it.
* `squeeze_eq_trimEnd_collapse` : squeezing as a single pass.
* `squeeze_append_blanks` : squeezing across a run of blanks.
* `squeeze_squeeze` : a squeezed text is not squeezed further.
* `isSqueezed_append_space_iff` : squeezed texts and the spaces within them.
-/

namespace Descriptor.Text

/-- A run of blanks, possibly empty. -/
def Blanks (cs : List Char) : Prop := ∀ c ∈ cs, isBlank c

instance (cs : List Char) : Decidable (Blanks cs) :=
  List.decidableBAll (isBlank · = true) cs

theorem isBlank_space : isBlank ' ' := by decide

theorem blanks_space : Blanks [' '] := by decide

theorem isBlankText_iff {cs : List Char} : isBlankText cs = true ↔ Blanks cs :=
  List.all_eq_true

theorem isBlankText_append_blanks {blanks : List Char} (h : Blanks blanks) (cs : List Char) :
    isBlankText (cs ++ blanks) = isBlankText cs := by
  have hall : blanks.all isBlank = true := isBlankText_iff.mpr h
  rw [isBlankText, isBlankText, List.all_append, hall, Bool.and_true]

theorem intercalate_append {separator : List Char} {xs ys : List (List Char)} (hxs : xs ≠ [])
    (hys : ys ≠ []) : separator.intercalate (xs ++ ys) =
      separator.intercalate xs ++ separator ++ separator.intercalate ys := by
  induction xs with
  | nil => exact absurd rfl hxs
  | cons x xs ih =>
    cases xs with
    | nil => simp [List.intercalate_cons_of_ne_nil hys]
    | cons x' xs =>
      have ih := ih (List.cons_ne_nil x' xs)
      simp only [List.cons_append, List.intercalate_cons_cons, List.append_assoc] at ih ⊢
      rw [ih]

/-- The first piece, and every further one behind a separator. -/
theorem intercalate_cons_eq_flatMap (separator : Char) (first : List Char)
    (more : List (List Char)) :
    [separator].intercalate (first :: more) = first ++ more.flatMap (separator :: ·) := by
  induction more generalizing first with
  | nil => simp
  | cons piece more ih =>
    rw [List.intercalate_cons_cons, ih, List.flatMap_cons]
    simp

/-! ### Trimming -/

theorem trimStart_blanks_append {blanks : List Char} (h : Blanks blanks) (cs : List Char) :
    trimStart (blanks ++ cs) = trimStart cs := by
  rw [trimStart, List.dropWhile_append_of_pos h, trimStart]

theorem trimStart_cons_of_not_blank {c : Char} (h : isBlank c = false) (cs : List Char) :
    trimStart (c :: cs) = c :: cs := by
  rw [trimStart, List.dropWhile_cons_of_neg (by simp [h])]

theorem trimEnd_append (xs ys : List Char) :
    trimEnd (xs ++ ys) = if trimEnd ys = [] then trimEnd xs else xs ++ trimEnd ys := by
  simp only [trimEnd, trimStart, List.reverse_append, List.dropWhile_append, List.isEmpty_iff,
    List.reverse_eq_nil_iff]
  split_ifs <;> simp

theorem trimEnd_eq_nil_iff {cs : List Char} : trimEnd cs = [] ↔ Blanks cs := by
  rw [trimEnd, trimStart, List.reverse_eq_nil_iff, List.dropWhile_eq_nil_iff]
  exact ⟨fun h c hc => h c (List.mem_reverse.mpr hc), fun h c hc => h c (List.mem_reverse.mp hc)⟩

theorem trimEnd_append_blanks {blanks : List Char} (h : Blanks blanks) (cs : List Char) :
    trimEnd (cs ++ blanks) = trimEnd cs := by
  rw [trimEnd_append, if_pos (trimEnd_eq_nil_iff.mpr h)]

theorem trimEnd_singleton {c : Char} (h : isBlank c = false) : trimEnd [c] = [c] := by
  simp only [trimEnd, List.reverse_singleton, trimStart_cons_of_not_blank h]

theorem trimEnd_append_of_not_blank {c : Char} (h : isBlank c = false) (cs : List Char) :
    trimEnd (cs ++ [c]) = cs ++ [c] := by
  rw [trimEnd_append, trimEnd_singleton h, if_neg (List.cons_ne_nil _ _)]

theorem trimEnd_cons_of_not_blank {c : Char} (h : isBlank c = false) (cs : List Char) :
    trimEnd (c :: cs) = c :: trimEnd cs := by
  rw [← List.singleton_append, trimEnd_append, trimEnd_singleton h]
  split_ifs with hcs
  · rw [hcs]
  · rfl

theorem trimEnd_space_cons (cs : List Char) :
    trimEnd (' ' :: cs) = if trimEnd cs = [] then [] else ' ' :: trimEnd cs := by
  rw [← List.singleton_append, trimEnd_append]
  rfl

theorem trimStart_decomposition (cs : List Char) :
    ∃ before, Blanks before ∧ cs = before ++ trimStart cs :=
  ⟨cs.takeWhile isBlank, fun _ => List.mem_takeWhile_imp, List.takeWhile_append_dropWhile.symm⟩

theorem trimEnd_decomposition (cs : List Char) :
    ∃ after, Blanks after ∧ cs = trimEnd cs ++ after := by
  obtain ⟨before, hbefore, h⟩ := trimStart_decomposition cs.reverse
  refine ⟨before.reverse, fun c hc => hbefore c (List.mem_reverse.mp hc), ?_⟩
  rw [trimEnd, ← List.reverse_append, ← h, List.reverse_reverse]

/-- A text is its trimmed form with blanks around it. -/
theorem trim_decomposition (cs : List Char) :
    ∃ before after, Blanks before ∧ Blanks after ∧ cs = before ++ trim cs ++ after := by
  obtain ⟨before, hbefore, hstart⟩ := trimStart_decomposition cs
  obtain ⟨after, hafter, hend⟩ := trimEnd_decomposition (trimStart cs)
  exact ⟨before, after, hbefore, hafter, by rw [trim, List.append_assoc, ← hend, ← hstart]⟩

theorem trim_blanks_append {blanks : List Char} (h : Blanks blanks) (cs : List Char) :
    trim (blanks ++ cs) = trim cs := by
  rw [trim, trimStart_blanks_append h, trim]

theorem trim_append_blanks {blanks : List Char} (h : Blanks blanks) (cs : List Char) :
    trim (cs ++ blanks) = trim cs := by
  have hblanks : blanks.dropWhile isBlank = [] := List.dropWhile_eq_nil_iff.mpr h
  rw [trim, trim, trimStart, trimStart, List.dropWhile_append, hblanks]
  split_ifs with hcs
  · rw [List.isEmpty_iff.mp hcs]
  · exact trimEnd_append_blanks h _

theorem trim_eq_nil_of_blanks {blanks : List Char} (h : Blanks blanks) : trim blanks = [] :=
  trim_append_blanks h []

/-- What does not depend on blanks at the end can be told of the text without them. -/
theorem apply_trimEnd {α : Type} {f : List Char → α}
    (hf : ∀ {blanks : List Char}, Blanks blanks → ∀ cs, f (cs ++ blanks) = f cs) (cs : List Char) :
    f (trimEnd cs) = f cs := by
  obtain ⟨after, hafter, hend⟩ := trimEnd_decomposition cs
  calc f (trimEnd cs) = f (trimEnd cs ++ after) := (hf hafter _).symm
    _ = f cs := by rw [← hend]

theorem trim_trimEnd (cs : List Char) : trim (trimEnd cs) = trim cs :=
  apply_trimEnd trim_append_blanks cs

theorem trim_eq_nil_iff {cs : List Char} : trim cs = [] ↔ Blanks cs := by
  refine ⟨fun h => ?_, trim_eq_nil_of_blanks⟩
  obtain ⟨before, after, hbefore, hafter, hcs⟩ := trim_decomposition cs
  rw [hcs, h, List.append_nil]
  exact fun c hc => (List.mem_append.mp hc).elim (hbefore c) (hafter c)

theorem trim_ne_nil {cs : List Char} (h : isBlankText cs = false) : trim cs ≠ [] := fun hnil => by
  rw [trim_eq_nil_iff, ← isBlankText_iff, h] at hnil
  exact absurd hnil Bool.false_ne_true

theorem trimStart_trimStart (cs : List Char) : trimStart (trimStart cs) = trimStart cs := by
  obtain ⟨before, hbefore, h⟩ := trimStart_decomposition cs
  calc trimStart (trimStart cs) = trimStart (before ++ trimStart cs) :=
        (trimStart_blanks_append hbefore _).symm
    _ = trimStart cs := by rw [← h]

theorem trimEnd_trimEnd (cs : List Char) : trimEnd (trimEnd cs) = trimEnd cs :=
  apply_trimEnd trimEnd_append_blanks cs

theorem trim_trim (cs : List Char) : trim (trim cs) = trim cs := by
  calc trim (trim cs) = trim (trimStart cs) := trim_trimEnd (trimStart cs)
    _ = trim cs := by rw [trim, trimStart_trimStart, trim]

theorem trim_cons_of_not_blank {c : Char} (h : isBlank c = false) (cs : List Char) :
    trim (c :: cs) = c :: trimEnd cs := by
  rw [trim, trimStart_cons_of_not_blank h, trimEnd_cons_of_not_blank h]

/-- A text that is its own trimmed form starts with a character that is not blank. -/
theorem not_isBlank_of_trim_eq_self {c : Char} {cs : List Char} (h : trim (c :: cs) = c :: cs) :
    isBlank c = false := by
  by_contra hblank
  have hc : Blanks [c] := fun d hd => by
    obtain rfl := List.mem_singleton.mp hd
    simpa using hblank
  obtain ⟨before, after, -, -, hcs⟩ := trim_decomposition cs
  rw [← List.singleton_append, trim_blanks_append hc] at h
  have hlength := congrArg List.length hcs
  simp only [h, List.length_append, List.length_cons, List.length_nil] at hlength
  omega

theorem trimEnd_eq_self_of_trim_eq_self {cs : List Char} (h : trim cs = cs) : trimEnd cs = cs := by
  rw [← h, trim, trimEnd_trimEnd]

/-- A piece without outer blanks, a space, and another such piece. -/
theorem trim_append_space_eq_self {xs ys : List Char} (hxs : xs ≠ []) (htrim : trim xs = xs)
    (hys : ys ≠ []) (htrim' : trim ys = ys) : trim (xs ++ ' ' :: ys) = xs ++ ' ' :: ys := by
  obtain ⟨c, cs, rfl⟩ := List.exists_cons_of_ne_nil hxs
  have hspace : trimEnd (' ' :: ys) = ' ' :: ys := by
    rw [trimEnd_space_cons, trimEnd_eq_self_of_trim_eq_self htrim', if_neg hys]
  rw [List.cons_append, trim_cons_of_not_blank (not_isBlank_of_trim_eq_self htrim),
    trimEnd_append, hspace, if_neg (List.cons_ne_nil _ _)]

/-! ### Squeezing in one pass -/

/-- A text with one space for every run of blanks, where `blank` says whether a blank comes right
before it. -/
def collapse (blank : Bool) : List Char → List Char
  | [] => []
  | c :: cs =>
    if isBlank c then if blank then collapse true cs else ' ' :: collapse true cs
    else c :: collapse false cs

/-- Whether the last character of a text is blank, with `blank` for the empty text. -/
def endsBlank (blank : Bool) : List Char → Bool
  | [] => blank
  | c :: cs => endsBlank (isBlank c) cs

theorem collapse_append (blank : Bool) (xs ys : List Char) :
    collapse blank (xs ++ ys) = collapse blank xs ++ collapse (endsBlank blank xs) ys := by
  induction xs generalizing blank with
  | nil => rfl
  | cons c cs ih =>
    simp only [List.cons_append, collapse, endsBlank, ih]
    split_ifs with hc hblank <;> simp [hc]

theorem endsBlank_append (blank : Bool) (xs ys : List Char) :
    endsBlank blank (xs ++ ys) = endsBlank (endsBlank blank xs) ys := by
  induction xs generalizing blank with
  | nil => rfl
  | cons c cs ih => simp only [List.cons_append, endsBlank, ih]

theorem collapse_cons_of_not_blank {c : Char} (h : isBlank c = false) (blank : Bool)
    (cs : List Char) : collapse blank (c :: cs) = c :: collapse false cs := by
  simp [collapse, h]

/-- Blanks before a text make no difference to what is behind a word. -/
theorem collapse_word_append {word : List Char} (h : ∀ c ∈ word, isBlank c = false)
    (hne : word ≠ []) (blank : Bool) (cs : List Char) :
    collapse blank (word ++ cs) = word ++ collapse false cs := by
  induction word generalizing blank with
  | nil => exact absurd rfl hne
  | cons c word ih =>
    rw [List.cons_append, collapse_cons_of_not_blank (h c List.mem_cons_self)]
    cases word with
    | nil => rfl
    | cons d word =>
      rw [ih (fun x hx => h x (List.mem_cons_of_mem c hx)) (List.cons_ne_nil d word)]
      rfl

theorem Blanks.collapse_true {blanks : List Char} (h : Blanks blanks) :
    collapse true blanks = [] := by
  induction blanks with
  | nil => rfl
  | cons c blanks ih =>
    rw [collapse, if_pos (h c List.mem_cons_self), if_pos rfl]
    exact ih fun d hd => h d (List.mem_cons_of_mem c hd)

theorem Blanks.collapse {blanks : List Char} (h : Blanks blanks) (blank : Bool) :
    Blanks (collapse blank blanks) := by
  cases blanks with
  | nil => exact fun c hc => absurd hc List.not_mem_nil
  | cons c blanks =>
    have hrest : Blanks blanks := fun d hd => h d (List.mem_cons_of_mem c hd)
    intro d hd
    rw [Text.collapse, if_pos (h c List.mem_cons_self), hrest.collapse_true] at hd
    split_ifs at hd
    · exact absurd hd List.not_mem_nil
    · obtain rfl := List.mem_singleton.mp hd
      exact isBlank_space

/-- A text whose only blanks are single spaces is its own collapsed form. -/
theorem collapse_eq_self {cs : List Char} (hspace : ∀ c ∈ cs, isBlank c → c = ' ')
    (hsingle : ¬[' ', ' '] <:+: cs) : collapse false cs = cs := by
  induction cs with
  | nil => rfl
  | cons c cs ih =>
    have ih := ih (fun d hd => hspace d (List.mem_cons_of_mem c hd))
      fun h => hsingle (h.trans (List.suffix_cons c cs).isInfix)
    by_cases hc : isBlank c
    · obtain rfl := hspace c List.mem_cons_self hc
      -- no blank follows the space, so the flag makes no difference to the rest
      cases cs with
      | nil => rfl
      | cons d cs =>
        have hd : isBlank d = false := by
          by_contra hd
          obtain rfl := hspace d (by simp) (by simpa using hd)
          exact hsingle ⟨[], cs, rfl⟩
        simp only [collapse, hd, isBlank_space, Bool.false_eq_true, ite_true, ite_false] at ih ⊢
        rw [ih]
    · rw [collapse, if_neg hc, ih]

private theorem isWord_of_mem_wordsFrom {word w cs : List Char}
    (hword : ∀ c ∈ word, isBlank c = false) (h : w ∈ wordsFrom word cs) :
    w ≠ [] ∧ ∀ c ∈ w, isBlank c = false := by
  induction cs generalizing word with
  | nil =>
    unfold wordsFrom at h
    split_ifs at h with hempty
    · exact absurd h List.not_mem_nil
    · obtain rfl := List.mem_singleton.mp h
      exact ⟨by simpa using hempty, fun c hc => hword c (List.mem_reverse.mp hc)⟩
  | cons d cs ih =>
    unfold wordsFrom at h
    split_ifs at h with hd hempty
    · exact ih (fun c hc => absurd hc List.not_mem_nil) h
    · rcases List.mem_cons.mp h with rfl | h
      · exact ⟨by simpa using hempty, fun c hc => hword c (List.mem_reverse.mp hc)⟩
      · exact ih (fun c hc => absurd hc List.not_mem_nil) h
    · refine ih (fun c hc => ?_) h
      rcases List.mem_cons.mp hc with rfl | hc
      · simpa using hd
      · exact hword c hc

/-- A word is not empty, and there is no blank in it. -/
theorem isWord_of_mem_words {w cs : List Char} (h : w ∈ words cs) :
    w ≠ [] ∧ ∀ c ∈ w, isBlank c = false :=
  isWord_of_mem_wordsFrom (fun _ hc => absurd hc List.not_mem_nil) h

private theorem intercalate_eq_nil_iff {words : List (List Char)} (h : ∀ w ∈ words, w ≠ []) :
    [' '].intercalate words = [] ↔ words = [] := by
  cases words with
  | nil => simp
  | cons w ws =>
    have hw : w ≠ [] := h w List.mem_cons_self
    cases ws <;> simp [List.intercalate_cons_cons, hw]

/-- The unfinished word is written out at once; the blanks behind it count only when a further
word comes. -/
private theorem intercalate_wordsFrom (word cs : List Char) :
    [' '].intercalate (wordsFrom word cs) =
      word.reverse ++ trimEnd (collapse word.isEmpty cs) := by
  induction cs generalizing word with
  | nil =>
    cases word with
    | nil => rfl
    | cons c word => simp [wordsFrom, collapse, trimEnd, trimStart]
  | cons c cs ih =>
    unfold wordsFrom collapse
    split_ifs with hc hword
    · obtain rfl := List.isEmpty_iff.mp hword
      simpa using ih []
    · have hwords : [' '].intercalate (wordsFrom [] cs) = [] ↔ wordsFrom [] cs = [] :=
        intercalate_eq_nil_iff fun w hw => (isWord_of_mem_words hw).1
      have ih := ih []
      simp only [List.isEmpty_nil, List.reverse_nil, List.nil_append] at ih
      rw [trimEnd_space_cons, ← ih]
      simp only [hwords]
      split_ifs with hnil
      · simp [hnil]
      · rw [List.intercalate_cons_of_ne_nil hnil]
        simp
    · rw [ih (c :: word), trimEnd_cons_of_not_blank (by simpa using hc)]
      simp

/-- Squeezing as a single pass over the text. -/
theorem squeeze_eq_trimEnd_collapse (cs : List Char) :
    squeeze cs = trimEnd (collapse true cs) := by
  rw [squeeze, words, intercalate_wordsFrom]
  rfl

/-! ### Words across a run of blanks -/

private theorem wordsFrom_append_of_blank {c : Char} (hc : isBlank c) (word xs ys : List Char) :
    wordsFrom word (xs ++ c :: ys) = wordsFrom word xs ++ wordsFrom [] ys := by
  induction xs generalizing word with
  | nil =>
    simp only [List.nil_append, wordsFrom, hc, ite_true]
    split_ifs <;> rfl
  | cons x xs ih =>
    simp only [List.cons_append, wordsFrom, ih]
    split_ifs <;> rfl

theorem words_blanks_append {blanks : List Char} (h : Blanks blanks) (cs : List Char) :
    words (blanks ++ cs) = words cs := by
  induction blanks with
  | nil => rfl
  | cons c blanks ih =>
    rw [List.cons_append, words, wordsFrom, if_pos (h c List.mem_cons_self)]
    exact ih fun d hd => h d (List.mem_cons_of_mem c hd)

theorem words_append_blanks {gap : List Char} (h : Blanks gap) (hne : gap ≠ [])
    (xs ys : List Char) : words (xs ++ gap ++ ys) = words xs ++ words ys := by
  obtain ⟨c, gap, rfl⟩ := List.exists_cons_of_ne_nil hne
  rw [List.append_assoc, List.cons_append, words,
    wordsFrom_append_of_blank (h c List.mem_cons_self), ← words, ← words,
    words_blanks_append fun d hd => h d (List.mem_cons_of_mem c hd)]

theorem squeeze_eq_nil_iff {cs : List Char} : squeeze cs = [] ↔ words cs = [] :=
  intercalate_eq_nil_iff fun _ hw => (isWord_of_mem_words hw).1

/-- A run of blanks between two texts is squeezed into one space. -/
theorem squeeze_append_blanks {gap : List Char} (h : Blanks gap) (hne : gap ≠ [])
    {xs ys : List Char} (hxs : squeeze xs ≠ []) (hys : squeeze ys ≠ []) :
    squeeze (xs ++ gap ++ ys) = squeeze xs ++ ' ' :: squeeze ys := by
  rw [ne_eq, squeeze_eq_nil_iff] at hxs hys
  rw [squeeze, words_append_blanks h hne, intercalate_append hxs hys, squeeze, squeeze]
  simp only [List.append_assoc, List.singleton_append]

/-! ### Squeezed texts -/

/-- A text of at least one word, with single spaces between its words and no other white space. -/
def IsSqueezed (cs : List Char) : Prop := squeeze cs = cs ∧ cs ≠ []

private theorem wordsFrom_of_not_blank {word cs : List Char} (h : ∀ c ∈ cs, isBlank c = false)
    (hne : word ≠ [] ∨ cs ≠ []) : wordsFrom word cs = [word.reverse ++ cs] := by
  induction cs generalizing word with
  | nil => simp_all [wordsFrom]
  | cons c cs ih =>
    rw [wordsFrom, if_neg (by simp [h c List.mem_cons_self]),
      ih (fun d hd => h d (List.mem_cons_of_mem c hd)) (.inl (List.cons_ne_nil c word))]
    simp

/-- The words of a text of words are those words. -/
private theorem words_intercalate {ws : List (List Char)}
    (h : ∀ w ∈ ws, w ≠ [] ∧ ∀ c ∈ w, isBlank c = false) : words ([' '].intercalate ws) = ws := by
  induction ws with
  | nil => rfl
  | cons w ws ih =>
    obtain ⟨hne, hblank⟩ := h w List.mem_cons_self
    have hw : words w = [w] := wordsFrom_of_not_blank hblank (.inr hne)
    have ih := ih fun v hv => h v (List.mem_cons_of_mem w hv)
    by_cases hws : ws = []
    · rw [hws, List.intercalate_singleton, hw]
    · have blanks_space : Blanks [' '] := fun c hc => List.mem_singleton.mp hc ▸ isBlank_space
      rw [List.intercalate_cons_of_ne_nil hws,
        words_append_blanks blanks_space (List.cons_ne_nil _ _), hw, ih, List.singleton_append]

theorem squeeze_squeeze (cs : List Char) : squeeze (squeeze cs) = squeeze cs := by
  have hwords : words (squeeze cs) = words cs := words_intercalate fun _ => isWord_of_mem_words
  rw [squeeze, hwords, squeeze]

theorem squeeze_blanks_append {blanks : List Char} (h : Blanks blanks) (cs : List Char) :
    squeeze (blanks ++ cs) = squeeze cs := by
  rw [squeeze, words_blanks_append h, squeeze]

/-- What run of blanks stands between two texts makes no difference. -/
theorem squeeze_gap_congr {gap gap' : List Char} (h : Blanks gap) (hne : gap ≠ [])
    (h' : Blanks gap') (hne' : gap' ≠ []) (xs ys : List Char) :
    squeeze (xs ++ gap ++ ys) = squeeze (xs ++ gap' ++ ys) := by
  rw [squeeze, squeeze, words_append_blanks h hne, words_append_blanks h' hne']

private theorem length_collapse_le (blank : Bool) (cs : List Char) :
    (collapse blank cs).length ≤ cs.length := by
  induction cs generalizing blank with
  | nil => exact Nat.le_refl 0
  | cons c cs ih =>
    have htrue := ih true
    have hfalse := ih false
    unfold collapse
    split_ifs <;> simp only [List.length_cons] <;> omega

theorem length_squeeze_le (cs : List Char) : (squeeze cs).length ≤ cs.length := by
  obtain ⟨after, -, hafter⟩ := trimEnd_decomposition (collapse true cs)
  have hlength := congrArg List.length hafter
  rw [List.length_append] at hlength
  have hcollapse := length_collapse_le true cs
  rw [squeeze_eq_trimEnd_collapse]
  omega

/-- Two texts with a space between them are squeezed if and only if both are. -/
theorem isSqueezed_append_space_iff {xs ys : List Char} :
    IsSqueezed (xs ++ ' ' :: ys) ↔ IsSqueezed xs ∧ IsSqueezed ys := by
  have hcons : xs ++ ' ' :: ys = xs ++ [' '] ++ ys := by simp
  have hwords : words (xs ++ ' ' :: ys) = words xs ++ words ys := by
    rw [hcons, words_append_blanks blanks_space (List.cons_ne_nil _ _)]
  constructor
  · rintro ⟨h, -⟩
    have hlength := congrArg List.length h
    have hxs := length_squeeze_le xs
    have hys := length_squeeze_le ys
    rw [List.length_append, List.length_cons] at hlength
    -- were one side blank, nothing would be left of the space
    have hxne : squeeze xs ≠ [] := fun hnil => by
      rw [squeeze, hwords, squeeze_eq_nil_iff.mp hnil, List.nil_append, ← squeeze] at hlength
      omega
    have hyne : squeeze ys ≠ [] := fun hnil => by
      rw [squeeze, hwords, squeeze_eq_nil_iff.mp hnil, List.append_nil, ← squeeze] at hlength
      omega
    rw [hcons, squeeze_append_blanks blanks_space (List.cons_ne_nil _ _) hxne hyne, ← hcons] at h
    have hsum := congrArg List.length h
    simp only [List.length_append, List.length_cons] at hsum
    obtain ⟨hx, hy⟩ := List.append_inj h (by omega)
    have hy := (List.cons.inj hy).2
    exact ⟨⟨hx, hx ▸ hxne⟩, hy, hy ▸ hyne⟩
  · rintro ⟨⟨hx, hxne⟩, hy, hyne⟩
    refine ⟨?_, by simp⟩
    rw [hcons, squeeze_append_blanks blanks_space (List.cons_ne_nil _ _) (by rwa [hx])
      (by rwa [hy]), hx, hy, ← hcons]

end Descriptor.Text
