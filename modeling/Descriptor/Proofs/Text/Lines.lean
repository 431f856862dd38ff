import Descriptor.Proofs.Text.Squeeze
import Descriptor.Text.Lines

/-!
# Texts and their lines

The texts that spell given lines: behind every line stands a line feed, which the last line may lack
unless it is empty. Taking such a text apart gives the lines back, up to the carriage returns that
count as part of a line end.

## Main definitions

* `HasLines` : a text that spells given lines.
* `takeLines` : the beginning of a text, with so many lines.

## Main results

* `exists_hasLines` : every text spells some lines.
* `apply_dropReturn` : a carriage return at its end makes no difference to a line where blanks make
  none.
* `lines_takeLines` : the lines of a beginning.
* `HasLines.map_lines` : the lines of such a text, seen through a function that does not depend on
  carriage returns at the end.
-/

namespace Descriptor.Text

/-- The texts that spell given lines, none of which has a line feed in it. -/
inductive HasLines : List (List Char) → List Char → Prop
  | nil : HasLines [] []
  | unended {line : List Char} (hline : '\n' ∉ line) (hne : line ≠ []) : HasLines [line] line
  | ended {line text : List Char} {lines : List (List Char)} (hline : '\n' ∉ line)
      (h : HasLines lines text) : HasLines (line :: lines) (line ++ '\n' :: text)

/-- Lines that each have a line feed behind them. -/
theorem HasLines.of_flatMap {ls : List (List Char)} (h : ∀ line ∈ ls, '\n' ∉ line) :
    HasLines ls (ls.flatMap (· ++ ['\n'])) := by
  induction ls with
  | nil => exact .nil
  | cons line ls ih =>
    have hrest := ih fun l hl => h l (List.mem_cons_of_mem line hl)
    rw [List.flatMap_cons, List.append_assoc, List.singleton_append]
    exact .ended (h line List.mem_cons_self) hrest

theorem exists_hasLines (text : List Char) : ∃ ls, HasLines ls text := by
  induction text with
  | nil => exact ⟨[], .nil⟩
  | cons c text ih =>
    obtain ⟨ls, hls⟩ := ih
    by_cases hc : c = '\n'
    · exact ⟨[] :: ls, hc ▸ .ended List.not_mem_nil hls⟩
    · have hcons : ∀ {line}, '\n' ∉ line → '\n' ∉ c :: line := fun h =>
        List.not_mem_cons_of_ne_of_not_mem (Ne.symm hc) h
      cases hls with
      | nil => exact ⟨[[c]], .unended (hcons List.not_mem_nil) (List.cons_ne_nil _ _)⟩
      | unended hline _ => exact ⟨_, .unended (hcons hline) (List.cons_ne_nil _ _)⟩
      | ended hline h => exact ⟨_, .ended (hcons hline) h⟩

private theorem linesFrom_append {line : List Char} (h : '\n' ∉ line)
    (unfinished text : List Char) :
    linesFrom unfinished (line ++ text) = linesFrom (line.reverse ++ unfinished) text := by
  induction line generalizing unfinished with
  | nil => rfl
  | cons c line ih =>
    rw [List.mem_cons, not_or] at h
    rw [List.cons_append, linesFrom, if_neg (Ne.symm h.1), ih h.2, List.reverse_cons,
      List.append_assoc, List.singleton_append]

theorem lines_append_newline {line : List Char} (h : '\n' ∉ line) (text : List Char) :
    lines (line ++ '\n' :: text) = dropReturn line :: lines text := by
  rw [lines, linesFrom_append h, linesFrom, if_pos rfl, List.append_nil, List.reverse_reverse,
    lines]

theorem lines_of_not_mem {line : List Char} (h : '\n' ∉ line) (hne : line ≠ []) :
    lines line = [line] := by
  rw [lines, ← List.append_nil line, linesFrom_append h, linesFrom]
  simp [hne]

/-- A line without its carriage return is the line up to a run of blanks. -/
theorem exists_eq_dropReturn_append (line : List Char) :
    ∃ blanks, Blanks blanks ∧ line = dropReturn line ++ blanks := by
  unfold dropReturn
  split
  · next h =>
    obtain ⟨front, rfl⟩ := List.getLast?_eq_some_iff.mp h
    refine ⟨['\r'], fun c hc => ?_, by rw [List.dropLast_concat]⟩
    obtain rfl := List.mem_singleton.mp hc
    decide
  · exact ⟨[], fun c hc => absurd hc List.not_mem_nil, (List.append_nil line).symm⟩

/-- What does not depend on blanks at the end does not depend on a carriage return there. -/
theorem apply_dropReturn {α : Type} {f : List Char → α}
    (hf : ∀ {blanks : List Char}, Blanks blanks → ∀ cs, f (cs ++ blanks) = f cs)
    (line : List Char) : f (dropReturn line) = f line := by
  obtain ⟨blanks, hblanks, hline⟩ := exists_eq_dropReturn_append line
  calc f (dropReturn line) = f (dropReturn line ++ blanks) := (hf hblanks _).symm
    _ = f line := by rw [← hline]

/-- The lines of a text that spells given ones are those, as far as a function sees them that does
not depend on carriage returns at the end. -/
theorem HasLines.map_lines {α : Type} {f : List Char → α} {ls : List (List Char)}
    {text : List Char} (h : HasLines ls text) (hf : ∀ line, f (dropReturn line) = f line) :
    (lines text).map f = ls.map f := by
  induction h with
  | nil => rfl
  | unended hline hne => rw [lines_of_not_mem hline hne]
  | ended hline _ ih => rw [lines_append_newline hline, List.map_cons, List.map_cons, hf, ih]

/-! ### The beginning of a text -/

/-- The beginning of a text, up to and with the end of its first `n` lines. -/
def takeLines : ℕ → List Char → List Char
  | 0, _ => []
  | _ + 1, [] => []
  | n + 1, c :: text => c :: takeLines (if c = '\n' then n else n + 1) text

theorem takeLines_zero (text : List Char) : takeLines 0 text = [] := by
  cases text <;> rfl

theorem takeLines_isPrefix (n : ℕ) (text : List Char) : takeLines n text <+: text := by
  induction text generalizing n with
  | nil => cases n <;> exact List.prefix_rfl
  | cons c text ih =>
    cases n with
    | zero => exact List.nil_prefix
    | succ n => exact List.cons_prefix_cons.mpr ⟨rfl, ih _⟩

theorem takeLines_of_not_mem {line : List Char} (h : '\n' ∉ line) (n : ℕ) :
    takeLines (n + 1) line = line := by
  induction line with
  | nil => rfl
  | cons c line ih =>
    rw [List.mem_cons, not_or] at h
    rw [takeLines, if_neg (Ne.symm h.1), ih h.2]

theorem takeLines_append_newline {line : List Char} (h : '\n' ∉ line) (n : ℕ) (text : List Char) :
    takeLines (n + 1) (line ++ '\n' :: text) = line ++ '\n' :: takeLines n text := by
  induction line with
  | nil => rfl
  | cons c line ih =>
    rw [List.mem_cons, not_or] at h
    rw [List.cons_append, takeLines, if_neg (Ne.symm h.1), ih h.2, List.cons_append]

/-- The lines of a beginning are the first lines of the text. -/
theorem lines_takeLines (n : ℕ) (text : List Char) :
    lines (takeLines n text) = (lines text).take n := by
  obtain ⟨ls, hls⟩ := exists_hasLines text
  induction hls generalizing n with
  | nil => cases n <;> rfl
  | unended hline hne =>
    cases n with
    | zero => rw [takeLines_zero]; rfl
    | succ n =>
      rw [takeLines_of_not_mem hline, lines_of_not_mem hline hne, List.take_succ_cons,
        List.take_nil]
  | ended hline _ ih =>
    cases n with
    | zero => rw [takeLines_zero]; rfl
    | succ n =>
      rw [takeLines_append_newline hline, lines_append_newline hline, lines_append_newline hline,
        List.take_succ_cons, ih]

end Descriptor.Text
