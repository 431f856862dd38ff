import Descriptor.Script.Position
import Descriptor.Proofs.Text.Utf8
import Mathlib.Data.Prod.Lex
import Mathlib.Order.Monotone.Basic

/-!
# Positions and byte offsets

A text up to one of its places is a number of whole lines and the beginning of a further one. The
position of the place counts the lines and the characters of the beginning, so that both are found
again from the position. A place further on has a later position: every character moves on either
in its line or to the next one.

## Main definitions

* `WholeLines` : lines that each have their line feed behind them.
* `Position.rest?` : the text from a position on.
* `Position.offset?` : the byte offset of a position.

## Main results

* `Position.rest?_eq_some_iff` : the text from a position on is what is behind a beginning that
  ends at the position.
* `Position.strictMonoOn_ofOffset` : positions come in the order of the byte offsets.
* `Position.offset?_eq_some_iff` : a position leads to the byte offset that it is the position of.
* `position_identifies_place` : positions come in the order of their places and determine them.
-/

namespace Descriptor.Script

open Text (byteLength)

variable {cs rest : List Char} {p q : Position} {n : ℕ}

/-! ### The order of reading -/

namespace Position

/-- A position as a pair, which comes before others in the lexicographic order. -/
def key (p : Position) : ℕ ×ₗ ℕ := toLex (p.line, p.column)

theorem before_iff_key_lt : p.before q ↔ p.key < q.key := by
  rw [key, key, Prod.Lex.toLex_lt_toLex, before]

theorem advance_append (p : Position) (before after : List Char) :
    p.advance (before ++ after) = (p.advance before).advance after := by
  induction before generalizing p with
  | nil => rfl
  | cons c before ih => exact ih _

theorem key_lt_advance (p : Position) (h : cs ≠ []) : p.key < (p.advance cs).key := by
  induction cs generalizing p with
  | nil => exact absurd rfl h
  | cons c cs ih =>
    have hstep : p.key < (p.advance [c]).key := by
      rw [← before_iff_key_lt]
      by_cases hc : c = '\n' <;> simp [advance, before, hc]
    rw [← List.singleton_append, advance_append]
    obtain rfl | hne := eq_or_ne cs []
    · exact hstep
    · exact hstep.trans (ih _ hne)

end Position

/-! ### Byte offsets -/

theorem takeBytes?_append (before after : List Char) :
    takeBytes? (byteLength before) (before ++ after) = some before := by
  induction before with
  | nil => exact takeBytes?.eq_1 after
  | cons c before ih =>
    have hpos : 0 < byteLength (c :: before) := by
      rw [Text.byteLength_cons]
      exact Nat.add_pos_left c.utf8Size_pos _
    obtain ⟨k, hk⟩ := Nat.exists_eq_add_one.mpr hpos
    have hrest : k + 1 - c.utf8Size = byteLength before := by
      rw [← hk, Text.byteLength_cons, Nat.add_sub_cancel_left]
    have hfits : c.utf8Size ≤ k + 1 := by
      rw [← hk, Text.byteLength_cons]
      exact Nat.le_add_right _ _
    rw [hk, List.cons_append, takeBytes?, if_pos hfits, hrest, ih, Option.map_some]

theorem Position.ofOffset_append (before after : List Char) :
    ofOffset (before ++ after) (byteLength before) = advance ⟨1, 1⟩ before := by
  rw [ofOffset, takeBytes?_append, Option.getD_some]

/-- A byte offset is valid where the text comes apart into what is before it and what is behind. -/
theorem isValid_iff_exists_append {source : String} {offset : ℕ} :
    String.Pos.Raw.IsValid source ⟨offset⟩ ↔
      ∃ before after, source.toList = before ++ after ∧ byteLength before = offset := by
  rw [String.Pos.Raw.isValid_iff_exists_append]
  constructor
  · rintro ⟨before, after, rfl, hoffset⟩
    refine ⟨before.toList, after.toList, String.toList_append, ?_⟩
    rw [Text.byteLength_eq, String.ofList_toList]
    exact (congrArg String.Pos.Raw.byteIdx hoffset).symm
  · rintro ⟨before, after, hsource, rfl⟩
    refine ⟨String.ofList before, String.ofList after, ?_, ?_⟩
    · rw [← String.ofList_append, ← hsource, String.ofList_toList]
    · rw [Text.byteLength_eq]
      rfl

/-- Positions come in the order of the byte offsets. -/
theorem Position.strictMonoOn_ofOffset (source : String) :
    StrictMonoOn (fun offset => (ofOffset source.toList offset).key)
      {offset | String.Pos.Raw.IsValid source ⟨offset⟩} := by
  intro a ha b hb hlt
  obtain ⟨x, x', hx, rfl⟩ := isValid_iff_exists_append.mp ha
  obtain ⟨y, y', hy, rfl⟩ := isValid_iff_exists_append.mp hb
  -- both texts before the places begin the source, and the shorter one begins the longer one
  obtain ⟨between, rfl⟩ : x <+: y := by
    refine (List.prefix_or_prefix_of_prefix ⟨x', hx.symm⟩ ⟨y', hy.symm⟩).resolve_right ?_
    rintro ⟨between, rfl⟩
    rw [Text.byteLength_append] at hlt
    omega
  have hne : between ≠ [] := by
    rintro rfl
    simp at hlt
  dsimp only
  rw [hy, ofOffset_append, List.append_assoc, ofOffset_append, advance_append]
  exact key_lt_advance _ hne

/-! ### Finding a place again -/

/-- What is behind the first `n` line feeds of a text, if it has so many. -/
def behindLineFeeds? : ℕ → List Char → Option (List Char)
  | 0, cs => some cs
  | _ + 1, [] => none
  | n + 1, c :: cs => if c = '\n' then behindLineFeeds? n cs else behindLineFeeds? (n + 1) cs

/-- What is behind the first `n` characters of a line, if it has so many. -/
def behindCharacters? : ℕ → List Char → Option (List Char)
  | 0, cs => some cs
  | _ + 1, [] => none
  | n + 1, c :: cs => if c = '\n' then none else behindCharacters? n cs

/-- The text from a position on: the line starts behind the line feeds of the lines before it, and
the place is behind the characters of the columns before it. -/
def Position.rest? (source : List Char) : Position → Option (List Char)
  | ⟨line + 1, column + 1⟩ => (behindLineFeeds? line source).bind (behindCharacters? column)
  | _ => none

/-- The byte offset of a position: how far from the beginning of the text it is. -/
def Position.offset? (source : List Char) (p : Position) : Option ℕ :=
  (p.rest? source).map (byteLength source - byteLength ·)

/-- So many lines, each with the line feed behind it. -/
inductive WholeLines : ℕ → List Char → Prop
  | nil : WholeLines 0 []
  | ended {n : ℕ} {cs : List Char} (h : WholeLines n cs) : WholeLines (n + 1) ('\n' :: cs)
  | further {c : Char} {n : ℕ} {cs : List Char} (hc : c ≠ '\n') (h : WholeLines (n + 1) cs) :
      WholeLines (n + 1) (c :: cs)

theorem behindLineFeeds?_eq_some_iff :
    behindLineFeeds? n cs = some rest ↔ ∃ lines, WholeLines n lines ∧ cs = lines ++ rest := by
  constructor
  · intro h
    fun_induction behindLineFeeds? n cs with
    | case1 cs => exact ⟨[], .nil, Option.some.inj h⟩
    | case2 => cases h
    | case3 n cs ih =>
      obtain ⟨lines, hlines, rfl⟩ := ih h
      exact ⟨_, .ended hlines, rfl⟩
    | case4 n c cs hc ih =>
      obtain ⟨lines, hlines, rfl⟩ := ih h
      exact ⟨_, .further hc hlines, rfl⟩
  · rintro ⟨lines, hlines, rfl⟩
    induction hlines with
    | nil => exact behindLineFeeds?.eq_1 rest
    | ended _ ih => rwa [List.cons_append, behindLineFeeds?, if_pos rfl]
    | further hc _ ih => rwa [List.cons_append, behindLineFeeds?, if_neg hc]

theorem behindCharacters?_eq_some_iff :
    behindCharacters? n cs = some rest ↔
      ∃ within, '\n' ∉ within ∧ within.length = n ∧ cs = within ++ rest := by
  constructor
  · intro h
    fun_induction behindCharacters? n cs with
    | case1 cs => exact ⟨[], List.not_mem_nil, rfl, Option.some.inj h⟩
    | case2 | case3 => cases h
    | case4 n c cs hc ih =>
      obtain ⟨within, hwithin, rfl, rfl⟩ := ih h
      exact ⟨c :: within, List.not_mem_cons_of_ne_of_not_mem (Ne.symm hc) hwithin, rfl, rfl⟩
  · rintro ⟨within, hwithin, rfl, rfl⟩
    induction within with
    | nil => exact behindCharacters?.eq_1 rest
    | cons c within ih =>
      rw [List.mem_cons, not_or] at hwithin
      rw [List.length_cons, List.cons_append, behindCharacters?, if_neg (Ne.symm hwithin.1),
        ih hwithin.2]

theorem exists_wholeLines (cs : List Char) :
    ∃ n lines within, WholeLines n lines ∧ '\n' ∉ within ∧ cs = lines ++ within := by
  induction cs with
  | nil => exact ⟨0, [], [], .nil, List.not_mem_nil, rfl⟩
  | cons c cs ih =>
    obtain ⟨n, lines, within, hlines, hwithin, rfl⟩ := ih
    by_cases hc : c = '\n'
    · exact ⟨n + 1, c :: lines, within, hc ▸ .ended hlines, hwithin, rfl⟩
    · cases hlines with
      | nil =>
        exact ⟨0, [], c :: within, .nil, List.not_mem_cons_of_ne_of_not_mem (Ne.symm hc) hwithin,
          rfl⟩
      | ended h => exact ⟨_, _, within, .further hc (.ended h), hwithin, rfl⟩
      | further hd h => exact ⟨_, _, within, .further hc (.further hd h), hwithin, rfl⟩

namespace Position

theorem advance_of_notMem {within : List Char} (h : '\n' ∉ within) (line column : ℕ) :
    advance ⟨line, column⟩ within = ⟨line, column + within.length⟩ := by
  induction within generalizing column with
  | nil => rfl
  | cons c within ih =>
    rw [List.mem_cons, not_or] at h
    rw [advance, if_neg (Ne.symm h.1), ih h.2, List.length_cons]
    simp only [mk.injEq, true_and]
    omega

/-- Behind whole lines stands the first column, whatever the column before them. -/
theorem advance_wholeLines {lines : List Char} (h : WholeLines n lines) (hn : n ≠ 0)
    (line column : ℕ) : advance ⟨line, column⟩ lines = ⟨line + n, 1⟩ := by
  induction h generalizing line column with
  | nil => exact absurd rfl hn
  | @ended n cs h ih =>
    rw [advance, if_pos rfl]
    obtain rfl | hne := eq_or_ne n 0
    · cases h
      rfl
    · rw [ih hne, Nat.add_right_comm, Nat.add_assoc]
  | further hc _ ih => rw [advance, if_neg hc, ih hn]

theorem advance_lines_append {lines within : List Char} (hlines : WholeLines n lines)
    (hwithin : '\n' ∉ within) :
    advance ⟨1, 1⟩ (lines ++ within) = ⟨n + 1, within.length + 1⟩ := by
  have hfirst : advance ⟨1, 1⟩ lines = ⟨n + 1, 1⟩ := by
    obtain rfl | hne := eq_or_ne n 0
    · cases hlines
      rfl
    · rw [advance_wholeLines hlines hne, Nat.add_comm]
  rw [advance_append, hfirst, advance_of_notMem hwithin, Nat.add_comm 1]

/-- The text from a position on is what is behind a beginning that ends at the position. -/
theorem rest?_eq_some_iff :
    p.rest? cs = some rest ↔ ∃ before, cs = before ++ rest ∧ advance ⟨1, 1⟩ before = p := by
  constructor
  · intro h
    unfold rest? at h
    split at h
    · next line column =>
      obtain ⟨onward, hfeeds, hcharacters⟩ := Option.bind_eq_some_iff.mp h
      obtain ⟨lines, hlines, rfl⟩ := behindLineFeeds?_eq_some_iff.mp hfeeds
      obtain ⟨within, hwithin, rfl, rfl⟩ := behindCharacters?_eq_some_iff.mp hcharacters
      exact ⟨lines ++ within, (List.append_assoc ..).symm, advance_lines_append hlines hwithin⟩
    · cases h
  · rintro ⟨before, rfl, rfl⟩
    obtain ⟨n, lines, within, hlines, hwithin, rfl⟩ := exists_wholeLines before
    rw [advance_lines_append hlines hwithin, rest?, Option.bind_eq_some_iff]
    exact ⟨within ++ rest,
      behindLineFeeds?_eq_some_iff.mpr ⟨lines, hlines, List.append_assoc ..⟩,
      behindCharacters?_eq_some_iff.mpr ⟨within, hwithin, rfl, rfl⟩⟩

theorem offset?_append (before after : List Char) :
    (advance ⟨1, 1⟩ before).offset? (before ++ after) = some (byteLength before) := by
  rw [offset?, rest?_eq_some_iff.mpr ⟨before, rfl, rfl⟩, Option.map_some, Text.byteLength_append,
    Nat.add_sub_cancel_right]

/-- A position leads to the byte offset that it is the position of. -/
theorem offset?_eq_some_iff {source : String} {offset : ℕ} :
    p.offset? source.toList = some offset ↔
      String.Pos.Raw.IsValid source ⟨offset⟩ ∧ ofOffset source.toList offset = p := by
  rw [isValid_iff_exists_append]
  constructor
  · intro h
    obtain ⟨rest, hrest, -⟩ := Option.map_eq_some_iff.mp h
    obtain ⟨before, hsource, rfl⟩ := rest?_eq_some_iff.mp hrest
    rw [hsource, offset?_append] at h
    obtain rfl := Option.some.inj h
    exact ⟨⟨before, rest, hsource, rfl⟩, by rw [hsource, ofOffset_append]⟩
  · rintro ⟨⟨before, after, hsource, rfl⟩, rfl⟩
    rw [hsource, ofOffset_append, offset?_append]

/-- The second line starts behind a character of two bytes and a line feed, and the first line has
no third column. -/
example : offset? "é\nb".toList ⟨2, 1⟩ = some 3 ∧ offset? "é\nb".toList ⟨1, 3⟩ = none := by decide

end Position

/-- **Positions identify their places.** Of two byte offsets between characters of a text, its ends
included, the smaller one has the earlier position. A position leads to a byte offset, behind the
line feeds of the lines before it and the characters of the columns before it in its line, exactly
when the position is that of the byte offset. -/
theorem position_identifies_place (source : String) :
    (∀ a b, String.Pos.Raw.IsValid source ⟨a⟩ → String.Pos.Raw.IsValid source ⟨b⟩ →
      ((Position.ofOffset source.toList a).before (.ofOffset source.toList b) ↔ a < b)) ∧
    ∀ (p : Position) a, p.offset? source.toList = some a ↔
      String.Pos.Raw.IsValid source ⟨a⟩ ∧ Position.ofOffset source.toList a = p := by
  refine ⟨fun a b ha hb => ?_, fun p a => Position.offset?_eq_some_iff⟩
  rw [Position.before_iff_key_lt]
  exact (Position.strictMonoOn_ofOffset source).lt_iff_lt ha hb

/-- A script with wide characters and a condition without a body. -/
def bodilessScript : String := "é = 1\nif ü漢 in x:\ny\n"

theorem position_identifies_place_bodilessScript :
    String.Pos.Raw.IsValid bodilessScript ⟨7⟩ ∧ String.Pos.Raw.IsValid bodilessScript ⟨21⟩ ∧
      (Position.ofOffset bodilessScript.toList 7).before (.ofOffset bodilessScript.toList 21) ∧
      Position.ofOffset bodilessScript.toList 21 = ⟨2, 12⟩ ∧
      Position.offset? bodilessScript.toList ⟨2, 12⟩ = some 21 := by
  obtain ⟨hbefore, hoffset⟩ := position_identifies_place bodilessScript
  have hstart : String.Pos.Raw.IsValid bodilessScript ⟨7⟩ := by decide +kernel
  have hcolon : String.Pos.Raw.IsValid bodilessScript ⟨21⟩ := by decide +kernel
  have hposition : Position.ofOffset bodilessScript.toList 21 = ⟨2, 12⟩ := by decide +kernel
  exact ⟨hstart, hcolon, (hbefore 7 21 hstart hcolon).mpr (by decide), hposition,
    (hoffset _ _).mpr ⟨hcolon, hposition⟩⟩

end Descriptor.Script
