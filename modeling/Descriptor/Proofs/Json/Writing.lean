import Descriptor.Json.Reading
import Descriptor.Proofs.Text.Digits

/-!
# Writing JSON and reading it again

What is written of a value reads as that value. A string comes back whatever characters it has: the
ones with an escape of their own, the other control characters by their numbers, which are never
halves of a surrogate pair, and all others as they are. Layout does not matter, since a value never
starts with space and the reader passes over all of it elsewhere.

## Main definitions

* `Plain` : the values without numbers whose strings all spell texts.
* `ReadsBack` : a value that is read back on every level, whatever follows it.

## Main results

* `readText?_written` : a string is read back.
* `Plain.readsBack` : a plain value is read back, whatever follows it.
* `read?_write` : the whole text of a plain value spells that value.
-/

namespace Descriptor.Json

open Text (hexDigits charOfCode?_toNat digitsValue_hexDigits isHexDigit_of_mem_hexDigits)

/-! ### Strings -/

/-- The part of a string that a character is written as: a code unit for a control character without
an escape of its own. -/
def pieceOf (c : Char) : Piece :=
  if c.toNat < 0x20 ∧ c ∉ ['\x08', '\x0c', '\n', '\r', '\t'] then .codeUnit c.toNat else .char c

theorem readPieces?_simpleEscape {c e : Char} (hu : c ≠ 'u') (h : simpleEscape? c = some e)
    (rest : List Char) :
    readPieces? ('\\' :: c :: rest) =
      (readPieces? rest).map fun (ps, rest) => (.char e :: ps, rest) := by
  rw [readPieces?, h]
  exact fun _ _ _ _ _ heq => absurd heq hu

theorem readPieces?_codeUnit {n : Nat} (h : n < 16 ^ 4) (rest : List Char) :
    readPieces? ('\\' :: 'u' :: (hexDigits 'a' 4 n ++ rest)) =
      (readPieces? rest).map fun (ps, rest) => (.codeUnit n :: ps, rest) := by
  obtain ⟨a, b, c, d, hdigits⟩ : ∃ a b c d, hexDigits 'a' 4 n = [a, b, c, d] :=
    ⟨_, _, _, _, rfl⟩
  have hvalue := digitsValue_hexDigits .lower h
  have hall : [a, b, c, d].all Text.isHexDigit = true :=
    List.all_eq_true.mpr fun x hx => isHexDigit_of_mem_hexDigits .lower (hdigits ▸ hx)
  rw [hdigits] at hvalue ⊢
  simp only [List.cons_append, List.nil_append, readPieces?, hall, hvalue, if_true]

theorem readPieces?_plain {c : Char} (hquote : c ≠ '"') (hescape : c ≠ '\\')
    (hcontrol : ¬c.toNat < 0x20) (rest : List Char) :
    readPieces? (c :: rest) = (readPieces? rest).map fun (ps, rest) => (.char c :: ps, rest) := by
  rw [readPieces?, if_neg]
  · simpa [hescape] using hcontrol
  · exact hquote
  · exact fun _ _ _ _ _ h => absurd h hescape
  · exact fun _ _ h => absurd h hescape

/-- A character as it is written reads as its part. -/
theorem readPieces?_escapeChar (c : Char) (rest : List Char) :
    readPieces? (Value.escapeChar c ++ rest) =
      (readPieces? rest).map fun (ps, rest) => (pieceOf c :: ps, rest) := by
  unfold Value.escapeChar
  split_ifs with h₁ h₂ h₃ h₄ h₅ h₆ h₇ hcontrol
  · subst h₁
    exact readPieces?_simpleEscape (by decide) rfl rest
  · subst h₂
    exact readPieces?_simpleEscape (by decide) rfl rest
  · subst h₃
    exact readPieces?_simpleEscape (by decide) rfl rest
  · subst h₄
    exact readPieces?_simpleEscape (by decide) rfl rest
  · subst h₅
    exact readPieces?_simpleEscape (by decide) rfl rest
  · subst h₆
    exact readPieces?_simpleEscape (by decide) rfl rest
  · subst h₇
    exact readPieces?_simpleEscape (by decide) rfl rest
  · have hpiece : pieceOf c = .codeUnit c.toNat := if_pos ⟨hcontrol, by simp [h₃, h₄, h₅, h₆, h₇]⟩
    rw [hpiece]
    exact readPieces?_codeUnit (Nat.lt_trans hcontrol (by decide)) rest
  · have hpiece : pieceOf c = .char c := if_neg fun h => hcontrol h.1
    rw [hpiece]
    exact readPieces?_plain h₁ h₂ hcontrol rest

theorem readPieces?_flatMap_escapeChar (cs rest : List Char) :
    readPieces? (cs.flatMap Value.escapeChar ++ '"' :: rest) = some (cs.map pieceOf, rest) := by
  induction cs with
  | nil => rfl
  | cons c cs ih =>
    rw [List.flatMap_cons, List.append_assoc, readPieces?_escapeChar, ih]
    rfl

/-- No character is written as half of a surrogate pair, so parts are put together one by one. -/
theorem assemble?_map_pieceOf (cs : List Char) : assemble? (cs.map pieceOf) = some cs := by
  induction cs with
  | nil => rfl
  | cons c cs ih =>
    rw [List.map_cons]
    by_cases h : c.toNat < 0x20 ∧ c ∉ ['\x08', '\x0c', '\n', '\r', '\t']
    · have hhigh : ¬(0xd800 ≤ c.toNat ∧ c.toNat < 0xdc00) := by omega
      rw [pieceOf, if_pos h]
      generalize cs.map pieceOf = pieces at ih
      rcases pieces with _ | ⟨_ | low, pieces⟩
      all_goals simp only [assemble?, hhigh, if_false, charOfCode?_toNat] at ih ⊢
      all_goals simp [ih]
    · rw [pieceOf, if_neg h, assemble?, ih]
      rfl

/-- A string behind its opening quotation mark is read back. -/
theorem readText?_written (s : String) (rest : List Char) :
    readText? (s.toList.flatMap Value.escapeChar ++ '"' :: rest) = some (some s, rest) := by
  simp only [readText?, readPieces?_flatMap_escapeChar, Option.map_some, assemble?_map_pieceOf,
    String.ofList_toList]

/-! ### Layout -/

theorem skipSpace_newLine_append (level : Nat) (cs : List Char) :
    skipSpace (Value.newLine level ++ cs) = skipSpace cs := by
  refine List.dropWhile_append_of_pos fun c hc => ?_
  rcases List.mem_cons.mp hc with rfl | hc
  · rfl
  · obtain rfl := List.eq_of_mem_replicate hc
    rfl

theorem skipSpace_cons {c : Char} (h : isSpace c = false) (cs : List Char) :
    skipSpace (c :: cs) = c :: cs :=
  List.dropWhile_cons_of_neg (by simp [h])

/-- A text that starts neither with space nor with a bracket that closes another. -/
def StartsItem (cs : List Char) : Prop :=
  ∃ c rest, cs = c :: rest ∧ isSpace c = false ∧ c ≠ ']' ∧ c ≠ '\x7d'

namespace StartsItem

variable {item : List Char}

theorem append (h : StartsItem item) (rest : List Char) : StartsItem (item ++ rest) := by
  obtain ⟨c, cs, rfl, hc⟩ := h
  exact ⟨c, cs ++ rest, rfl, hc⟩

theorem intercalate (h : StartsItem item) (separator : List Char) (items : List (List Char)) :
    StartsItem (separator.intercalate (item :: items)) := by
  cases items with
  | nil => rwa [List.intercalate_singleton]
  | cons next items =>
    rw [List.intercalate_cons_cons, List.append_assoc]
    exact h.append _

theorem skipSpace_eq (h : StartsItem item) : skipSpace item = item := by
  obtain ⟨c, cs, rfl, hspace, -⟩ := h
  exact skipSpace_cons hspace cs

theorem length_pos (h : StartsItem item) : 0 < item.length := by
  obtain ⟨c, cs, rfl, -⟩ := h
  exact Nat.zero_lt_succ cs.length

end StartsItem

theorem writeElements_eq_map (level : Nat) (vs : List Value) :
    Value.writeElements level vs = vs.map (Value.writeAt level) := by
  induction vs with
  | nil => rfl
  | cons v vs ih => rw [Value.writeElements, ih, List.map_cons]

/-- The text of a member of an object on a level. -/
def writeMember (level : Nat) (member : Option String × Value) : List Char :=
  Value.writeText (member.1.getD "").toList ++ ':' :: ' ' :: member.2.writeAt level

theorem writeMembers_eq_map (level : Nat) (members : List (Option String × Value)) :
    Value.writeMembers level members = members.map (writeMember level) := by
  induction members with
  | nil => rfl
  | cons member members ih => rw [Value.writeMembers, ih, List.map_cons, writeMember]

/-- The items between two brackets on a level, each behind a line end. -/
def itemsText (level : Nat) (items : List (List Char)) : List Char :=
  (',' :: Value.newLine level).intercalate items

theorem itemsText_cons_cons (level : Nat) (item next : List Char) (items : List (List Char)) :
    itemsText level (item :: next :: items) =
      item ++ ',' :: (Value.newLine level ++ itemsText level (next :: items)) := by
  rw [itemsText, List.intercalate_cons_cons, List.append_assoc, List.cons_append, itemsText]

/-! ### Values -/

/-- The values without numbers whose strings, keys included, all spell texts. -/
inductive Plain : Value → Prop
  | null : Plain .null
  | bool (value : Bool) : Plain (.bool value)
  | text (value : String) : Plain (.text (some value))
  | array {elements : List Value} (h : ∀ v ∈ elements, Plain v) : Plain (.array elements)
  | object {members : List (Option String × Value)} (hkeys : ∀ m ∈ members, m.1.isSome)
      (h : ∀ m ∈ members, Plain m.2) : Plain (.object members)

theorem Plain.startsItem {v : Value} (h : Plain v) (level : Nat) :
    StartsItem (v.writeAt level) := by
  cases h with
  | null => exact ⟨'n', _, rfl, rfl, by decide, by decide⟩
  | bool value => cases value <;> exact ⟨_, _, rfl, rfl, by decide, by decide⟩
  | text value => exact ⟨'"', _, rfl, rfl, by decide, by decide⟩
  | @array elements _ => cases elements <;> exact ⟨'[', _, rfl, rfl, by decide, by decide⟩
  | @object members _ _ => cases members <;> exact ⟨'\x7b', _, rfl, rfl, by decide, by decide⟩

theorem startsItem_writeMember (level : Nat) (member : Option String × Value) :
    StartsItem (writeMember level member) :=
  ⟨'"', _, rfl, rfl, by decide, by decide⟩

/-- A value that is read back on every level, whatever follows it, in no more steps than twice the
length of its text. -/
def ReadsBack (v : Value) : Prop :=
  ∀ (level fuel : Nat) (rest : List Char), 2 * (v.writeAt level).length ≤ fuel →
    readValue? fuel (v.writeAt level ++ rest) = some (v, rest)

/-- The elements of an array are read up to its closing bracket. -/
theorem readElements?_written {elements : List Value} (hne : elements ≠ [])
    (hplain : ∀ v ∈ elements, Plain v) (h : ∀ v ∈ elements, ReadsBack v)
    (level outer fuel : Nat) (rest : List Char)
    (hfuel : 2 * (itemsText level (elements.map (Value.writeAt level))).length < fuel) :
    readElements? fuel (itemsText level (elements.map (Value.writeAt level)) ++
      (Value.newLine outer ++ ']' :: rest)) = some (elements, rest) := by
  induction elements generalizing fuel with
  | nil => exact absurd rfl hne
  | cons v vs ih =>
    obtain ⟨fuel, rfl⟩ := Nat.exists_eq_add_one_of_ne_zero (Nat.ne_zero_of_lt hfuel)
    have hv : ReadsBack v := h v List.mem_cons_self
    cases vs with
    | nil =>
      rw [List.map_singleton, itemsText, List.intercalate_singleton] at hfuel ⊢
      rw [readElements?, hv level fuel _ (by omega)]
      simp only [bind, Option.bind_some, skipSpace_newLine_append, skipSpace_cons (c := ']') rfl]
    | cons w ws =>
      rw [List.map_cons, List.map_cons, itemsText_cons_cons, ← List.map_cons] at hfuel ⊢
      rw [List.length_append, List.length_cons, List.length_append] at hfuel
      have hrest := ih (List.cons_ne_nil w ws) (fun u hu => hplain u (List.mem_cons_of_mem v hu))
        (fun u hu => h u (List.mem_cons_of_mem v hu)) fuel (by omega)
      have hstart : StartsItem (itemsText level ((w :: ws).map (Value.writeAt level))) :=
        ((hplain w (List.mem_cons_of_mem v List.mem_cons_self)).startsItem level).intercalate _ _
      rw [readElements?, List.append_assoc, hv level fuel _ (by omega)]
      simp only [bind, Option.bind_some, List.cons_append, skipSpace_cons (c := ',') rfl,
        List.append_assoc, skipSpace_newLine_append, (hstart.append _).skipSpace_eq, hrest,
        Option.map_some]

/-- The members of an object are read up to its closing brace. -/
theorem readMembers?_written {members : List (Option String × Value)} (hne : members ≠ [])
    (hkeys : ∀ m ∈ members, m.1.isSome) (hplain : ∀ m ∈ members, Plain m.2)
    (h : ∀ m ∈ members, ReadsBack m.2) (level outer fuel : Nat) (rest : List Char)
    (hfuel : 2 * (itemsText level (members.map (writeMember level))).length < fuel) :
    readMembers? fuel (itemsText level (members.map (writeMember level)) ++
      (Value.newLine outer ++ '\x7d' :: rest)) = some (members, rest) := by
  induction members generalizing fuel with
  | nil => exact absurd rfl hne
  | cons m ms ih =>
    obtain ⟨fuel, rfl⟩ := Nat.exists_eq_add_one_of_ne_zero (Nat.ne_zero_of_lt hfuel)
    obtain ⟨key, v⟩ := m
    obtain ⟨key, rfl⟩ := Option.isSome_iff_exists.mp (hkeys _ List.mem_cons_self)
    have hv : ReadsBack v := h _ List.mem_cons_self
    have hvalue (tail : List Char) : skipSpace (' ' :: (v.writeAt level ++ tail)) =
        v.writeAt level ++ tail :=
      (((hplain _ List.mem_cons_self).startsItem level).append tail).skipSpace_eq
    have hmember (tail : List Char) : writeMember level (some key, v) ++ tail =
        '"' :: (key.toList.flatMap Value.escapeChar ++ '"' :: ':' :: ' ' ::
          (v.writeAt level ++ tail)) := by
      simp [writeMember, Value.writeText]
    have hlength : (v.writeAt level).length < (writeMember level (some key, v)).length := by
      simp only [writeMember, List.length_append, List.length_cons]
      omega
    cases ms with
    | nil =>
      rw [List.map_singleton, itemsText, List.intercalate_singleton] at hfuel ⊢
      rw [hmember, readMembers?]
      simp only [bind, Option.bind_some, readText?_written, skipSpace_cons (c := ':') rfl, hvalue,
        hv level fuel _ (by omega), skipSpace_newLine_append, skipSpace_cons (c := '\x7d') rfl]
    | cons next ms =>
      rw [List.map_cons, List.map_cons, itemsText_cons_cons, ← List.map_cons] at hfuel ⊢
      rw [List.length_append, List.length_cons, List.length_append] at hfuel
      have hrest := ih (List.cons_ne_nil next ms) (fun m hm => hkeys m (List.mem_cons_of_mem _ hm))
        (fun m hm => hplain m (List.mem_cons_of_mem _ hm))
        (fun m hm => h m (List.mem_cons_of_mem _ hm)) fuel (by omega)
      have hstart : StartsItem (itemsText level ((next :: ms).map (writeMember level))) :=
        (startsItem_writeMember level next).intercalate _ _
      rw [List.append_assoc, hmember, readMembers?]
      simp only [bind, Option.bind_some, readText?_written, skipSpace_cons (c := ':') rfl, hvalue,
        hv level fuel _ (by omega), List.cons_append, skipSpace_cons (c := ',') rfl,
        List.append_assoc, skipSpace_newLine_append, (hstart.append _).skipSpace_eq, hrest,
        Option.map_some]

theorem writeAt_array {elements : List Value} (h : elements ≠ []) (level : Nat) :
    (Value.array elements).writeAt level =
      '[' :: (Value.newLine (level + 1) ++ itemsText (level + 1)
        (elements.map (Value.writeAt (level + 1))) ++ Value.newLine level ++ [']']) := by
  cases elements with
  | nil => exact absurd rfl h
  | cons v vs => rw [Value.writeAt, writeElements_eq_map]; rfl

theorem writeAt_object {members : List (Option String × Value)} (h : members ≠ []) (level : Nat) :
    (Value.object members).writeAt level =
      '\x7b' :: (Value.newLine (level + 1) ++ itemsText (level + 1)
        (members.map (writeMember (level + 1))) ++ Value.newLine level ++ ['\x7d']) := by
  cases members with
  | nil => exact absurd rfl h
  | cons m ms => rw [Value.writeAt, writeMembers_eq_map]; rfl

theorem readValue?_bracket {cs items : List Char} (hskip : skipSpace cs = items)
    (h : StartsItem items) (fuel : Nat) :
    readValue? (fuel + 1) ('[' :: cs) =
      (readElements? fuel items).map fun (es, rest) => (.array es, rest) := by
  obtain ⟨c, rest, rfl, -, hbracket, -⟩ := h
  simp only [readValue?, hskip]
  split
  · next heq => exact absurd (List.cons.inj heq).1 hbracket
  · rfl

theorem readValue?_brace {cs items : List Char} (hskip : skipSpace cs = items)
    (h : StartsItem items) (fuel : Nat) :
    readValue? (fuel + 1) ('\x7b' :: cs) =
      (readMembers? fuel items).map fun (ms, rest) => (.object ms, rest) := by
  obtain ⟨c, rest, rfl, -, -, hbrace⟩ := h
  simp only [readValue?, hskip]
  split
  · next heq => exact absurd (List.cons.inj heq).1 hbrace
  · rfl

theorem Plain.exists_fuel {v : Value} (h : Plain v) {level fuel : Nat}
    (hfuel : 2 * (v.writeAt level).length ≤ fuel) : ∃ n, fuel = n + 1 := by
  have hlength := (h.startsItem level).length_pos
  exact Nat.exists_eq_add_one_of_ne_zero (by omega)

theorem readsBack_array {elements : List Value} (hplain : ∀ v ∈ elements, Plain v)
    (h : ∀ v ∈ elements, ReadsBack v) : ReadsBack (.array elements) := by
  intro level fuel rest hfuel
  obtain ⟨fuel, rfl⟩ := (Plain.array hplain).exists_fuel hfuel
  by_cases hne : elements = []
  · subst hne
    rfl
  · rw [writeAt_array hne] at hfuel ⊢
    simp only [List.length_cons, List.length_append, Value.newLine] at hfuel
    have hread := readElements?_written hne hplain h (level + 1) level fuel rest (by omega)
    have hstart :
        StartsItem (itemsText (level + 1) (elements.map (Value.writeAt (level + 1)))) := by
      obtain ⟨v, vs, rfl⟩ := List.exists_cons_of_ne_nil hne
      exact ((hplain v List.mem_cons_self).startsItem _).intercalate _ _
    simp only [List.cons_append, List.append_assoc, List.nil_append]
    rw [readValue?_bracket _ (hstart.append _), hread, Option.map_some]
    rw [skipSpace_newLine_append, (hstart.append _).skipSpace_eq]

theorem readsBack_object {members : List (Option String × Value)}
    (hkeys : ∀ m ∈ members, m.1.isSome) (hplain : ∀ m ∈ members, Plain m.2)
    (h : ∀ m ∈ members, ReadsBack m.2) : ReadsBack (.object members) := by
  intro level fuel rest hfuel
  obtain ⟨fuel, rfl⟩ := (Plain.object hkeys hplain).exists_fuel hfuel
  by_cases hne : members = []
  · subst hne
    rfl
  · rw [writeAt_object hne] at hfuel ⊢
    simp only [List.length_cons, List.length_append, Value.newLine] at hfuel
    have hread := readMembers?_written hne hkeys hplain h (level + 1) level fuel rest (by omega)
    have hstart : StartsItem (itemsText (level + 1) (members.map (writeMember (level + 1)))) := by
      obtain ⟨m, ms, rfl⟩ := List.exists_cons_of_ne_nil hne
      exact (startsItem_writeMember _ m).intercalate _ _
    simp only [List.cons_append, List.append_assoc, List.nil_append]
    rw [readValue?_brace _ (hstart.append _), hread, Option.map_some]
    rw [skipSpace_newLine_append, (hstart.append _).skipSpace_eq]

/-- A plain value is read back on every level, whatever follows it. -/
theorem Plain.readsBack {v : Value} (h : Plain v) : ReadsBack v := by
  induction h with
  | null =>
    intro level fuel rest hfuel
    obtain ⟨fuel, rfl⟩ := Plain.null.exists_fuel hfuel
    rfl
  | bool value =>
    intro level fuel rest hfuel
    obtain ⟨fuel, rfl⟩ := (Plain.bool value).exists_fuel hfuel
    cases value <;> rfl
  | text value =>
    intro level fuel rest hfuel
    obtain ⟨fuel, rfl⟩ := (Plain.text value).exists_fuel hfuel
    simp only [Value.writeAt, Value.writeText, Option.getD_some, List.cons_append,
      List.append_assoc, List.nil_append, readValue?, readText?_written, Option.map_some]
  | array hplain ih => exact readsBack_array hplain ih
  | object hkeys hplain ih => exact readsBack_object hkeys hplain ih

/-- **The text of a plain value spells that value.** -/
theorem read?_write {v : Value} (h : Plain v) : Value.read? v.write = some v := by
  have hstart := h.startsItem 0
  have hread := h.readsBack 0 (2 * (v.writeAt 0).length + 1) [] (Nat.le_succ _)
  rw [List.append_nil] at hread
  simp only [Value.read?, Value.write, String.toList_ofList, hstart.skipSpace_eq, hread, bind,
    Option.bind_some]
  rfl

end Descriptor.Json
