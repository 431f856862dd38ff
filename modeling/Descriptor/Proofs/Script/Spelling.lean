import Descriptor.Proofs.Script.Segment
import Descriptor.Proofs.Text.Utf8

/-!
# Spelling a text as a literal

The literals that a text can be written as. Between the quotes every character stands for itself or
is written as any of its escapes, and lines may be joined anywhere; behind a mark for raw bodies the
text stands as it is. Whichever of its literals is chosen, the text is read back.

## Main definitions

* `SpellsChar`, `SpellsText` : the spellings of a character and the bodies of a text.
* `IsLiteral` : the literals of a text.

## Main results

* `SpellsText.unescape_eq` : a body of a text decodes to it.
* `literalBody?_enclosed` : the body between quotes.
* `decodeLiteral_of_isLiteral` : a literal of a text decodes to it.
-/

namespace Descriptor.Script

open Text

/-! ### Spellings -/

/-- The spellings of a character between quotes of the given kind. -/
inductive SpellsChar (quote c : Char) : List Char → Prop
  | itself (hbackslash : c ≠ '\\') (hquote : c ≠ quote) : SpellsChar quote c [c]
  | letter {mark : Char} (h : (mark, c) ∈ letterEscapes) : SpellsChar quote c ['\\', mark]
  | octal {digits : List Char} (hlength : digits.length = 3) (h : Numeral 8 c.toNat digits) :
      SpellsChar quote c ('\\' :: digits)
  | code {mark : Char} {width : ℕ} {digits : List Char} (hmark : (mark, width) ∈ codeEscapes)
      (hwidth : digits.length = width) (h : Numeral 16 c.toNat digits) :
      SpellsChar quote c ('\\' :: mark :: digits)

/-- The bodies that spell a text between quotes of the given kind. Lines are joined where a line
ends behind a backslash. -/
inductive SpellsText (quote : Char) : List Char → List Char → Prop
  | nil : SpellsText quote [] []
  | char {c : Char} {spelling text body : List Char} (hc : SpellsChar quote c spelling)
      (h : SpellsText quote text body) : SpellsText quote (c :: text) (spelling ++ body)
  | join {lineEnd text body : List Char} (hline : lineEnd = ['\n'] ∨ lineEnd = ['\r', '\n'])
      (h : SpellsText quote text body) : SpellsText quote text ('\\' :: (lineEnd ++ body))

/-- The quotes of the given kind, three of them or one. -/
def quotes (quote : Char) (triple : Bool) : List Char :=
  List.replicate (if triple then 3 else 1) quote

/-- The literals of a text: marks, and the body between two equal quotes. -/
inductive IsLiteral (text : List Char) : List Char → Prop
  | escaped {marks body : List Char} {quote : Char} {triple : Bool}
      (hmarks : ∀ c ∈ marks, c = 'u' ∨ c = 'U') (hquote : quote = '\'' ∨ quote = '"')
      (hbody : SpellsText quote text body) :
      IsLiteral text (marks ++ (quotes quote triple ++ (body ++ quotes quote triple)))
  /-- A raw body between single quotes has a backslash before each quote of its own. -/
  | raw {marks : List Char} {quote : Char} {triple : Bool}
      (hmarks : ∀ c ∈ marks, c ∈ ['r', 'R', 'u', 'U']) (hraw : 'r' ∈ marks ∨ 'R' ∈ marks)
      (hquote : quote = '\'' ∨ quote = '"')
      (hbody : triple = false → ∀ before after, text = before ++ quote :: after →
        before.getLast? = some '\\') :
      IsLiteral text (marks ++ (quotes quote triple ++ (text ++ quotes quote triple)))

/-! ### The text of a body -/

/-- A spelling of a character is a segment that spells it, whatever stands behind it: its digits are
as many as may be, so that none of the characters behind it is taken along. -/
theorem SpellsChar.exists_segment {quote c : Char} {spelling : List Char}
    (h : SpellsChar quote c spelling) :
    ∃ s : Segment, s.source = spelling ∧ s.Spells [c] ∧ ∀ rest, s.IsFirst rest := by
  cases h with
  | itself hbackslash _ => exact ⟨.plain c, rfl, .plain c, fun _ => .plain hbackslash⟩
  | @letter mark h =>
    obtain ⟨⟨-, hreturn⟩, -, hoctal, hcode⟩ := letterMark_spec h
    exact ⟨.escape mark [], rfl, .letter h, fun rest =>
      .escape (isRun_nil (.inr fun d _ => not_takesAlong hoctal hcode hreturn d))⟩
  | @octal digits hlength h =>
    obtain ⟨mark, more, rfl⟩ :=
      List.exists_cons_of_length_pos (Nat.lt_of_lt_of_eq (by decide) hlength.symm)
    obtain ⟨⟨k, hmark⟩, hmore⟩ := List.forall_mem_cons.mp h.exists_isDigit
    have hreach : more.length = reach mark :=
      (Nat.succ.inj hlength).trans (octalMark_spec hmark).2.2.2.2.symm
    exact ⟨.escape mark more, rfl, .octal h, fun rest => .escape (isRun_of_length_eq
      (fun d hd => (takesAlong_octal_iff hmark).mpr (hmore d hd)) hreach rest)⟩
  | @code mark width digits hmark hwidth h =>
    have hreach : digits.length = reach mark := hwidth.trans (codeMark_spec hmark).2.2.2.2.symm
    exact ⟨.escape mark digits, rfl, .code hmark hwidth h, fun rest => .escape (isRun_of_length_eq
      (fun d hd => (takesAlong_code_iff hmark).mpr (h.exists_isDigit d hd)) hreach rest)⟩

/-- A body of a text decodes to it. -/
theorem SpellsText.unescape_eq {quote : Char} {text body : List Char}
    (h : SpellsText quote text body) : unescape body = some text := by
  induction h with
  | nil => rw [unescape]
  | char hc _ ih =>
    obtain ⟨s, rfl, hspells, hfirst⟩ := hc.exists_segment
    rw [(hfirst _).unescape_append hspells, ih]
    rfl
  | join hline _ ih =>
    rw [unescape_join, ih]
    · rcases hline with rfl | rfl <;> decide
    · rcases hline with rfl | rfl <;> simp

/-- No body starts with the quote that it stands between. -/
theorem SpellsText.head?_ne {quote : Char} {text body : List Char}
    (h : SpellsText quote text body) (hquote : quote ≠ '\\') : body.head? ≠ some quote := by
  have hescape : ∀ cs : List Char, ('\\' :: cs).head? ≠ some quote := fun cs hcs =>
    hquote (Option.some.inj hcs).symm
  cases h with
  | nil => simp
  | char hc _ =>
    cases hc with
    | itself _ hne => exact fun hhead => hne (Option.some.inj hhead)
    | letter => exact hescape _
    | octal => exact hescape _
    | code => exact hescape _
  | join => exact hescape _

/-! ### The body of a literal -/

theorem between?_enclosed (style body : List Char) :
    between? style (style ++ (body ++ style)) = some body := by
  have hprefix : style.isPrefixOf (style ++ (body ++ style)) = true :=
    List.isPrefixOf_iff_prefix.mpr ⟨body ++ style, rfl⟩
  have hsuffix : style.isSuffixOf (body ++ style) = true :=
    List.isSuffixOf_iff_suffix.mpr ⟨body, rfl⟩
  simp only [between?, hprefix, List.drop_left, hsuffix, if_true, List.length_append,
    Nat.add_sub_cancel, List.take_left]

/-- One quote before a body that starts with none is not taken for three. -/
theorem not_isPrefixOf_of_head?_ne {quote : Char} {body : List Char}
    (h : body.head? ≠ some quote) : [quote, quote].isPrefixOf (body ++ [quote]) = false := by
  rcases body with _ | ⟨c, body⟩
  · simp [List.isPrefixOf]
  · have hc : (quote == c) = false := beq_eq_false_iff_ne.mpr fun hc => h (hc ▸ rfl)
    simp [List.isPrefixOf, hc]

/-- The body between quotes. Between single ones it does not start with a quote itself. -/
theorem literalBody?_enclosed {quote : Char} (hquote : quote = '\'' ∨ quote = '"') {triple : Bool}
    {body : List Char} (hbody : triple = false → body.head? ≠ some quote) :
    literalBody? (quotes quote triple ++ (body ++ quotes quote triple)) = some body := by
  have hstyle : quoteStyles.find? (fun q =>
      q.isPrefixOf (quotes quote triple ++ (body ++ quotes quote triple)) &&
        decide (byteLength (quotes quote triple ++ (body ++ quotes quote triple)) ≥
          2 * byteLength q)) =
      some (quotes quote triple) := by
    have hlength : 2 * byteLength (quotes quote triple) ≤
        byteLength (quotes quote triple ++ (body ++ quotes quote triple)) := by
      simp only [byteLength_append]
      omega
    cases triple with
    | true =>
      rcases hquote with rfl | rfl <;>
        simpa [quoteStyles, quotes, List.replicate, List.isPrefixOf] using hlength
    | false =>
      have hsingle := not_isPrefixOf_of_head?_ne (hbody rfl)
      rcases hquote with rfl | rfl <;>
        simpa [quoteStyles, quotes, hsingle, List.isPrefixOf] using hlength
  simp only [literalBody?, hstyle, bind, Option.bind_some, between?_enclosed]

/-- A literal is decoded by its marks and its body. -/
theorem decodeLiteral_enclosed {marks body : List Char} {quote : Char} {triple : Bool}
    (hmarks : ∀ c ∈ marks, isTextMark c = true) (hquote : quote = '\'' ∨ quote = '"')
    (hbody : triple = false → body.head? ≠ some quote) :
    decodeLiteral (marks ++ (quotes quote triple ++ (body ++ quotes quote triple))) =
      if marks.any isRawMark then some body else unescape body := by
  have hunquoted : ∀ c ∈ marks, (!isQuote c) = true := by
    intro c hc
    have hmark := hmarks c hc
    simp only [isTextMark, Bool.or_eq_true, decide_eq_true_eq] at hmark
    rcases hmark with ((rfl | rfl) | rfl) | rfl <;> rfl
  obtain ⟨more, hopen⟩ : ∃ more, quotes quote triple ++ (body ++ quotes quote triple) =
      quote :: more := by
    cases triple <;> exact ⟨_, rfl⟩
  have hisQuote : isQuote quote = true := by rcases hquote with rfl | rfl <;> decide
  have hspan : (marks ++ quote :: more).takeWhile (!isQuote ·) = marks ∧
      (marks ++ quote :: more).dropWhile (!isQuote ·) = quote :: more := by
    rw [List.takeWhile_append_of_pos hunquoted, List.takeWhile_cons_of_neg (by simp [hisQuote]),
      List.append_nil, List.dropWhile_append_of_pos hunquoted,
      List.dropWhile_cons_of_neg (by simp [hisQuote])]
    exact ⟨rfl, rfl⟩
  have henclosed := literalBody?_enclosed hquote hbody
  rw [hopen] at henclosed ⊢
  have hall : marks.all isTextMark = true := List.all_eq_true.mpr hmarks
  simp only [decodeLiteral, hspan, hall, henclosed, bind, Option.bind_some]
  rfl

/-- **Literals are read back.** Every literal of a text decodes to the text. -/
theorem decodeLiteral_of_isLiteral {text literal : List Char} (h : IsLiteral text literal) :
    decodeLiteral literal = some text := by
  cases h with
  | @escaped marks body quote triple hmarks hquote hbody =>
    have hquote' : quote ≠ '\\' := by rcases hquote with rfl | rfl <;> decide
    have hraw : marks.any isRawMark = false := by
      refine List.any_eq_false.mpr fun c hc => ?_
      rcases hmarks c hc with rfl | rfl <;> decide
    rw [decodeLiteral_enclosed _ hquote fun _ => hbody.head?_ne hquote', hraw]
    · exact hbody.unescape_eq
    · intro c hc
      rcases hmarks c hc with rfl | rfl <;> decide
  | @raw marks quote triple hmarks hraw hquote hbody =>
    have hmarks' : marks.any isRawMark = true := by
      rcases hraw with hraw | hraw <;> exact List.any_eq_true.mpr ⟨_, hraw, by decide⟩
    have hhead : triple = false → text.head? ≠ some quote := by
      intro htriple hhead
      obtain ⟨rest, rfl⟩ := List.head?_eq_some_iff.mp hhead
      simpa using hbody htriple [] rest rfl
    rw [decodeLiteral_enclosed _ hquote hhead, if_pos hmarks']
    intro c hc
    have hmark := hmarks c hc
    simp only [List.mem_cons, List.not_mem_nil, or_false] at hmark
    rcases hmark with rfl | rfl | rfl | rfl <;> decide

/-- A text between double quotes with one character in each way of spelling, an apostrophe that
stands for itself, and two joined lines. -/
def mixedLiteral : String := "uU\"a'\\t\\351\\\r\n\\x4a\\u20aC\\U0001f60A\""

/-- The text of `mixedLiteral`. -/
def mixedText : String := "a'\téJ€😊"

/-- A raw text that ends in a backslash and an apostrophe, between apostrophes. -/
def rawLiteral : String := "Ur'\\''"

private theorem mixedLiteral_isLiteral : IsLiteral mixedText.toList mixedLiteral.toList := by
  have hoctal := @numeral_iff 8 'é'.toNat ['3', '5', '1'] _ @isOctalDigit_iff (by decide)
  have hcode : ∀ {c : Char} {digits}, digits.all isHexDigit = true ∧
      digitsValue 16 digits = c.toNat → Numeral 16 c.toNat digits :=
    (numeral_iff @isHexDigit_iff (Nat.le_refl 16)).mpr
  have hbody : SpellsText '"' mixedText.toList
      "a'\\t\\351\\\r\n\\x4a\\u20aC\\U0001f60A".toList :=
    .char (.itself (by decide) (by decide)) <| .char (.itself (by decide) (by decide)) <|
      .char (.letter (by decide)) <|
      .char (@SpellsChar.octal _ 'é' ['3', '5', '1'] rfl (hoctal.mpr (by decide))) <|
      .join (.inr rfl) <|
      .char (@SpellsChar.code _ 'J' 'x' 2 ['4', 'a'] (by decide) rfl
        (hcode (by decide))) <|
      .char (@SpellsChar.code _ '€' 'u' 4 ['2', '0', 'a', 'C'] (by decide) rfl
        (hcode (by decide))) <|
      .char (@SpellsChar.code _ '😊' 'U' 8 "0001f60A".toList (by decide) rfl
        (hcode (by decide))) .nil
  exact @IsLiteral.escaped _ ['u', 'U'] _ '"' false (by simp) (.inr rfl) hbody

private theorem rawLiteral_isLiteral : IsLiteral ['\\', '\''] rawLiteral.toList := by
  refine @IsLiteral.raw _ ['U', 'r'] '\'' false (by simp) (.inl (by simp)) (.inl rfl) ?_
  intro _ before after h
  rcases before with _ | ⟨a, _ | ⟨b, before⟩⟩
  · simp at h
  · simp only [List.cons_append, List.nil_append, List.cons.injEq] at h
    rw [← h.1]
    rfl
  · simp at h

theorem decodeLiteral_of_isLiteral_mixedLiteral :
    IsLiteral mixedText.toList mixedLiteral.toList ∧
      decodeLiteral mixedLiteral.toList = some mixedText.toList ∧
      IsLiteral ['\\', '\''] rawLiteral.toList ∧
      decodeLiteral rawLiteral.toList = some ['\\', '\''] :=
  ⟨mixedLiteral_isLiteral, decodeLiteral_of_isLiteral mixedLiteral_isLiteral,
    rawLiteral_isLiteral, decodeLiteral_of_isLiteral rawLiteral_isLiteral⟩

end Descriptor.Script
