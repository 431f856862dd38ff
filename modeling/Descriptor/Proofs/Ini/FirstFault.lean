import Descriptor.Proofs.Ini.Catalog
import Descriptor.Proofs.Ini.Trivia

/-!
# The first line that cannot be read

What a line does depends on the lines before it alone: on the option that may still be continued, on
the sections that have been started, and on the keys of the last one. So a text stops at the first
line that offends the lines before it, whatever comes behind, and a text of which no line does so is
read to its end. All this is told from the lines themselves; that a draft keeps what is needed of
them is an invariant of reading.

## Main definitions

* `Continues` : content that goes on with the value of an option.
* `StartsSection`, `StartsOption`, `Shapeless` : what content does that goes on with nothing.
* `HasSection`, `HasKey` : names and keys that are taken.
* `Offends` : a line that cannot be read behind given ones, and why.
* `Draft.Follows` : a draft that keeps what is needed of the lines read.
* `StopsAt` : what an error says about a text.

## Main results

* `Draft.Follows.addLine`, `Draft.Follows.addLines` : a line, and lines, that are read.
* `Draft.Follows.addLine_eq_error_iff` : a line that cannot be read.
* `read_stops_at_first_fault` : a text as a whole.
-/

namespace Descriptor.Ini

open Text

/-! ### What lines do behind others -/

/-- Content in the form of an option with the given key: it is no header, and has a key before a
delimiter. -/
def IsOption (text key : List Char) : Prop :=
  headerName? text = none ∧ ∃ value, splitOption? text = some (key, value)

/-- Content of a given depth goes on with the value of an option: since the line of that option,
all content has been deeper than it, and so is this one. Comments and blank lines do not count. -/
def Continues (before : List Line) (indent : ℕ) : Prop :=
  ∃ front depth text between, before = front ++ .content depth text :: between ∧
    (∃ key, IsOption text key) ∧ (∀ d t, .content d t ∈ between → depth < d) ∧ depth < indent

/-- A line that starts a section behind given ones. -/
inductive StartsSection (before : List Line) : Line → List Char → Prop
  | intro {indent : ℕ} {text name : List Char} (hstart : ¬Continues before indent)
      (h : headerName? text = some name) : StartsSection before (.content indent text) name

/-- A line that starts an option behind given ones. -/
inductive StartsOption (before : List Line) : Line → List Char → Prop
  | intro {indent : ℕ} {text key : List Char} (hstart : ¬Continues before indent)
      (h : IsOption text key) : StartsOption before (.content indent text) key

/-- A line with content that goes on with nothing and is neither a header nor an option. -/
inductive Shapeless (before : List Line) : Line → List Char → Prop
  | intro {indent : ℕ} {text : List Char} (hstart : ¬Continues before indent)
      (hheader : headerName? text = none) (hoption : splitOption? text = none) :
      Shapeless before (.content indent text) text

/-- A section of the given name has been started. -/
def HasSection (lines : List Line) (name : List Char) : Prop :=
  ∃ front line rest, lines = front ++ line :: rest ∧ StartsSection front line name

/-- An option of the given key has been started, and no section after it. -/
def HasKey (lines : List Line) (key : List Char) : Prop :=
  ∃ front line rest, lines = front ++ line :: rest ∧ StartsOption front line key ∧
    ∀ between later behind, rest = between ++ later :: behind →
      ∀ name, ¬StartsSection (front ++ line :: between) later name

/-- A line that cannot be read behind given ones: the header of a section that has been started, an
option before any section, an option under a key that its section has, or something else that goes
on with nothing. Before any section the last two faults are told as the second one. -/
inductive Offends (before : List Line) : Line → Fault → Prop
  | repeatedSection {line : Line} {name : List Char} (h : StartsSection before line name)
      (hused : HasSection before name) :
      Offends before line (.repeatedSection (String.ofList name))
  | noSection {line : Line} {key : List Char} (h : StartsOption before line key)
      (hnone : ∀ name, ¬HasSection before name) : Offends before line .noSection
  | repeatedKey {line : Line} {key : List Char} (h : StartsOption before line key)
      (hused : HasKey before key) : Offends before line (.repeatedKey (String.ofList key))
  | unreadable {line : Line} {text name : List Char} (h : Shapeless before line text)
      (hsection : HasSection before name) :
      Offends before line (.unreadable (String.ofList text))
  | unreadableFirst {line : Line} {text : List Char} (h : Shapeless before line text)
      (hnone : ∀ name, ¬HasSection before name) : Offends before line .noSection

/-! ### One more line -/

theorem concat_eq_append_cons_iff {α : Type} {xs front rest : List α} {x y : α} :
    xs ++ [x] = front ++ y :: rest ↔
      (front = xs ∧ y = x ∧ rest = []) ∨
        ∃ rest', rest = rest' ++ [x] ∧ xs = front ++ y :: rest' := by
  constructor
  · intro h
    obtain rfl | ⟨rest', last, rfl⟩ := List.eq_nil_or_concat rest
    · obtain ⟨rfl, hlast⟩ := List.append_inj' h rfl
      exact .inl ⟨rfl, (List.singleton_inj.mp hlast).symm, rfl⟩
    · rw [List.concat_eq_append, ← List.cons_append, ← List.append_assoc] at h
      obtain ⟨rfl, hlast⟩ := List.append_inj' h rfl
      exact .inr ⟨rest', by rw [List.concat_eq_append, List.singleton_inj.mp hlast], rfl⟩
  · rintro (⟨rfl, rfl, rfl⟩ | ⟨rest', rfl, rfl⟩)
    · rfl
    · simp

theorem Continues.mono {lines : List Line} {indent indent' : ℕ} (h : Continues lines indent)
    (hindent : indent ≤ indent') : Continues lines indent' := by
  obtain ⟨front, depth, text, between, hlines, hoption, hbetween, hdepth⟩ := h
  exact ⟨front, depth, text, between, hlines, hoption, hbetween, Nat.lt_of_lt_of_le hdepth hindent⟩

section Concat

variable {lines : List Line}

/-- Lines without content do not count. -/
theorem continues_concat_of_trivia {line : Line} (h : ∀ d t, line ≠ .content d t) (indent : ℕ) :
    Continues (lines ++ [line]) indent ↔ Continues lines indent := by
  constructor
  · rintro ⟨front, depth, text, between, heq, hoption, hbetween, hindent⟩
    obtain ⟨-, hline, -⟩ | ⟨between, rfl, rfl⟩ := concat_eq_append_cons_iff.mp heq
    · exact absurd hline.symm (h _ _)
    · exact ⟨front, depth, text, between, rfl, hoption,
        fun d t hmem => hbetween d t (List.mem_append_left _ hmem), hindent⟩
  · rintro ⟨front, depth, text, between, rfl, hoption, hbetween, hindent⟩
    refine ⟨front, depth, text, between ++ [line], by simp, hoption, fun d t hmem => ?_, hindent⟩
    rcases List.mem_append.mp hmem with hmem | hmem
    · exact hbetween d t hmem
    · exact absurd (List.mem_singleton.mp hmem).symm (h d t)

/-- Behind content, either its own option goes on, or one that goes on with this content too. -/
theorem continues_concat_content {depth indent : ℕ} {text : List Char} :
    Continues (lines ++ [.content depth text]) indent ↔
      (∃ key, IsOption text key) ∧ depth < indent ∨ Continues lines (min depth indent) := by
  constructor
  · rintro ⟨front, depth', text', between, heq, hoption, hbetween, hindent⟩
    obtain ⟨-, hline, -⟩ | ⟨between, rfl, rfl⟩ := concat_eq_append_cons_iff.mp heq
    · obtain ⟨rfl, rfl⟩ := Line.content.inj hline
      exact .inl ⟨hoption, hindent⟩
    · have hdepth := hbetween depth text (List.mem_append_right _ List.mem_cons_self)
      refine .inr ⟨front, depth', text', between, rfl, hoption, fun d t hmem => ?_,
        Nat.lt_min.mpr ⟨hdepth, hindent⟩⟩
      exact hbetween d t (List.mem_append_left _ hmem)
  · rintro (⟨hoption, hindent⟩ | ⟨front, depth', text', between, rfl, hoption, hbetween, hmin⟩)
    · exact ⟨lines, depth, text, [], rfl, hoption, fun _ _ hmem => absurd hmem List.not_mem_nil,
        hindent⟩
    · obtain ⟨hdepth, hindent⟩ := Nat.lt_min.mp hmin
      refine ⟨front, depth', text', between ++ [.content depth text], by simp, hoption,
        fun d t hmem => ?_, hindent⟩
      rcases List.mem_append.mp hmem with hmem | hmem
      · exact hbetween d t hmem
      · obtain ⟨rfl, rfl⟩ := Line.content.inj (List.mem_singleton.mp hmem)
        exact hdepth

/-- Behind content that starts something, only what it starts can go on. -/
theorem continues_concat_of_start {depth indent : ℕ} {text : List Char}
    (hstart : ¬Continues lines depth) :
    Continues (lines ++ [.content depth text]) indent ↔
      (∃ key, IsOption text key) ∧ depth < indent := by
  rw [continues_concat_content]
  exact or_iff_left fun hmin => hstart (hmin.mono (Nat.min_le_left depth indent))

theorem hasSection_concat_iff {line : Line} {name : List Char} :
    HasSection (lines ++ [line]) name ↔ StartsSection lines line name ∨ HasSection lines name := by
  constructor
  · rintro ⟨front, line', rest, heq, h⟩
    obtain ⟨rfl, rfl, -⟩ | ⟨rest, -, rfl⟩ := concat_eq_append_cons_iff.mp heq
    · exact .inl h
    · exact .inr ⟨front, line', rest, rfl, h⟩
  · rintro (h | ⟨front, line', rest, rfl, h⟩)
    · exact ⟨lines, line, [], rfl, h⟩
    · exact ⟨front, line', rest ++ [line], by simp, h⟩

theorem hasKey_concat_iff {line : Line} {key : List Char} :
    HasKey (lines ++ [line]) key ↔ StartsOption lines line key ∨
      HasKey lines key ∧ ∀ name, ¬StartsSection lines line name := by
  constructor
  · rintro ⟨front, line', rest, heq, h, hsection⟩
    obtain ⟨rfl, rfl, -⟩ | ⟨rest, rfl, rfl⟩ := concat_eq_append_cons_iff.mp heq
    · exact .inl h
    · refine .inr ⟨⟨front, line', rest, rfl, h, ?_⟩, hsection rest line [] rfl⟩
      rintro between later behind rfl
      exact hsection between later (behind ++ [line]) (by simp)
  · rintro (h | ⟨⟨front, line', rest, rfl, h, hsection⟩, hline⟩)
    · refine ⟨lines, line, [], rfl, h, fun between later behind hnil => ?_⟩
      exact absurd hnil (by simp)
    · refine ⟨front, line', rest ++ [line], by simp, h, fun between later behind heq => ?_⟩
      obtain ⟨rfl, rfl, -⟩ | ⟨behind, -, rfl⟩ := concat_eq_append_cons_iff.mp heq
      · exact hline
      · exact hsection between later behind rfl

end Concat

/-! ### Drafts that keep what is needed -/

namespace Draft

/-- The names of the sections. -/
def names (d : Draft) : List String := d.sections.map (·.name)

/-- The keys of the section that is being read. -/
def keys (d : Draft) : List String :=
  (d.sections.head?.map fun s => s.entries.map (·.key)).getD []

/-- A draft keeps what is needed of the lines read: the depth of the option that may be continued,
the names of the sections, and the keys of the last one. -/
structure Follows (d : Draft) (lines : List Line) : Prop where
  continues_iff : ∀ indent, (∃ o ∈ d.openEntry, o.indent < indent) ↔ Continues lines indent
  hasSection_iff : ∀ name, String.ofList name ∈ d.names ↔ HasSection lines name
  hasKey_iff : ∀ key, String.ofList key ∈ d.keys ↔ HasKey lines key

theorem follows_empty : empty.Follows [] := by
  have hnil {α : Type} {front rest : List α} {x : α} : [] ≠ front ++ x :: rest := by simp
  constructor
  · rintro indent
    refine ⟨fun ⟨o, ho, _⟩ => absurd ho (by simp [empty]), ?_⟩
    rintro ⟨front, depth, text, between, hlines, -⟩
    exact absurd hlines hnil
  · rintro name
    refine ⟨fun h => absurd h List.not_mem_nil, ?_⟩
    rintro ⟨front, line, rest, hlines, -⟩
    exact absurd hlines hnil
  · rintro key
    refine ⟨fun h => absurd h List.not_mem_nil, ?_⟩
    rintro ⟨front, line, rest, hlines, -⟩
    exact absurd hlines hnil

/-- Content deeper than the option that may be continued. -/
theorem addLine_deeper {d : Draft} {o : OpenEntry} (ho : d.openEntry = some o) {indent : ℕ}
    (hindent : o.indent < indent) (text : List Char) : d.addLine (.content indent text) =
      .ok ⟨extendLast (continuation o.blanks text) d.sections, some ⟨o.indent, 0⟩⟩ := by
  simp only [addLine, ho, if_pos hindent]

/-- The ways in which content starts nothing. -/
theorem start_eq_error_iff {d : Draft} {indent : ℕ} {text : List Char} {fault : Fault} :
    d.start indent text = .error fault ↔
      (∃ name, headerName? text = some name ∧ String.ofList name ∈ d.names ∧
        fault = .repeatedSection (String.ofList name)) ∨
      headerName? text = none ∧
        (d.sections = [] ∧ fault = .noSection ∨
          d.sections ≠ [] ∧
            (splitOption? text = none ∧ fault = .unreadable (String.ofList text) ∨
              ∃ key value, splitOption? text = some (key, value) ∧ String.ofList key ∈ d.keys ∧
                fault = .repeatedKey (String.ofList key))) := by
  obtain ⟨sections, openEntry⟩ := d
  unfold start
  cases headerName? text with
  | some name =>
    have hused : sections.any (·.name = String.ofList name) = true ↔
        String.ofList name ∈ names ⟨sections, openEntry⟩ := by simp [names]
    simp only [hused]
    split_ifs with hname <;> simp [hname, eq_comm]
  | none =>
    cases sections with
    | nil => simp [eq_comm]
    | cons current rest =>
      cases splitOption? text with
      | none => simp [eq_comm]
      | some option =>
        obtain ⟨key, value⟩ := option
        have hused : current.entries.any (·.key = String.ofList key) = true ↔
            String.ofList key ∈ keys ⟨current :: rest, openEntry⟩ := by simp [keys]
        simp only [hused]
        split_ifs with hkey <;> simp [hkey, eq_comm]

namespace Follows

variable {d : Draft} {lines : List Line} (h : d.Follows lines)

include h

theorem not_continues_iff {indent : ℕ} :
    ¬Continues lines indent ↔ ∀ o ∈ d.openEntry, indent ≤ o.indent := by
  rw [← h.continues_iff, not_exists]
  exact forall_congr' fun o => by rw [not_and, Nat.not_lt]

/-- A line that starts nothing, where names and keys stay what they are. -/
theorem keep {d' : Draft} {line : Line} (hnames : d'.names = d.names) (hkeys : d'.keys = d.keys)
    (hsection : ∀ name, ¬StartsSection lines line name)
    (hoption : ∀ key, ¬StartsOption lines line key)
    (hcontinues : ∀ indent, (∃ o ∈ d'.openEntry, o.indent < indent) ↔
      Continues (lines ++ [line]) indent) : d'.Follows (lines ++ [line]) where
  continues_iff := hcontinues
  hasSection_iff name := by
    rw [hasSection_concat_iff, or_iff_right (hsection name), ← h.hasSection_iff, hnames]
  hasKey_iff key := by
    rw [hasKey_concat_iff, or_iff_right (hoption key), and_iff_left hsection, ← h.hasKey_iff,
      hkeys]

/-- A line without content. -/
theorem trivia {line : Line} (hline : ∀ i t, line ≠ .content i t) (f : OpenEntry → OpenEntry)
    (hf : ∀ o, (f o).indent = o.indent) :
    Follows ⟨d.sections, d.openEntry.map f⟩ (lines ++ [line]) := by
  refine h.keep rfl rfl ?_ ?_ fun indent => ?_
  · rintro name ⟨-, -⟩
    exact hline _ _ rfl
  · rintro key ⟨-, -⟩
    exact hline _ _ rfl
  · rw [continues_concat_of_trivia hline, ← h.continues_iff]
    simp [hf]

variable {indent : ℕ} {text : List Char}

/-- Content that goes on with a value. -/
theorem continued {o : OpenEntry} (ho : d.openEntry = some o) (hindent : o.indent < indent)
    (more : String) : Follows ⟨extendLast more d.sections, some ⟨o.indent, 0⟩⟩
      (lines ++ [.content indent text]) := by
  have hcontinues : Continues lines indent := (h.continues_iff indent).mp ⟨o, ho, hindent⟩
  have hkept : names ⟨extendLast more d.sections, some ⟨o.indent, 0⟩⟩ = d.names ∧
      keys ⟨extendLast more d.sections, some ⟨o.indent, 0⟩⟩ = d.keys := by
    obtain ⟨_ | ⟨⟨name, _ | ⟨e, entries⟩⟩, rest⟩, openEntry⟩ := d <;> exact ⟨rfl, rfl⟩
  refine h.keep hkept.1 hkept.2 ?_ ?_ fun indent' => ?_
  · rintro name ⟨hstart, -⟩
    exact hstart hcontinues
  · rintro key ⟨hstart, -⟩
    exact hstart hcontinues
  · rw [continues_concat_content, ← h.continues_iff, ho]
    simp only [Option.mem_def, Option.some.injEq, exists_eq_left', Nat.lt_min]
    refine ⟨fun hdeeper => .inr ⟨hindent, hdeeper⟩, ?_⟩
    rintro (⟨-, hdeeper⟩ | ⟨-, hdeeper⟩)
    · exact Nat.lt_trans hindent hdeeper
    · exact hdeeper

/-- Content that starts a section. -/
theorem newSection {name : List Char} (hstart : ¬Continues lines indent)
    (hheader : headerName? text = some name) :
    Follows ⟨⟨String.ofList name, []⟩ :: d.sections, none⟩ (lines ++ [.content indent text]) := by
  have hstarts : ∀ name', StartsSection lines (.content indent text) name' ↔ name' = name := by
    refine fun name' => ⟨?_, fun hname => hname ▸ .intro hstart hheader⟩
    rintro ⟨-, hheader'⟩
    exact Option.some.inj (hheader'.symm.trans hheader)
  have hoption : ∀ key, ¬IsOption text key := by
    rintro key ⟨hnone, -⟩
    cases hheader.symm.trans hnone
  constructor
  · intro indent'
    rw [continues_concat_of_start hstart]
    refine ⟨fun ⟨o, ho, _⟩ => absurd ho (by simp), ?_⟩
    rintro ⟨⟨key, hkey⟩, -⟩
    exact absurd hkey (hoption key)
  · intro name'
    rw [hasSection_concat_iff, hstarts, ← h.hasSection_iff, names, List.map_cons, List.mem_cons,
      String.ofList_inj]
    rfl
  · intro key
    refine ⟨fun hkey => absurd hkey List.not_mem_nil, fun hkey => ?_⟩
    obtain ⟨-, hkey⟩ | ⟨-, hnone⟩ := hasKey_concat_iff.mp hkey
    · exact absurd hkey (hoption key)
    · exact absurd ((hstarts name).mpr rfl) (hnone name)

/-- Content that starts an option. -/
theorem newOption {current : Section} {rest : List Section} {key value : List Char}
    (hsections : d.sections = current :: rest) (hstart : ¬Continues lines indent)
    (hheader : headerName? text = none) (hsplit : splitOption? text = some (key, value)) :
    Follows ⟨{ current with
        entries := ⟨String.ofList key, String.ofList value⟩ :: current.entries } :: rest,
      some ⟨indent, 0⟩⟩ (lines ++ [.content indent text]) := by
  have hstarts : ∀ key', StartsOption lines (.content indent text) key' ↔ key' = key := by
    refine fun key' => ⟨?_, fun hkey => hkey ▸ .intro hstart ⟨hheader, value, hsplit⟩⟩
    rintro ⟨-, -, value', hsplit'⟩
    exact congrArg Prod.fst (Option.some.inj (hsplit'.symm.trans hsplit))
  have hsection : ∀ name, ¬StartsSection lines (.content indent text) name := by
    rintro name ⟨-, hname⟩
    cases hheader.symm.trans hname
  constructor
  · intro indent'
    rw [continues_concat_of_start hstart, and_iff_right ⟨key, hheader, value, hsplit⟩]
    simp only [Option.mem_def, Option.some.injEq, exists_eq_left']
  · intro name
    rw [hasSection_concat_iff, or_iff_right (hsection name), ← h.hasSection_iff, names, names,
      hsections]
    rfl
  · intro key'
    have hkeys : d.keys = current.entries.map (·.key) := by rw [keys, hsections]; rfl
    rw [hasKey_concat_iff, hstarts, and_iff_left hsection, ← h.hasKey_iff, hkeys,
      ← String.ofList_inj]
    exact List.mem_cons

theorem addLine_eq_start (hstart : ¬Continues lines indent) :
    d.addLine (.content indent text) = d.start indent text := by
  obtain ⟨sections, openEntry⟩ := d
  exact addLine_content (h.not_continues_iff.mp hstart) text

/-- A line that is read. -/
theorem addLine {line : Line} {d' : Draft} (hline : d.addLine line = .ok d') :
    d'.Follows (lines ++ [line]) := by
  cases line with
  | comment =>
    obtain rfl := Except.ok.inj hline
    simpa using @trivia _ _ h .comment (by simp) id fun _ => rfl
  | blank =>
    obtain rfl := Except.ok.inj hline
    exact h.trivia (by simp) _ fun _ => rfl
  | content indent text =>
    by_cases hcontinues : Continues lines indent
    · obtain ⟨o, ho, hindent⟩ := (h.continues_iff indent).mpr hcontinues
      rw [addLine_deeper ho hindent] at hline
      obtain rfl := Except.ok.inj hline
      exact h.continued ho hindent _
    · rw [h.addLine_eq_start hcontinues] at hline
      obtain ⟨header, hheader, -, rfl⟩ |
        ⟨current, rest, key, value, hheader, hsections, hsplit, -, rfl⟩ := start_cases hline
      · exact h.newSection hcontinues hheader
      · exact h.newOption hsections hcontinues hheader hsplit

theorem sections_eq_nil_iff : d.sections = [] ↔ ∀ name, ¬HasSection lines name := by
  simp only [← h.hasSection_iff, names]
  constructor
  · rintro hnil name
    rw [hnil]
    exact List.not_mem_nil
  · refine fun hnone => List.eq_nil_iff_forall_not_mem.mpr fun s hs => hnone s.name.toList ?_
    rw [String.ofList_toList]
    exact List.mem_map_of_mem hs

theorem offends_of_addLine {line : Line} {fault : Fault} (hline : d.addLine line = .error fault) :
    Offends lines line fault := by
  cases line with
  | comment => cases hline
  | blank => cases hline
  | content indent text =>
    by_cases hcontinues : Continues lines indent
    · obtain ⟨o, ho, hindent⟩ := (h.continues_iff indent).mpr hcontinues
      rw [addLine_deeper ho hindent] at hline
      cases hline
    rw [h.addLine_eq_start hcontinues, start_eq_error_iff] at hline
    obtain ⟨name, hheader, hused, rfl⟩ | ⟨hheader, ⟨hnil, rfl⟩ | ⟨hne, hfault⟩⟩ := hline
    · exact .repeatedSection (.intro hcontinues hheader) ((h.hasSection_iff name).mp hused)
    · have hnone := h.sections_eq_nil_iff.mp hnil
      cases hsplit : splitOption? text with
      | none => exact .unreadableFirst (.intro hcontinues hheader hsplit) hnone
      | some option => exact .noSection (.intro hcontinues ⟨hheader, option.2, hsplit⟩) hnone
    · obtain ⟨hsplit, rfl⟩ | ⟨key, value, hsplit, hused, rfl⟩ := hfault
      · obtain ⟨name, hsection⟩ := not_forall_not.mp (h.sections_eq_nil_iff.not.mp hne)
        exact .unreadable (.intro hcontinues hheader hsplit) hsection
      · exact .repeatedKey (.intro hcontinues ⟨hheader, value, hsplit⟩)
          ((h.hasKey_iff key).mp hused)

theorem addLine_of_offends {line : Line} {fault : Fault} (hline : Offends lines line fault) :
    d.addLine line = .error fault := by
  cases hline with
  | repeatedSection hstarts hused =>
    obtain ⟨hstart, hheader⟩ := hstarts
    rw [h.addLine_eq_start hstart, start_eq_error_iff]
    exact .inl ⟨_, hheader, (h.hasSection_iff _).mpr hused, rfl⟩
  | noSection hstarts hnone =>
    obtain ⟨hstart, hheader, -⟩ := hstarts
    rw [h.addLine_eq_start hstart, start_eq_error_iff]
    exact .inr ⟨hheader, .inl ⟨h.sections_eq_nil_iff.mpr hnone, rfl⟩⟩
  | repeatedKey hstarts hused =>
    obtain ⟨hstart, hheader, value, hsplit⟩ := hstarts
    rw [h.addLine_eq_start hstart, start_eq_error_iff]
    have hkeys := (h.hasKey_iff _).mpr hused
    have hne : d.sections ≠ [] := fun hnil => by
      rw [keys, hnil] at hkeys
      exact absurd hkeys List.not_mem_nil
    exact .inr ⟨hheader, .inr ⟨hne, .inr ⟨_, value, hsplit, hkeys, rfl⟩⟩⟩
  | unreadable hshape hsection =>
    obtain ⟨hstart, hheader, hsplit⟩ := hshape
    rw [h.addLine_eq_start hstart, start_eq_error_iff]
    have hne : d.sections ≠ [] := fun hnil => h.sections_eq_nil_iff.mp hnil _ hsection
    exact .inr ⟨hheader, .inr ⟨hne, .inl ⟨hsplit, rfl⟩⟩⟩
  | unreadableFirst hshape hnone =>
    obtain ⟨hstart, hheader, -⟩ := hshape
    rw [h.addLine_eq_start hstart, start_eq_error_iff]
    exact .inr ⟨hheader, .inl ⟨h.sections_eq_nil_iff.mpr hnone, rfl⟩⟩

/-- A line cannot be read just when it offends the lines before it. -/
theorem addLine_eq_error_iff {line : Line} {fault : Fault} :
    d.addLine line = .error fault ↔ Offends lines line fault :=
  ⟨h.offends_of_addLine, h.addLine_of_offends⟩

theorem addLines {more : List Line} {number : ℕ} {d' : Draft}
    (hmore : d.addLines number more = .ok d') : d'.Follows (lines ++ more) := by
  induction more generalizing d lines number with
  | nil =>
    obtain rfl := Except.ok.inj hmore
    rwa [List.append_nil]
  | cons line more ih =>
    rw [Draft.addLines] at hmore
    split at hmore
    · cases hmore
    · next next hnext =>
      rw [← List.singleton_append, ← List.append_assoc]
      exact ih (h.addLine hnext) hmore

end Follows

/-! ### Reading up to a line -/

/-- Lines that are read as far as they go. -/
theorem exists_of_addLines_append {d d' : Draft} {number : ℕ} {before after : List Line}
    (h : d.addLines number (before ++ after) = .ok d') :
    ∃ d'', d.addLines number before = .ok d'' := by
  rw [addLines_append] at h
  cases hbefore : d.addLines number before with
  | error e =>
    rw [hbefore] at h
    cases h
  | ok d'' => exact ⟨d'', rfl⟩

/-- Reading stops at a line behind lines that are read. -/
theorem addLines_eq_error_iff {d : Draft} {number : ℕ} {lines : List Line} {e : ReadError} :
    d.addLines number lines = .error e ↔
      ∃ before line after d', lines = before ++ line :: after ∧ d.addLines number before = .ok d' ∧
        d'.addLine line = .error e.fault ∧ e.line = number + before.length := by
  constructor
  · intro h
    induction lines generalizing d number with
    | nil => cases h
    | cons line lines ih =>
      rw [addLines] at h
      cases hline : d.addLine line with
      | error fault =>
        rw [hline] at h
        obtain rfl := Except.error.inj h
        exact ⟨[], line, lines, d, rfl, rfl, hline, rfl⟩
      | ok next =>
        rw [hline] at h
        obtain ⟨before, line', after, d', rfl, hbefore, hline', hnumber⟩ := ih h
        refine ⟨line :: before, line', after, d', rfl, ?_, hline', ?_⟩
        · rw [addLines, hline]
          exact hbefore
        · rw [hnumber, List.length_cons]
          omega
  · rintro ⟨before, line, after, d', rfl, hbefore, hline, hnumber⟩
    rw [addLines_append, hbefore, Except.bind, addLines, hline]
    dsimp only
    rw [← hnumber]

end Draft

/-! ### Texts -/

theorem Offends.exists_content {before : List Line} {line : Line} {fault : Fault}
    (h : Offends before line fault) : ∃ indent text, line = .content indent text := by
  cases h with
  | repeatedSection h => obtain ⟨-, -⟩ := h; exact ⟨_, _, rfl⟩
  | noSection h => obtain ⟨-, -⟩ := h; exact ⟨_, _, rfl⟩
  | repeatedKey h => obtain ⟨-, -⟩ := h; exact ⟨_, _, rfl⟩
  | unreadable h => obtain ⟨-, -, -⟩ := h; exact ⟨_, _, rfl⟩
  | unreadableFirst h => obtain ⟨-, -, -⟩ := h; exact ⟨_, _, rfl⟩

/-- Lines that are read to their end. -/
def Readable (lines : List (List Char)) : Prop :=
  ∃ d, Draft.empty.addLines 1 (lines.map Line.ofText) = .ok d

theorem Readable.of_append {before after : List (List Char)} (h : Readable (before ++ after)) :
    Readable before := by
  obtain ⟨d, hd⟩ := h
  rw [List.map_append] at hd
  exact Draft.exists_of_addLines_append hd

section Read

variable {content : String}

theorem exists_read_iff :
    (∃ d, Document.read content = .ok d) ↔ Readable (Text.lines content.toList) := by
  rw [Document.read, Document.ofLines, Readable]
  cases Draft.empty.addLines 1 ((Text.lines content.toList).map Line.ofText) with
  | error e => simp only [Except.map, reduceCtorEq, exists_false]
  | ok d => exact ⟨fun _ => ⟨d, rfl⟩, fun _ => ⟨_, rfl⟩⟩

/-- A text stops at a line that offends the lines before it, which are read. -/
theorem read_eq_error_iff {e : ReadError} :
    Document.read content = .error e ↔
      ∃ before line after, Text.lines content.toList = before ++ line :: after ∧ Readable before ∧
        Offends (before.map Line.ofText) (Line.ofText line) e.fault ∧
        e.line = before.length + 1 := by
  have hread : Document.read content = .error e ↔
      Draft.empty.addLines 1 ((Text.lines content.toList).map Line.ofText) = .error e := by
    rw [Document.read, Document.ofLines]
    cases Draft.empty.addLines 1 ((Text.lines content.toList).map Line.ofText) with
    | error e' => simp only [Except.map, Except.error.injEq]
    | ok d => simp only [Except.map, reduceCtorEq]
  rw [hread, Draft.addLines_eq_error_iff]
  constructor
  · rintro ⟨_, _, _, d, hlines, hbefore, hline, hnumber⟩
    obtain ⟨before, rest, hraw, rfl, hrest⟩ := List.map_eq_append_iff.mp hlines
    obtain ⟨line, after, rfl, rfl, rfl⟩ := List.map_eq_cons_iff.mp hrest
    have hfollows := Draft.follows_empty.addLines hbefore
    refine ⟨before, line, after, hraw, ⟨d, hbefore⟩, hfollows.addLine_eq_error_iff.mp hline, ?_⟩
    rw [hnumber, List.length_map, Nat.add_comm]
  · rintro ⟨before, line, after, hraw, ⟨d, hbefore⟩, hline, hnumber⟩
    have hfollows := Draft.follows_empty.addLines hbefore
    refine ⟨before.map Line.ofText, Line.ofText line, after.map Line.ofText, d, ?_, hbefore,
      hfollows.addLine_eq_error_iff.mpr hline, ?_⟩
    · rw [hraw, List.map_append, List.map_cons]
    · rw [hnumber, List.length_map, Nat.add_comm]

/-- A text is read to its end when no line offends the lines before it. -/
theorem exists_read_iff_forall_not_offends : (∃ d, Document.read content = .ok d) ↔
    ∀ before line after fault, Text.lines content.toList = before ++ line :: after →
      ¬Offends (before.map Line.ofText) (Line.ofText line) fault := by
  constructor
  · rintro ⟨d, hd⟩ before line after fault hlines hoffends
    have hreadable := exists_read_iff.mp ⟨d, hd⟩
    rw [hlines] at hreadable
    have herror := (@read_eq_error_iff content ⟨before.length + 1, fault⟩).mpr
      ⟨before, line, after, hlines, hreadable.of_append, hoffends, rfl⟩
    cases hd.symm.trans herror
  · intro h
    cases hread : Document.read content with
    | ok d => exact ⟨d, rfl⟩
    | error e =>
      obtain ⟨before, line, after, hlines, -, hoffends, -⟩ := read_eq_error_iff.mp hread
      exact absurd hoffends (h before line after e.fault hlines)

theorem exists_read_takeLines_iff (k : ℕ) :
    (∃ d, Document.read (String.ofList (takeLines k content.toList)) = .ok d) ↔
      Readable ((Text.lines content.toList).take k) := by
  rw [exists_read_iff, String.toList_ofList, lines_takeLines]

end Read

/-- What an error says about a text: it names one of its lines, which is neither blank nor a comment
and offends the lines before it; the text is read up to that line; and every text with the same
lines up to that one, whatever comes behind, gives the same error. -/
structure StopsAt (content : String) (e : ReadError) : Prop where
  one_le : 1 ≤ e.line
  le_length : e.line ≤ (Text.lines content.toList).length
  offends : ∃ before line after, Text.lines content.toList = before ++ line :: after ∧
    e.line = before.length + 1 ∧ ¬Blanks line ∧ ¬IsComment line ∧
    Offends (before.map Line.ofText) (Line.ofText line) e.fault
  reads_before : ∀ k < e.line,
    ∃ d, Document.read (String.ofList (takeLines k content.toList)) = .ok d
  fails_alike : ∀ content' : String,
    (Text.lines content'.toList).take e.line = (Text.lines content.toList).take e.line →
      Document.read content' = .error e

theorem stopsAt_of_read {content : String} {e : ReadError} (h : Document.read content = .error e) :
    StopsAt content e := by
  obtain ⟨before, line, after, hlines, hbefore, hoffends, hnumber⟩ := read_eq_error_iff.mp h
  obtain ⟨indent, text, hcontent⟩ := hoffends.exists_content
  have htake : (Text.lines content.toList).take e.line = before ++ [line] := by
    rw [hlines, hnumber, List.take_length_add_append]
    rfl
  refine ⟨by omega, by rw [hlines, hnumber]; simp, ⟨before, line, after, hlines, hnumber,
    fun hblank => ?_, fun hcomment => ?_, hoffends⟩, fun k hk => ?_, fun content' hcontent' => ?_⟩
  · rw [Line.ofText_of_blanks hblank] at hcontent
    cases hcontent
  · rw [Line.ofText_of_isComment hcomment] at hcontent
    cases hcontent
  · rw [exists_read_takeLines_iff, hlines, List.take_append_of_le_length (by omega)]
    rw [← List.take_append_drop k before] at hbefore
    exact hbefore.of_append
  · refine read_eq_error_iff.mpr
      ⟨before, line, (Text.lines content'.toList).drop e.line, ?_, hbefore, hoffends, hnumber⟩
    have hsplit := List.take_append_drop e.line (Text.lines content'.toList)
    rw [hcontent', htake, List.append_assoc] at hsplit
    exact hsplit.symm

/-- **Reading stops at the first line that cannot be read.** An error names the first line that
offends the lines before it, and tells why it does; what comes behind that line has no part in it. A
text is read to its end when this holds of all its beginnings, and when no line of it offends the
lines before it. -/
theorem read_stops_at_first_fault (content : String) :
    (∀ e, Document.read content = .error e → StopsAt content e) ∧
    (∀ k, takeLines k content.toList <+: content.toList ∧
      Text.lines (takeLines k content.toList) = (Text.lines content.toList).take k) ∧
    ((∃ d, Document.read content = .ok d) ↔
      ∀ k, ∃ d, Document.read (String.ofList (takeLines k content.toList)) = .ok d) ∧
    ((∃ d, Document.read content = .ok d) ↔
      ∀ before line after fault, Text.lines content.toList = before ++ line :: after →
        ¬Offends (before.map Line.ofText) (Line.ofText line) fault) := by
  refine ⟨fun e => stopsAt_of_read, fun k => ⟨takeLines_isPrefix k _, lines_takeLines k _⟩, ?_,
    exists_read_iff_forall_not_offends⟩
  simp only [exists_read_takeLines_iff, exists_read_iff]
  refine ⟨fun h k => ?_, fun h => ?_⟩
  · rw [← List.take_append_drop k (Text.lines content.toList)] at h
    exact h.of_append
  · have hall := h (Text.lines content.toList).length
    rwa [List.take_length] at hall

/-- A value with a line in the form of a header, and a key that comes again in other letters. -/
def repeatingText : String := "[a]\nk = 1\n  [a]\n\n# note\nK: 2\n"

theorem read_stops_at_first_fault_repeatingText :
    Document.read repeatingText = .error ⟨6, .repeatedKey "k"⟩ ∧
      StopsAt repeatingText ⟨6, .repeatedKey "k"⟩ ∧
      Document.read (repeatingText ++ "[a]\n?\n") = .error ⟨6, .repeatedKey "k"⟩ := by
  have hread : Document.read repeatingText = .error ⟨6, .repeatedKey "k"⟩ := by decide +kernel
  have hstops := (read_stops_at_first_fault repeatingText).1 _ hread
  exact ⟨hread, hstops, hstops.fails_alike _ (by decide +kernel)⟩

end Descriptor.Ini
