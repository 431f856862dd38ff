import Descriptor.Ini.Catalog
import Descriptor.Proofs.Ini.Lookup

/-!
# Catalogs in step

Reading in place is reading into a draft, with everything at its position: the draft keeps what was
read last in front, the catalog keeps it at the end. What holds of a draft at every line gives what
holds of a catalog: its cursors point at a section and an option, and its index gives each name the
position of its section. With names and keys told apart, listing the options of a section and
looking one up by its key come to the same.

## Main definitions

* `Draft.Sound` : what holds of a draft at every line.
* `Reader.ofDraft` : the reader that has read what a draft has.
* `Catalog.Consistent`, `Reader.InBounds` : a catalog in step with its index, and cursors that point
  at something.
* `Document.LookupsAgree` : what both ways to look options up say about a document.

## Main results

* `Draft.Sound.addLine`, `Draft.Sound.addLines` : a line, and lines, keep a draft sound.
* `ofDraft_addLine`, `ofDraft_addLines` : reading a line, and lines, in place.
* `read_consistent` : the catalog is in step at every line, and so are the look-ups.
-/

namespace Descriptor.Ini

/-! ### What every draft keeps to -/

namespace Draft

/-- What holds of a draft at every line: names and keys are told apart, and an option that may be
continued is there. -/
structure Sound (d : Draft) : Prop where
  names_ne_empty : ∀ s ∈ d.sections, s.name ≠ ""
  names_nodup : (d.sections.map (·.name)).Nodup
  keys_nodup : ∀ s ∈ d.sections, (s.entries.map (·.key)).Nodup
  opened : d.openEntry.isSome →
    ∃ name e entries rest, d.sections = ⟨name, e :: entries⟩ :: rest

theorem sound_empty : Sound empty :=
  ⟨fun _ hs => absurd hs List.not_mem_nil, List.nodup_nil,
    fun _ hs => absurd hs List.not_mem_nil, fun h => absurd h (by decide)⟩

/-- What a line that starts a section or an option does. -/
theorem start_cases {d d' : Draft} {indent : ℕ} {text : List Char}
    (h : d.start indent text = .ok d') :
    (∃ header, headerName? text = some header ∧
        (∀ s ∈ d.sections, s.name ≠ String.ofList header) ∧
        d' = ⟨⟨String.ofList header, []⟩ :: d.sections, none⟩) ∨
      ∃ current rest key value, headerName? text = none ∧ d.sections = current :: rest ∧
        splitOption? text = some (key, value) ∧
        (∀ e ∈ current.entries, e.key ≠ String.ofList key) ∧
        d' = ⟨{ current with
            entries := ⟨String.ofList key, String.ofList value⟩ :: current.entries } :: rest,
          some ⟨indent, 0⟩⟩ := by
  unfold start at h
  split at h
  · next header hheader =>
    dsimp only at h
    split_ifs at h with hused
    refine .inl ⟨header, hheader, ?_, (Except.ok.inj h).symm⟩
    simpa using hused
  · next hheader =>
    split at h
    · cases h
    · next current rest hsections =>
      split at h
      · cases h
      · next key value hsplit =>
        dsimp only at h
        split_ifs at h with hused
        refine .inr ⟨current, rest, key, value, hheader, hsections, hsplit, ?_,
          (Except.ok.inj h).symm⟩
        simpa using hused

/-- What a line does. -/
theorem addLine_cases {d d' : Draft} {line : Line} (h : d.addLine line = .ok d') :
    (d'.sections = d.sections ∧ (d'.openEntry.isSome → d.openEntry.isSome)) ∨
      (∃ more, d.openEntry.isSome ∧ d'.sections = extendLast more d.sections) ∨
      ∃ indent text, d.start indent text = .ok d' := by
  cases line with
  | comment =>
    obtain rfl := Except.ok.inj h
    exact .inl ⟨rfl, id⟩
  | blank =>
    obtain rfl := Except.ok.inj h
    exact .inl ⟨rfl, by simp⟩
  | content indent text =>
    unfold addLine at h
    dsimp only at h
    split at h
    · next o ho =>
      split_ifs at h
      · obtain rfl := Except.ok.inj h
        exact .inr (.inl ⟨_, by rw [ho]; rfl, rfl⟩)
      · exact .inr (.inr ⟨indent, text, h⟩)
    · exact .inr (.inr ⟨indent, text, h⟩)

theorem headerName?_ne_nil {text header : List Char} (h : headerName? text = some header) :
    header ≠ [] := by
  unfold headerName? at h
  split at h
  · simpa using (Option.filter_eq_some_iff.mp h).2
  · cases h

theorem Sound.start {d d' : Draft} (hd : d.Sound) {indent : ℕ} {text : List Char}
    (h : d.start indent text = .ok d') : d'.Sound := by
  obtain ⟨header, hheader, hnew, rfl⟩ | ⟨current, rest, key, value, -, hsections, -, hnew, rfl⟩ :=
    start_cases h
  · refine ⟨?_, ?_, ?_, fun hopen => absurd hopen (by simp)⟩
    · exact List.forall_mem_cons.mpr
        ⟨fun hempty => headerName?_ne_nil hheader (String.ofList_inj.mp hempty), hd.names_ne_empty⟩
    · exact List.nodup_cons.mpr ⟨by simpa using hnew, hd.names_nodup⟩
    · exact List.forall_mem_cons.mpr ⟨List.nodup_nil, hd.keys_nodup⟩
  · have hnames := hd.names_ne_empty
    have hnodup := hd.names_nodup
    have hkeys := hd.keys_nodup
    rw [hsections] at hnames hnodup hkeys
    obtain ⟨hcurrent, hrest⟩ := List.forall_mem_cons.mp hkeys
    refine ⟨List.forall_mem_cons.mpr (List.forall_mem_cons.mp hnames), hnodup,
      List.forall_mem_cons.mpr ⟨List.nodup_cons.mpr ⟨by simpa using hnew, hcurrent⟩, hrest⟩,
      fun _ => ⟨_, _, _, _, rfl⟩⟩

theorem Sound.addLine {d d' : Draft} (hd : d.Sound) {line : Line} (h : d.addLine line = .ok d') :
    d'.Sound := by
  obtain ⟨hsections, hopen⟩ | ⟨more, hopen, hsections⟩ | ⟨indent, text, hstart⟩ := addLine_cases h
  · exact ⟨hsections ▸ hd.names_ne_empty, hsections ▸ hd.names_nodup, hsections ▸ hd.keys_nodup,
      fun h => hsections ▸ hd.opened (hopen h)⟩
  · obtain ⟨name, e, entries, rest, heq⟩ := hd.opened hopen
    have hnames := hd.names_ne_empty
    have hnodup := hd.names_nodup
    have hkeys := hd.keys_nodup
    rw [heq] at hnames hnodup hkeys hsections
    rw [extendLast] at hsections
    refine ⟨?_, ?_, ?_, fun _ => ⟨_, _, _, _, hsections⟩⟩
    · rw [hsections]
      exact List.forall_mem_cons.mpr (List.forall_mem_cons.mp hnames)
    · rw [hsections]
      exact hnodup
    · rw [hsections]
      exact List.forall_mem_cons.mpr (List.forall_mem_cons.mp hkeys)
  · exact hd.start hstart

theorem Sound.addLines {d d' : Draft} (hd : d.Sound) {number : ℕ} {lines : List Line}
    (h : d.addLines number lines = .ok d') : d'.Sound := by
  induction lines generalizing d number with
  | nil =>
    obtain rfl := Except.ok.inj h
    exact hd
  | cons line lines ih =>
    rw [Draft.addLines] at h
    split at h
    · cases h
    · next next hnext => exact ih (hd.addLine hnext) h

end Draft

/-! ### Drafts read in place -/

/-- A section of a draft, with its options in the order of the document. -/
def Section.settled (s : Section) : Section := { s with entries := s.entries.reverse }

/-- The positions of the sections of a draft, the last of which come first. -/
def indexOf : List Section → List (String × ℕ)
  | [] => []
  | s :: rest => (s.name, rest.length) :: indexOf rest

/-- The catalog of the sections of a draft. -/
def catalogOf (sections : List Section) : Catalog :=
  ⟨sections.reverse.map Section.settled, indexOf sections⟩

/-- The reader that has read what a draft has. -/
def Reader.ofDraft (d : Draft) : Reader where
  catalog := catalogOf d.sections
  currentSection :=
    match d.sections with
    | [] => none
    | _ :: rest => some rest.length
  currentOption :=
    match d.openEntry, d.sections with
    | some o, ⟨_, _ :: entries⟩ :: rest => some ⟨rest.length, entries.length, o.indent⟩
    | _, _ => none
  blanks := (d.openEntry.map (·.blanks)).getD 0

theorem isSome_lookup_indexOf (sections : List Section) (name : String) :
    ((indexOf sections).lookup name).isSome = sections.any (·.name = name) := by
  induction sections with
  | nil => rfl
  | cons s rest ih =>
    rw [indexOf, List.lookup_cons, List.any_cons]
    by_cases h : s.name = name
    · simp [h]
    · have h' : (name == s.name) = false := beq_eq_false_iff_ne.mpr (Ne.symm h)
      simp [h, h', ih]

section Catalogs

variable (sections : List Section)

theorem length_sections_catalogOf : (catalogOf sections).sections.length = sections.length := by
  simp [catalogOf]

theorem push_catalogOf (name : String) :
    (catalogOf sections).push name = catalogOf (⟨name, []⟩ :: sections) := by
  simp [Catalog.push, catalogOf, indexOf, Section.settled]

/-- The section that was read last stands last. -/
theorem sectionAt_catalogOf (s : Section) :
    (catalogOf (s :: sections)).sectionAt sections.length = .ok s.settled := by
  simp [Catalog.sectionAt, catalogOf]

theorem setSection_catalogOf {s s' : Section} (h : s'.name = s.name) :
    (catalogOf (s :: sections)).setSection sections.length s'.settled =
      catalogOf (s' :: sections) := by
  simp [Catalog.setSection, catalogOf, indexOf, h]

/-- The option that was read last stands last in its section. -/
theorem extend_catalogOf (name : String) (e : Entry) (entries : List Entry) (indent : ℕ)
    (more : String) :
    (catalogOf (⟨name, e :: entries⟩ :: sections)).extend
        ⟨sections.length, entries.length, indent⟩ more =
      .ok (catalogOf (Draft.extendLast more (⟨name, e :: entries⟩ :: sections))) := by
  have hset := @setSection_catalogOf sections ⟨name, e :: entries⟩
    ⟨name, { e with value := e.value ++ more } :: entries⟩ rfl
  rw [Catalog.extend, sectionAt_catalogOf]
  simpa [Section.settled, bind, Except.bind, Draft.extendLast] using hset

end Catalogs

/-- Starting a section or an option in place. -/
theorem ofDraft_start (d : Draft) (indent : ℕ) (text : List Char) :
    (Reader.ofDraft d).start indent text =
      ((d.start indent text).map Reader.ofDraft).mapError .fault := by
  obtain ⟨sections, openEntry⟩ := d
  unfold Reader.start Draft.start
  cases headerName? text with
  | some header =>
    have hused : ((catalogOf sections).index.lookup (String.ofList header)).isSome =
        sections.any (·.name = String.ofList header) := isSome_lookup_indexOf _ _
    simp only [Reader.ofDraft, hused, push_catalogOf, length_sections_catalogOf]
    split_ifs <;> rfl
  | none =>
    cases sections with
    | nil => rfl
    | cons current rest =>
      cases splitOption? text with
      | none => rfl
      | some option =>
        obtain ⟨key, value⟩ := option
        have hused : current.settled.entries.any (·.key = String.ofList key) =
            current.entries.any (·.key = String.ofList key) := List.any_reverse
        have hset := @setSection_catalogOf rest current { current with
          entries := ⟨String.ofList key, String.ofList value⟩ :: current.entries } rfl
        have hlength : current.settled.entries.length = current.entries.length :=
          List.length_reverse
        simp only [Section.settled, List.reverse_cons] at hset
        simp only [Reader.ofDraft, sectionAt_catalogOf, bind, Except.bind, hused, hlength]
        split_ifs
        · rfl
        · simp only [Section.settled, hset]
          rfl

/-- Reading a line in place. No access by position fails, since an option that may be continued is
there. -/
theorem ofDraft_addLine {d : Draft} (hd : d.Sound) (line : Line) :
    (Reader.ofDraft d).addLine line =
      ((d.addLine line).map Reader.ofDraft).mapError .fault := by
  cases line with
  | comment => rfl
  | blank =>
    obtain ⟨sections, _ | o⟩ := d
    · rfl
    · obtain ⟨name, e, entries, rest, rfl⟩ := hd.opened rfl
      rfl
  | content indent text =>
    obtain ⟨sections, _ | o⟩ := d
    · exact ofDraft_start _ _ _
    · obtain ⟨name, e, entries, rest, rfl⟩ := hd.opened rfl
      by_cases hdeeper : o.indent < indent
      · simp only [Reader.addLine, Draft.addLine, Reader.ofDraft, if_pos hdeeper, extend_catalogOf]
        rfl
      · have hstart := ofDraft_start ⟨⟨name, e :: entries⟩ :: rest, some o⟩ indent text
        simp only [Reader.addLine, Draft.addLine, if_neg hdeeper] at hstart ⊢
        rw [← hstart]
        simp [Reader.ofDraft, hdeeper]

/-- Reading lines in place. -/
theorem ofDraft_addLines {d : Draft} (hd : d.Sound) (number : ℕ) (lines : List Line) :
    (Reader.ofDraft d).addLines number lines =
      ((d.addLines number lines).map Reader.ofDraft).mapError fun e =>
        (e.line, .fault e.fault) := by
  induction lines generalizing d number with
  | nil => rfl
  | cons line lines ih =>
    rw [Reader.addLines, ofDraft_addLine hd, Draft.addLines]
    cases hline : d.addLine line with
    | error fault => rfl
    | ok next => exact ih (hd.addLine hline) (number + 1)

/-! ### Positions and names -/

/-- The index and the sections of a catalog are in step, and names and keys are told apart. -/
structure Catalog.Consistent (c : Catalog) : Prop where
  names_ne_empty : ∀ s ∈ c.sections, s.name ≠ ""
  names_nodup : (c.sections.map (·.name)).Nodup
  index_iff : ∀ name i, c.index.lookup name = some i ↔
    ∃ s, c.sections[i]? = some s ∧ s.name = name
  keys_nodup : ∀ s ∈ c.sections, (s.entries.map (·.key)).Nodup

/-- The positions that a reader remembers are those of a section and an option. -/
structure Reader.InBounds (r : Reader) : Prop where
  currentSection : ∀ i ∈ r.currentSection, i < r.catalog.sections.length
  currentOption : ∀ cursor ∈ r.currentOption, ∃ s,
    r.catalog.sections[cursor.sectionAt]? = some s ∧ cursor.entryAt < s.entries.length

theorem getElem?_concat_eq_some_iff {α : Type} {xs : List α} {x y : α} {i : ℕ} :
    (xs ++ [x])[i]? = some y ↔ xs[i]? = some y ∨ i = xs.length ∧ x = y := by
  rcases Nat.lt_trichotomy i xs.length with h | rfl | h
  · rw [List.getElem?_append_left h]
    exact ⟨.inl, fun hor => hor.resolve_right fun hand => absurd hand.1 (Nat.ne_of_lt h)⟩
  · simp
  · rw [List.getElem?_eq_none (by rwa [List.length_append]), List.getElem?_eq_none (Nat.le_of_lt h)]
    simp [Nat.ne_of_gt h]

theorem lookup_indexOf_iff {sections : List Section} (hnodup : (sections.map (·.name)).Nodup)
    {name : String} {i : ℕ} : (indexOf sections).lookup name = some i ↔
      ∃ s, (sections.reverse.map Section.settled)[i]? = some s ∧ s.name = name := by
  induction sections with
  | nil => simp [indexOf]
  | cons s rest ih =>
    obtain ⟨hnew, hnodup⟩ := List.nodup_cons.mp hnodup
    have ih := ih hnodup
    simp only [List.reverse_cons, List.map_append, List.map_singleton,
      getElem?_concat_eq_some_iff, List.length_map, List.length_reverse]
    rw [indexOf, List.lookup_cons]
    by_cases hname : name = s.name
    · subst hname
      rw [beq_self_eq_true]
      constructor
      · rintro ⟨⟩
        exact ⟨s.settled, .inr ⟨rfl, rfl⟩, rfl⟩
      · rintro ⟨s', hs' | ⟨rfl, -⟩, hname⟩
        · obtain ⟨s'', hs'', rfl⟩ := List.mem_map.mp (List.mem_of_getElem? hs')
          exact absurd (List.mem_map.mpr ⟨s'', List.mem_reverse.mp hs'', hname⟩) hnew
        · rfl
    · rw [beq_eq_false_iff_ne.mpr hname]
      dsimp only
      rw [ih]
      refine exists_congr fun s' => and_congr_left fun hs' => ⟨.inl, fun hor => ?_⟩
      refine hor.resolve_right ?_
      rintro ⟨-, rfl⟩
      exact hname hs'.symm

theorem Draft.Sound.consistent {d : Draft} (hd : d.Sound) :
    (catalogOf d.sections).Consistent := by
  have hnames : (catalogOf d.sections).sections.map (·.name) =
      (d.sections.map (·.name)).reverse := by
    simp [catalogOf, Section.settled, Function.comp_def]
  have hmem : ∀ s ∈ (catalogOf d.sections).sections, ∃ s' ∈ d.sections, s = s'.settled := by
    intro s hs
    obtain ⟨s', hs', rfl⟩ := List.mem_map.mp hs
    exact ⟨s', List.mem_reverse.mp hs', rfl⟩
  refine ⟨?_, hnames ▸ List.nodup_reverse.mpr hd.names_nodup,
    fun name i => lookup_indexOf_iff hd.names_nodup, ?_⟩
  · intro s hs
    obtain ⟨s', hs', rfl⟩ := hmem s hs
    exact hd.names_ne_empty s' hs'
  · intro s hs
    obtain ⟨s', hs', rfl⟩ := hmem s hs
    rw [Section.settled, List.map_reverse]
    exact List.nodup_reverse.mpr (hd.keys_nodup s' hs')

theorem inBounds_ofDraft (d : Draft) : (Reader.ofDraft d).InBounds := by
  obtain ⟨sections, openEntry⟩ := d
  constructor
  · intro i hi
    rw [Reader.ofDraft, length_sections_catalogOf]
    cases sections with
    | nil => cases hi
    | cons s rest =>
      obtain rfl := Option.some.inj hi
      exact Nat.lt_succ_self _
  · intro cursor hcursor
    obtain _ | o := openEntry
    · cases hcursor
    obtain _ | ⟨⟨name, _ | ⟨e, entries⟩⟩, rest⟩ := sections
    · cases hcursor
    · cases hcursor
    · obtain rfl := Option.some.inj hcursor
      exact ⟨Section.settled ⟨name, e :: entries⟩, by simp [Reader.ofDraft, catalogOf],
        by simp [Section.settled]⟩

/-- The index finds the section that a search by name finds, and the position that it gives is one
of the catalog's. -/
theorem Catalog.Consistent.entries?_eq {c : Catalog} (h : c.Consistent) (name : String) :
    c.entries? name = .ok ((Document.mk c.sections).entries? name) := by
  rw [Catalog.entries?]
  cases hlookup : c.index.lookup name with
  | some i =>
    obtain ⟨s, hs, rfl⟩ := (h.index_iff name i).mp hlookup
    have hentries := Document.entries?_of_mem (d := ⟨c.sections⟩) h.names_nodup
      (List.mem_of_getElem? hs)
    rw [hentries]
    simp [Catalog.sectionAt, hs, Except.map]
  | none =>
    have hnone : ∀ s ∈ c.sections, s.name ≠ name := fun s hs hname => by
      obtain ⟨i, hi⟩ := List.getElem?_of_mem hs
      rw [(h.index_iff name i).mpr ⟨s, hi, hname⟩] at hlookup
      cases hlookup
    rw [@Document.entries?_eq_none ⟨c.sections⟩ name hnone]

/-- A reader that has come to a line is that of the draft which has come there. -/
theorem exists_draft_of_addLines {lines : List Line} {r : Reader}
    (h : Reader.empty.addLines 1 lines = .ok r) :
    ∃ d : Draft, d.Sound ∧ Draft.empty.addLines 1 lines = .ok d ∧ r = Reader.ofDraft d := by
  have hdraft := ofDraft_addLines Draft.sound_empty 1 lines
  rw [show Reader.ofDraft Draft.empty = Reader.empty from rfl, h] at hdraft
  cases hlines : Draft.empty.addLines 1 lines with
  | error e =>
    rw [hlines] at hdraft
    cases hdraft
  | ok d =>
    rw [hlines] at hdraft
    exact ⟨d, Draft.sound_empty.addLines hlines, rfl, Except.ok.inj hdraft⟩

/-! ### Both ways to look up -/

/-- What looking up by key and listing have to say about a document. A section that is absent has no
options to list, but an option of its is looked up among the defaults. -/
structure Document.LookupsAgree (d : Document) : Prop where
  entries_iff : ∀ name own, d.entries? name = some own ↔ ⟨name, own⟩ ∈ d.sections
  present : ∀ name own, ⟨name, own⟩ ∈ d.sections → ∃ items, d.items? name = some items ∧
    items = own ++ ((d.entries? defaultSection).getD []).filter (·.key ∉ own.map (·.key)) ∧
    (items.map (·.key)).Nodup ∧ ∀ key value, d.get? name key = some value ↔ ⟨key, value⟩ ∈ items
  absent : ∀ name, (∀ own, ⟨name, own⟩ ∉ d.sections) → d.items? name = none ∧
    ∀ key value, d.get? name key = some value ↔
      ∃ own, ⟨defaultSection, own⟩ ∈ d.sections ∧ ⟨key, value⟩ ∈ own

theorem lookupsAgree_of_nodup {d : Document} (hnames : (d.sections.map (·.name)).Nodup)
    (hkeys : ∀ s ∈ d.sections, (s.entries.map (·.key)).Nodup) : d.LookupsAgree := by
  have hentries : ∀ name own, d.entries? name = some own ↔ ⟨name, own⟩ ∈ d.sections :=
    fun name own => Document.entries?_eq_some_iff hnames
  have hdefaults : (d.defaults.map (·.key)).Nodup := by
    rw [Document.defaults]
    cases hdefault : d.entries? Document.defaultSection with
    | none => exact List.nodup_nil
    | some own => exact hkeys _ ((hentries _ _).mp hdefault)
  refine ⟨hentries, fun name own hmem => ?_, fun name habsent => ?_⟩
  · have hown := (hentries name own).mpr hmem
    have hownKeys := hkeys _ hmem
    exact ⟨_, Document.items?_eq hown, rfl, Document.nodup_items hdefaults hownKeys,
      fun key value => Document.get?_eq_some_iff hdefaults hownKeys hown⟩
  · have hnone : d.entries? name = none :=
      Option.eq_none_iff_forall_ne_some.mpr fun own hown => habsent own ((hentries _ _).mp hown)
    refine ⟨by rw [Document.items?, hnone]; rfl, fun key value => ?_⟩
    rw [Document.get?, hnone]
    dsimp only [Option.bind_none]
    rw [Option.bind_eq_some_iff]
    refine exists_congr fun own => ?_
    rw [hentries]
    exact and_congr_right fun hmem => Document.lookup?_eq_some_iff (hkeys _ hmem)

/-- **The catalog is in step.** Whatever lines are read in place, the positions that are remembered
between two of them are those of a section and an option, and the index is that of the sections.
Reading stops at the same faults as reading by name, and never because a position has nothing at it.
In the document that is read, looking an option up by its key and listing the options of its section
come to the same. -/
theorem read_consistent (content : String) :
    (∀ lines r, Reader.empty.addLines 1 lines = .ok r → r.InBounds ∧ r.catalog.Consistent) ∧
    (∀ e, Document.read content = .error e →
      Catalog.read content = .error (e.line, .fault e.fault)) ∧
    ∀ d, Document.read content = .ok d →
      ∃ c, Catalog.read content = .ok c ∧ c.sections = d.sections ∧ c.Consistent ∧
        (∀ name, c.entries? name = .ok (d.entries? name)) ∧ d.LookupsAgree := by
  have hread := ofDraft_addLines Draft.sound_empty 1 ((Text.lines content.toList).map Line.ofText)
  refine ⟨fun lines r h => ?_, fun e he => ?_, fun d hd => ?_⟩
  · obtain ⟨d, hd, -, rfl⟩ := exists_draft_of_addLines h
    exact ⟨inBounds_ofDraft d, hd.consistent⟩
  · rw [Document.read, Document.ofLines] at he
    rw [Catalog.read, show Reader.empty = Reader.ofDraft Draft.empty from rfl, hread]
    cases hlines : Draft.empty.addLines 1 ((Text.lines content.toList).map Line.ofText) with
    | error e' =>
      rw [hlines] at he
      obtain rfl := Except.error.inj he
      rfl
    | ok d =>
      rw [hlines] at he
      cases he
  · rw [Document.read, Document.ofLines] at hd
    cases hlines : Draft.empty.addLines 1 ((Text.lines content.toList).map Line.ofText) with
    | error e =>
      rw [hlines] at hd
      cases hd
    | ok draft =>
      rw [hlines] at hd hread
      obtain rfl := Except.ok.inj hd
      have hconsistent := (Draft.sound_empty.addLines hlines).consistent
      refine ⟨catalogOf draft.sections, ?_, rfl, hconsistent, hconsistent.entries?_eq,
        lookupsAgree_of_nodup hconsistent.names_nodup hconsistent.keys_nodup⟩
      rw [Catalog.read, show Reader.empty = Reader.ofDraft Draft.empty from rfl, hread]
      rfl

end Descriptor.Ini
