import Descriptor.Proofs.Record.Groups
import Descriptor.Proofs.Script.Forwarding

/-!
# Where the texts of a record come from

Every text of a record stands in the script as a literal of its own: in the registering call, or in
a value that a statement visible to the call assigns. No text is put together from others, and none
is a name. The way from a field to its literal takes up to three hops, through a whole mapping, the
name of a list and the name of a group's list; each hop ends in the call or in an assigned value
again.

## Main definitions

* `Part` : the expressions that an expression is made up of, at any depth.
* `Contains` : the statements of a script, at any depth.
* `CallSite.Holds` : an expression in a call or in a value assigned in its visible statements.
* `Record.Mentions` : the texts of a record.

## Main results

* `CallSite.holds_of_value?`, `CallSite.Holds.resolve?` : the hops from a field to its value.
* `exists_contains_of_findCallSite` : a call and its visible statements stand in the script.
* `recordOf_mentions_literals` : the texts of a record are literals of the script.
-/

namespace Descriptor

/-- The texts of a record: those of its fields, and the names and requirements of its groups. -/
inductive Record.Mentions (r : Record) (text : String) : Prop
  | name (h : r.name = some text)
  | version (h : r.version = some text)
  | pythonRequires (h : r.pythonRequires = some text)
  | requirement (h : text ∈ r.installRequires)
  | groupName {g : Group} (hg : g ∈ r.extrasRequire.entries) (h : g.1 = text)
  | groupRequirement {g : Group} (hg : g ∈ r.extrasRequire.entries) (h : text ∈ g.2)

theorem Record.not_mentions_unknown {text : String} : ¬Record.unknown.Mentions text := by
  rintro (h | h | h | h | ⟨h, -⟩ | ⟨h, -⟩)
  all_goals simp only [Record.unknown, Groups.empty, reduceCtorEq, List.not_mem_nil] at h

namespace Script

/-! ### Parts of expressions and of scripts -/

/-- The expressions that an expression is made up of, itself included. -/
inductive Part (part : Expr) : Expr → Prop
  | self : Part part part
  | object {value : Expr} (attr : String) (h : Part part value) : Part part (.attribute value attr)
  | listed {elements : List Expr} {e : Expr} (hmem : e ∈ elements) (h : Part part e) :
      Part part (.list elements)
  | tupled {elements : List Expr} {e : Expr} (hmem : e ∈ elements) (h : Part part e) :
      Part part (.tuple elements)
  | key {entries : List Entry} {k value : Expr} (hmem : .pair k value ∈ entries) (h : Part part k) :
      Part part (.dict entries)
  | entry {entries : List Entry} {k value : Expr} (hmem : .pair k value ∈ entries)
      (h : Part part value) : Part part (.dict entries)
  | splat {entries : List Entry} {value : Expr} (hmem : .splat value ∈ entries)
      (h : Part part value) : Part part (.dict entries)
  | callee {func : Expr} (args : List Expr) (keywords : List Keyword) (h : Part part func) :
      Part part (.call func args keywords)
  | argument {args : List Expr} {e : Expr} (func : Expr) (keywords : List Keyword)
      (hmem : e ∈ args) (h : Part part e) : Part part (.call func args keywords)
  | keyword {keywords : List Keyword} {id : String} {value : Expr} (func : Expr) (args : List Expr)
      (hmem : .named id value ∈ keywords) (h : Part part value) :
      Part part (.call func args keywords)
  | bundle {keywords : List Keyword} {value : Expr} (func : Expr) (args : List Expr)
      (hmem : .bundle value ∈ keywords) (h : Part part value) : Part part (.call func args keywords)
  | left {left : Expr} (ops : List CompareOp) (comparators : List Expr) (h : Part part left) :
      Part part (.compare left ops comparators)
  | comparator {comparators : List Expr} {e : Expr} (left : Expr) (ops : List CompareOp)
      (hmem : e ∈ comparators) (h : Part part e) : Part part (.compare left ops comparators)

theorem Part.trans {part whole outer : Expr} (h : Part part whole) (houter : Part whole outer) :
    Part part outer := by
  induction houter with
  | self => exact h
  | object attr _ ih => exact .object attr ih
  | listed hmem _ ih => exact .listed hmem ih
  | tupled hmem _ ih => exact .tupled hmem ih
  | key hmem _ ih => exact .key hmem ih
  | entry hmem _ ih => exact .entry hmem ih
  | splat hmem _ ih => exact .splat hmem ih
  | callee args keywords _ ih => exact .callee args keywords ih
  | argument func keywords hmem _ ih => exact .argument func keywords hmem ih
  | keyword func args hmem _ ih => exact .keyword func args hmem ih
  | bundle func args hmem _ ih => exact .bundle func args hmem ih
  | left ops comparators _ ih => exact .left ops comparators ih
  | comparator left ops hmem _ ih => exact .comparator left ops hmem ih

/-- The statements of a script, those of its conditions and functions included. -/
inductive Contains : List Stmt → Stmt → Prop
  | self {block : List Stmt} {stmt : Stmt} (hmem : stmt ∈ block) : Contains block stmt
  | branch {block body : List Stmt} {test : Expr} {stmt : Stmt} (hmem : .branch test body ∈ block)
      (h : Contains body stmt) : Contains block stmt
  | function {block body : List Stmt} {name : String} {stmt : Stmt}
      (hmem : .function name body ∈ block) (h : Contains body stmt) : Contains block stmt

/-! ### From a field to its value -/

namespace CallSite

/-- The expression that a call site's call is. -/
def callExpr (site : CallSite) : Expr := .call site.call.func site.call.args site.call.keywords

/-- An expression that a call site can take a text from: one in the call itself, or one in the value
of an assignment that the call sees. -/
inductive Holds (site : CallSite) (e : Expr) : Prop
  | call (h : Part e site.callExpr)
  | assigned {target : String} {value : Expr} (hmem : .assign target value ∈ site.body)
      (h : Part e value)

variable {site : CallSite} {e : Expr}

theorem Holds.part {part : Expr} (h : site.Holds e) (hpart : Part part e) : site.Holds part := by
  cases h with
  | call h => exact .call (hpart.trans h)
  | assigned hmem h => exact .assigned hmem (hpart.trans h)

/-- The value of a name is held, as the value of an assignment. -/
theorem holds_of_lookup? {id : String} (h : lookup? site.body id = some e) : site.Holds e := by
  obtain ⟨before, after, hbody, -⟩ := lookup?_eq_some_iff.mp h
  have hmem : .assign id e ∈ site.body := hbody ▸ List.mem_append_right before List.mem_cons_self
  exact .assigned hmem .self

theorem Holds.resolve? {value : Expr} (h : site.Holds e) (hvalue : site.resolve? e = some value) :
    site.Holds value := by
  unfold CallSite.resolve? at hvalue
  split at hvalue
  · exact holds_of_lookup? hvalue
  · exact Option.some.inj hvalue ▸ h

end CallSite

theorem part_of_mappingValue? {mapping value : Expr} {key : String}
    (h : mappingValue? mapping key = some value) : Part value mapping := by
  unfold mappingValue? at h
  split at h
  · next entries =>
    obtain ⟨entry, hmem, hvalue⟩ := List.exists_of_findSome?_eq_some h
    cases entry with
    | pair k given =>
      obtain ⟨-, hgiven⟩ := Option.ite_none_right_eq_some.mp hvalue
      exact .entry hmem (Option.some.inj hgiven ▸ .self)
    | splat given => simp only [reduceCtorEq] at hvalue
  · next func args keywords =>
    obtain ⟨-, hvalue⟩ := Option.ite_none_right_eq_some.mp h
    exact .keyword func args (mem_of_keywordValue?_eq_some hvalue) .self
  · simp only [reduceCtorEq] at h

theorem part_of_elements? {e element : Expr} {elements : List Expr}
    (h : e.elements? = some elements) (hmem : element ∈ elements) : Part element e := by
  unfold Expr.elements? at h
  split at h
  · obtain rfl := Option.some.inj h
    exact .listed hmem .self
  · obtain rfl := Option.some.inj h
    exact .tupled hmem .self
  · simp only [reduceCtorEq] at h

theorem eq_text_of_text? {e : Expr} {text : String} (h : e.text? = some text) : e = .text text := by
  unfold Expr.text? at h
  split at h
  · exact congrArg Expr.text (Option.some.inj h)
  · simp only [reduceCtorEq] at h

namespace CallSite

variable {site : CallSite} {keyword text : String}

/-- The value under a keyword is held: by the call itself, or by the mapping that it passes. -/
theorem holds_of_value? {value : Expr} (h : site.value? keyword = some value) :
    site.Holds value := by
  unfold value? at h
  split at h
  · next given hgiven =>
    obtain rfl := Option.some.inj h
    exact .call (.keyword _ _ (mem_of_keywordValue?_eq_some hgiven) .self)
  · simp only [bind, Option.bind_eq_some_iff] at h
    obtain ⟨mapping, -, id, -, assigned, hassigned, hvalue⟩ := h
    exact (holds_of_lookup? hassigned).part (part_of_mappingValue? hvalue)

/-- What the value under a keyword resolves to is held. -/
theorem holds_of_resolved {value : Expr}
    (h : (site.value? keyword).bind site.resolve? = some value) : site.Holds value := by
  obtain ⟨given, hgiven, hvalue⟩ := Option.bind_eq_some_iff.mp h
  exact (holds_of_value? hgiven).resolve? hvalue

theorem holds_of_text? (h : site.text? keyword = some text) : site.Holds (.text text) := by
  simp only [text?, bind, Option.bind_eq_some_iff] at h
  obtain ⟨given, hgiven, value, hvalue, htext⟩ := h
  exact eq_text_of_text? htext ▸ (holds_of_value? hgiven).resolve? hvalue

/-- The literals among the elements that a held expression, or the value of a held name, lists. -/
theorem Holds.of_mem_literalsOf {e : Expr} {elements : List Expr} (h : site.Holds e)
    (helements : site.elements? e = some elements) (hmem : text ∈ literalsOf elements) :
    site.Holds (.text text) := by
  simp only [elements?, bind, Option.bind_eq_some_iff] at helements
  obtain ⟨value, hvalue, helements⟩ := helements
  obtain ⟨element, helement, htext⟩ := List.mem_filterMap.mp hmem
  obtain rfl := eq_text_of_text? htext
  exact (h.resolve? hvalue).part (part_of_elements? helements helement)

theorem holds_of_mem_texts (h : text ∈ site.texts keyword) : site.Holds (.text text) := by
  unfold texts at h
  cases hlist : (site.value? keyword).bind site.elements? with
  | none => simp only [hlist, Option.elim_none, List.not_mem_nil] at h
  | some elements =>
    obtain ⟨value, hvalue, helements⟩ := Option.bind_eq_some_iff.mp hlist
    rw [hlist, Option.elim_some] at h
    exact (holds_of_value? hvalue).of_mem_literalsOf helements h

/-- A group is made from an entry of a mapping display that is held. -/
theorem exists_group?_of_mem_groups {g : Group} (h : g ∈ (site.groups keyword).entries) :
    ∃ entries entry, site.Holds (.dict entries) ∧ entry ∈ entries ∧ site.group? entry = some g := by
  unfold groups at h
  split at h
  · next entries hentries =>
    obtain ⟨entry, hmem, hentry⟩ := List.mem_filterMap.mp (Groups.mem_of_mem_ofList h)
    exact ⟨entries, entry, holds_of_resolved hentries, hmem, hentry⟩
  · exact absurd h List.not_mem_nil

theorem holds_of_mem_groups {g : Group} (h : g ∈ (site.groups keyword).entries) :
    site.Holds (.text g.1) ∧ ∀ requirement ∈ g.2, site.Holds (.text requirement) := by
  obtain ⟨entries, entry, hentries, hmem, hgroup⟩ := exists_group?_of_mem_groups h
  unfold group? at hgroup
  split at hgroup
  · next name value =>
    obtain ⟨elements, helements, rfl⟩ := Option.map_eq_some_iff.mp hgroup
    have hvalue : site.Holds value := hentries.part (.entry hmem .self)
    exact ⟨hentries.part (.key hmem .self), fun requirement hrequirement =>
      hvalue.of_mem_literalsOf helements hrequirement⟩
  · simp only [reduceCtorEq] at hgroup

/-- Every text of a call's record is a literal that the call site holds. -/
theorem holds_of_mentions (h : site.record.Mentions text) : site.Holds (.text text) := by
  cases h with
  | name h => exact holds_of_text? h
  | version h => exact holds_of_text? h
  | pythonRequires h => exact holds_of_text? h
  | requirement h => exact holds_of_mem_texts h
  | groupName hg h => exact h ▸ (holds_of_mem_groups hg).1
  | groupRequirement hg h => exact (holds_of_mem_groups hg).2 _ h

end CallSite

/-! ### From a call site to the script -/

/-- The statements of the blocks of a chain stand in the script, those of the innermost included. -/
theorem Chain.contains {script inner : List Stmt} {levels : List Level}
    (h : Chain script levels inner) :
    (∀ stmt ∈ inner, Contains script stmt) ∧
      ∀ level ∈ levels, ∀ stmt ∈ level.block, Contains script stmt := by
  induction h with
  | nil block => exact ⟨fun stmt hmem => .self hmem, fun level hmem => absurd hmem List.not_mem_nil⟩
  | @guard block body inner levels hbody _ ih =>
    have hbranch {stmt : Stmt} (h : Contains body stmt) : Contains block stmt := by
      obtain ⟨before, -, body⟩ := hbody
      exact .branch (List.mem_append_right before List.mem_cons_self) h
    refine ⟨fun stmt hmem => hbranch (ih.1 stmt hmem), fun level hlevel stmt hmem => ?_⟩
    rcases List.mem_append.mp hlevel with hlevel | hlevel
    · exact hbranch (ih.2 level hlevel stmt hmem)
    · obtain rfl := List.mem_singleton.mp hlevel
      exact .self hmem
  | @function block body inner name levels hfunction _ ih =>
    refine ⟨fun stmt hmem => .function hfunction (ih.1 stmt hmem), fun level hlevel stmt hmem => ?_⟩
    rcases List.mem_append.mp hlevel with hlevel | hlevel
    · exact .function hfunction (ih.2 level hlevel stmt hmem)
    · obtain rfl := List.mem_singleton.mp hlevel
      exact .self hmem

theorem mem_of_mem_visible {level : Level} {stmt : Stmt} (h : stmt ∈ level.visible) :
    stmt ∈ level.block := by
  obtain ⟨block, exit⟩ := level
  cases exit with
  | guard => exact h
  | function => exact (List.mem_filter.mp h).1

/-- The call of a call site is a statement of the script, and so is every statement it sees. -/
theorem contains_of_findCallSite {script : List Stmt} {site : CallSite}
    (h : findCallSite script = some site) :
    (∃ stmt, Contains script stmt ∧ Registers stmt site.call) ∧
      ∀ stmt ∈ site.body, Contains script stmt := by
  obtain ⟨levels, inner, hchain, ⟨before, stmt, after, rfl, -, hregisters⟩, hbody⟩ :=
    findCallSite_chain h
  have hcontains := hchain.contains
  refine ⟨⟨stmt, hcontains.1 stmt (List.mem_append_right before List.mem_cons_self), hregisters⟩,
    fun stmt hmem => ?_⟩
  rw [hbody] at hmem
  rcases List.mem_append.mp hmem with hmem | hmem
  · exact hcontains.1 stmt hmem
  · obtain ⟨level, hlevel, hstmt⟩ := List.mem_flatMap.mp hmem
    exact hcontains.2 level hlevel stmt (mem_of_mem_visible hstmt)

/-- **The texts of a record are literals of the script.** Every text of the record of a script is
the payload of a literal in a statement of the script: in the registering call that the search
finds, or in the value of a simple assignment that the call sees. -/
theorem recordOf_mentions_literals {script : List Stmt} {text : String}
    (h : (recordOf script).Mentions text) :
    ∃ site, findCallSite script = some site ∧ ∃ stmt e, Contains script stmt ∧
      (stmt = .expr e ∧ Registers stmt site.call ∨
        (∃ target, stmt = .assign target e) ∧ stmt ∈ site.body) ∧
      Part (.text text) e := by
  unfold recordOf at h
  cases hsite : findCallSite script with
  | none =>
    rw [hsite, Option.map_none, Option.getD_none] at h
    exact absurd h Record.not_mentions_unknown
  | some site =>
    rw [hsite, Option.map_some, Option.getD_some] at h
    obtain ⟨⟨stmt, hstmt, hregisters⟩, hvisible⟩ := contains_of_findCallSite hsite
    refine ⟨site, rfl, ?_⟩
    cases CallSite.holds_of_mentions h with
    | call hpart =>
      refine ⟨stmt, site.callExpr, hstmt, .inl ⟨?_, hregisters⟩, hpart⟩
      generalize hcall : site.call = call at hregisters
      obtain ⟨-, args, keywords⟩ := hregisters
      rw [CallSite.callExpr, hcall]
    | @assigned target value hmem hpart =>
      exact ⟨_, value, hvisible _ hmem, .inr ⟨⟨target, rfl⟩, hmem⟩, hpart⟩

private def forwardedSetup : Stmt := .expr (.call (.name "setup") [] [.bundle (.name "EXTRA")])

/-- A script whose requirement `pytest` is three hops away from its call: behind a whole mapping, in
a group of it, under the name of a list. -/
def forwardingScript : List Stmt :=
  [.assign "TESTS" (.list [.name "TOOL", .text "pytest"]),
    .assign "EXTRA" (.call (.name "dict") []
      [.named "extras_require" (.dict [.pair (.text "test") (.name "TESTS")])]),
    forwardedSetup]

private theorem recordOf_forwardingScript :
    recordOf forwardingScript = { Record.unknown with
      extrasRequire := Groups.empty.insert "test" ["pytest"] } := by
  have hsite : findCallSite forwardingScript =
      some ⟨⟨.name "setup", [], [.bundle (.name "EXTRA")]⟩, forwardingScript⟩ := by
    rw [findCallSite]
    rfl
  rw [recordOf, hsite]
  decide

theorem recordOf_mentions_literals_forwardingScript :
    (recordOf forwardingScript).Mentions "pytest" ∧
      ∃ site, findCallSite forwardingScript = some site ∧
        ∃ stmt e, Contains forwardingScript stmt ∧
          (stmt = .expr e ∧ Registers stmt site.call ∨
            (∃ target, stmt = .assign target e) ∧ stmt ∈ site.body) ∧
          Part (.text "pytest") e := by
  have h : (recordOf forwardingScript).Mentions "pytest" := by
    rw [recordOf_forwardingScript]
    exact .groupRequirement (g := ("test", ["pytest"])) List.mem_cons_self List.mem_cons_self
  exact ⟨h, recordOf_mentions_literals h⟩

end Script

end Descriptor
