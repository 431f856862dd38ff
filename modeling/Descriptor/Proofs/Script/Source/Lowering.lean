import Descriptor.Proofs.Script.Source.Outline
import Descriptor.Proofs.Script.Spelling
import Descriptor.Script.Lowering
import Mathlib.Data.List.Forall2

/-!
# What the trees of printed source stand for

A node with the outline of an expression stands for that expression, and a node with the outline of
a statement for that statement, in whatever role it is: the parentheses that were printed leave no
trace, the entries and arguments are told apart by the kinds of their nodes, and the tokens between
two operands spell the operator that was printed.

## Main definitions

* `Node.Fits` : a node has an outline.
* `Expr.IsRecovered`, `Stmt.IsRecovered` : what has the outline of an expression or a statement
  stands for it.

## Main results

* `Printable.isRecovered` : every expression that can be printed is recovered from its outline.
* `PrintableStmt.isRecovered` : so is every statement.
-/

namespace Descriptor.Script

namespace Node

/-! ### Nodes with an outline -/

variable {n : Node}

/-- A node has an outline. -/
abbrev Fits (n : Node) (o : Outline) : Prop := n.fits o = true

theorem fitAll_iff {ns : List Node} {os : List Outline} :
    fitAll ns os = true ↔ List.Forall₂ Fits ns os := by
  induction ns generalizing os with
  | nil => cases os <;> simp [fitAll]
  | cons n ns ih => cases os <;> simp [fitAll, ih, Fits]

theorem fits_token_iff {text : String} :
    n.Fits (.token text) ↔ n.isSound = true ∧ n.isNamed = false ∧ n.text = text.toList ∧
      n.children = [] ∧ (n.kind = text ∨ (CompareOp.ofSpelling? n.kind).isSome = true) ∧
        (n.role? = none ∨ n.role? = some "operators") := by
  simp [Fits, fits, and_assoc]

theorem fits_leaf_iff {role : Option String} {kind : String} {text : List Char} :
    n.Fits (.leaf role kind text) ↔ n.isSound = true ∧ n.isNamed = true ∧ n.kind = kind ∧
      n.role? = role ∧ n.text = text ∧ ∀ m ∈ n.descendants, m.complaint? = none := by
  simp [Fits, fits, and_assoc]

theorem fits_branch_iff {role : Option String} {kind : String} {parts : List Outline} :
    n.Fits (.branch role kind parts) ↔ n.isSound = true ∧ n.isNamed = true ∧ n.kind = kind ∧
      n.role? = role ∧ List.Forall₂ Fits n.children parts := by
  simp [Fits, fits, and_assoc, fitAll_iff]

theorem Fits.isSound {o : Outline} (h : n.Fits o) : n.isSound = true := by
  cases o with
  | token => exact (fits_token_iff.mp h).1
  | leaf => exact (fits_leaf_iff.mp h).1
  | branch => exact (fits_branch_iff.mp h).1

theorem Fits.isNamed {o : Outline} (h : n.Fits o) : n.isNamed = o.isNamed := by
  cases o with
  | token => exact (fits_token_iff.mp h).2.1
  | leaf => exact (fits_leaf_iff.mp h).2.1
  | branch => exact (fits_branch_iff.mp h).2.1

theorem Fits.isComment {o : Outline} (h : n.Fits o) : n.isComment = false := by
  simpa [isSound] using (Bool.and_eq_true_iff.mp h.isSound).2

theorem exists_of_mem {α : Type} {R : Node → α → Prop} {ns : List Node} {as : List α}
    (h : List.Forall₂ R ns as) (hn : n ∈ ns) : ∃ a, R n a := by
  induction h with
  | nil => cases hn
  | cons hfits _ ih =>
    rcases List.mem_cons.mp hn with rfl | hn
    · exact ⟨_, hfits⟩
    · exact ih hn

/-- Nothing is wrong in the tree of a node with an outline. -/
theorem Fits.complaint?_eq_none {o : Outline} (h : n.Fits o) :
    ∀ m ∈ n.preorder, m.complaint? = none := by
  induction n using Node.induction generalizing o with
  | step n ih =>
    intro m hm
    rcases mem_preorder_iff.mp hm with rfl | hm
    · exact Option.isNone_iff_eq_none.mp (Bool.and_eq_true_iff.mp h.isSound).1
    · cases o with
      | token =>
        have hchildren := (fits_token_iff.mp h).2.2.2.1
        simp [descendants, hchildren] at hm
      | leaf => exact (fits_leaf_iff.mp h).2.2.2.2.2 m hm
      | branch =>
        obtain ⟨c, hc, hm⟩ := mem_descendants.mp hm
        obtain ⟨o, ho⟩ := exists_of_mem (fits_branch_iff.mp h).2.2.2.2 hc
        exact ih c hc ho m hm

/-! ### The parts of a node -/

/-- The named children of a node have the outlines of the named parts. -/
theorem forall₂_namedChildren {parts : List Outline} (h : List.Forall₂ Fits n.children parts) :
    List.Forall₂ Fits n.namedChildren (parts.filter Outline.isNamed) := by
  refine List.rel_filter (fun c o hco => ?_) h
  simp [hco.isNamed, hco.isComment]

/-- A node plays a role other than that of an operator as its outline does. -/
theorem Fits.role?_eq_some_iff {o : Outline} (h : n.Fits o) {role : String}
    (hrole : role ≠ "operators") : n.role? = some role ↔ o.role? = some role := by
  cases o with
  | token =>
    obtain ⟨-, -, -, -, -, hnone | hsome⟩ := fits_token_iff.mp h
    · simp [hnone, Outline.role?]
    · simp [hsome, Outline.role?, Ne.symm hrole]
  | leaf => rw [(fits_leaf_iff.mp h).2.2.2.1, Outline.role?]
  | branch => rw [(fits_branch_iff.mp h).2.2.2.1, Outline.role?]

/-- A part in a role is that of a child in the role. -/
theorem exists_field? (role : String) {parts : List Outline} {o : Outline}
    (hrole : role ≠ "operators") (h : List.Forall₂ Fits n.children parts)
    (ho : parts.find? (·.role? = some role) = some o) :
    ∃ c, n.field? role = some c ∧ c.Fits o := by
  unfold field?
  generalize n.children = ns at h
  induction h with
  | nil => cases ho
  | @cons c part cs parts hfits _ ih =>
    have hiff := hfits.role?_eq_some_iff hrole
    by_cases hpart : part.role? = some role
    · obtain rfl : part = o := by simpa [hpart] using ho
      exact ⟨c, by simp [hiff.mpr hpart], hfits⟩
    · obtain ⟨m, hm, hmo⟩ := ih (by simpa [hpart] using ho)
      exact ⟨m, by simpa [mt hiff.mp hpart] using hm, hmo⟩

/-- No child plays a role that no part has. -/
theorem field?_eq_none {parts : List Outline} {role : String} (hrole : role ≠ "operators")
    (h : List.Forall₂ Fits n.children parts) (hnone : ∀ o ∈ parts, o.role? ≠ some role) :
    n.field? role = none := by
  unfold field?
  generalize n.children = ns at h
  induction h with
  | nil => rfl
  | @cons c part cs parts hfits _ ih =>
    obtain ⟨hpart, hparts⟩ := List.forall_mem_cons.mp hnone
    rw [List.find?_cons_of_neg (by simpa using mt (hfits.role?_eq_some_iff hrole).mp hpart)]
    exact ih hparts

/-- The only part that is more than a token is that of the only child that means something. -/
theorem exists_namedChildren_eq {parts : List Outline} {o : Outline}
    (h : List.Forall₂ Fits n.children parts) (ho : parts.filter Outline.isNamed = [o]) :
    ∃ c, n.namedChildren = [c] ∧ c.Fits o := by
  have hnamed := forall₂_namedChildren h
  rw [ho] at hnamed
  obtain ⟨c, cs, hc, hcs, heq⟩ := List.forall₂_cons_right_iff.mp hnamed
  obtain rfl := List.forall₂_nil_right_iff.mp hcs
  exact ⟨c, heq, hc⟩

end Node

/-! ### Literals -/

theorem Escapes.spellsChar {c : Char} {escape : List Char} (h : Escapes c escape) :
    SpellsChar '\'' c escape := by
  cases h with
  | letter hmark => exact .letter hmark
  | code hmark hten hfits =>
    exact .code hmark (Text.length_hexDigits _ _ _) (Text.numeral_hexDigits hten hfits)

/-- The bodies of a text in single quotes are some of those that it can be spelled by. -/
theorem Spelled.spellsText {cs body : List Char} (h : Spelled cs body) :
    SpellsText '\'' cs body := by
  induction h with
  | nil => exact .nil
  | bare hbare _ ih => exact .char (.itself hbare.2.2.2 hbare.2.2.1) ih
  | escaped hescape _ ih => exact .char hescape.spellsChar ih

/-- The literal of a text decodes to the text. -/
theorem decodeLiteral_literal (q : Quoting) (s : String) :
    decodeLiteral (q.literal s) = some s.toList :=
  decodeLiteral_of_isLiteral
    (@IsLiteral.escaped _ [] _ '\'' false (by simp) (.inl rfl) (q.spelled s).spellsText)

/-! ### Expressions -/

variable {q : Quoting} {n : Node} {role : Option String}

/-- Whatever has the outline of an expression, in whatever role, stands for it. -/
def Expr.IsRecovered (q : Quoting) (e : Expr) : Prop :=
  ∀ (n : Node) (role : Option String), n.Fits ((e.outline q).as role) → n.toExpr = e

section Outline

variable (e : Expr)

theorem Expr.as_outline : (e.outline q).as none = e.outline q := by
  cases e <;> rw [Expr.outline] <;> rfl

@[simp]
theorem Expr.isNamed_outline : (e.outline q).isNamed = true := by
  cases e <;> rw [Expr.outline] <;> rfl

@[simp]
theorem Expr.role?_as_outline : ((e.outline q).as role).role? = role := by
  cases e <;> rw [Expr.outline] <;> rfl

theorem Expr.outlines_eq (es : List Expr) : Expr.outlines q es = es.map (Expr.outline q) := by
  induction es with
  | nil => rw [outlines, List.map_nil]
  | cons e es ih => rw [outlines, ih, List.map_cons]

theorem Expr.filter_isNamed_outlines (es : List Expr) :
    (outlines q es).filter Outline.isNamed = outlines q es := by
  simp [outlines_eq]

theorem Expr.filter_isNamed_entryOutlines (entries : List Entry) :
    (entryOutlines q entries).filter Outline.isNamed = entryOutlines q entries := by
  induction entries with
  | nil => rw [entryOutlines, List.filter_nil]
  | cons entry entries ih =>
    cases entry <;> rw [entryOutlines, List.filter_cons_of_pos (Outline.isNamed_branch ..), ih]

theorem Expr.filter_isNamed_keywordOutlines (keywords : List Keyword) :
    (keywordOutlines q keywords).filter Outline.isNamed = keywordOutlines q keywords := by
  induction keywords with
  | nil => rw [keywordOutlines, List.filter_nil]
  | cons keyword keywords ih =>
    cases keyword <;> rw [keywordOutlines, List.filter_cons_of_pos (Outline.isNamed_branch ..), ih]

/-- Commas are tokens. -/
theorem filter_isNamed_commaOutlines (os : List Outline) :
    (commaOutlines os).filter Outline.isNamed = os.filter Outline.isNamed := by
  rw [commaOutlines]
  induction os with
  | nil => rfl
  | cons o os ih =>
    cases os with
    | nil => rfl
    | cons p os => simp only [List.intersperse_cons_cons, List.filter_cons, ih]; simp

/-- The parts of a display that are more than tokens are what it displays. -/
theorem filter_isNamed_display {opening : String} {os closing : List Outline}
    (hos : os.filter Outline.isNamed = os) (hclosing : closing.filter Outline.isNamed = []) :
    (.token opening :: (commaOutlines os ++ closing)).filter Outline.isNamed = os := by
  rw [List.filter_cons_of_neg (by simp), List.filter_append, filter_isNamed_commaOutlines, hos,
    hclosing, List.append_nil]

end Outline

namespace Expr.IsRecovered

variable {e : Expr}

theorem toExpr_eq (he : e.IsRecovered q) (h : n.Fits (e.outline q)) : n.toExpr = e :=
  he n none (e.as_outline.symm ▸ h)

/-- Parentheses leave no trace. -/
theorem toExpr_enclosed (he : e.IsRecovered q) (role : Option String)
    (h : n.Fits ((e.outline q).enclosed.as role)) : n.toExpr = e := by
  obtain ⟨-, -, hkind, -, hparts⟩ := Node.fits_branch_iff.mp h
  obtain ⟨c, hc, hfits⟩ := Node.exists_namedChildren_eq (o := e.outline q) hparts (by simp)
  rw [Node.toExpr, hkind, Node.toSole, Node.toElements_eq, hc]
  exact he.toExpr_eq hfits

/-- What stands behind two stars is the expression in the parentheses. -/
theorem toSole_splat (he : e.IsRecovered q)
    (h : List.Forall₂ Node.Fits n.children [.token "**", (e.outline q).enclosed]) :
    n.toSole = e := by
  obtain ⟨c, hc, hfits⟩ := Node.exists_namedChildren_eq (o := (e.outline q).enclosed) h (by simp)
  rw [Node.toSole, Node.toElements_eq, hc]
  exact he.toExpr_enclosed none hfits

/-- The child in the role of an expression stands for it. -/
theorem toField_eq (he : e.IsRecovered q) (role : String) {parts : List Outline}
    (hrole : role ≠ "operators") (h : List.Forall₂ Node.Fits n.children parts)
    (hpart : parts.find? (·.role? = some role) = some ((e.outline q).as role)) :
    n.toField role = e := by
  obtain ⟨c, hc, hfits⟩ := Node.exists_field? role hrole h hpart
  rw [Node.toField_of_field? hc]
  exact he c role hfits

end Expr.IsRecovered

/-- Nodes with the outlines of expressions stand for them, one by one. -/
theorem Expr.map_toExpr_eq {ns : List Node} {es : List Expr}
    (hes : ∀ e ∈ es, e.IsRecovered q) (h : List.Forall₂ Node.Fits ns (outlines q es)) :
    ns.map Node.toExpr = es := by
  induction es generalizing ns with
  | nil =>
    rw [outlines] at h
    rw [List.forall₂_nil_right_iff.mp h, List.map_nil]
  | cons e es ih =>
    obtain ⟨he, hes⟩ := List.forall_mem_cons.mp hes
    rw [outlines] at h
    obtain ⟨c, cs, hc, hcs, rfl⟩ := List.forall₂_cons_right_iff.mp h
    rw [List.map_cons, he.toExpr_eq hc, ih hes hcs]

/-- The children of a display stand for its elements. -/
theorem Expr.toElements_eq {es : List Expr} (hes : ∀ e ∈ es, e.IsRecovered q)
    {parts : List Outline} (h : List.Forall₂ Node.Fits n.children parts)
    (hparts : parts.filter Outline.isNamed = outlines q es) : n.toElements = es := by
  rw [Node.toElements_eq]
  exact map_toExpr_eq hes (hparts ▸ Node.forall₂_namedChildren h)

/-! ### Entries and arguments -/

/-- The kinds of nodes that stand for no expression where they may be expected. -/
theorem Expr.kind_notMem (e : Expr) (role : Option String)
    (h : n.Fits ((e.outline q).as role)) :
    n.kind ∉ ["keyword_argument", "dictionary_splat", "assignment", "augmented_assignment"] := by
  have hkind : n.kind ∈ ["string", "identifier", "attribute", "list", "tuple", "dictionary", "call",
      "comparison_operator", "integer"] := by
    cases e with
    | text | name | other =>
      rw [outline] at h
      simp [(Node.fits_leaf_iff.mp h).2.2.1]
    | _ =>
      rw [outline] at h
      simp [(Node.fits_branch_iff.mp h).2.2.1]
  simp only [List.mem_cons, List.not_mem_nil, or_false] at hkind
  rcases hkind with hkind | hkind | hkind | hkind | hkind | hkind | hkind | hkind | hkind <;>
    rw [hkind] <;> decide

/-- Nodes with the outlines of entries stand for them, one by one. -/
theorem filterMap_toItem?_eq {ns : List Node} {entries : List Entry}
    (hkeys : ∀ k v, .pair k v ∈ entries → k.IsRecovered q)
    (hvalues : ∀ k v, .pair k v ∈ entries → v.IsRecovered q)
    (hsplats : ∀ v, .splat v ∈ entries → v.IsRecovered q)
    (h : List.Forall₂ Node.Fits ns (Expr.entryOutlines q entries)) :
    ns.filterMap Node.toItem? = entries := by
  induction entries generalizing ns with
  | nil =>
    rw [Expr.entryOutlines] at h
    rw [List.forall₂_nil_right_iff.mp h, List.filterMap_nil]
  | cons entry entries ih =>
    have htail {cs : List Node} (hcs : List.Forall₂ Node.Fits cs (Expr.entryOutlines q entries)) :
        cs.filterMap Node.toItem? = entries :=
      ih (fun k v hmem => hkeys k v (List.mem_cons_of_mem _ hmem))
        (fun k v hmem => hvalues k v (List.mem_cons_of_mem _ hmem))
        (fun v hmem => hsplats v (List.mem_cons_of_mem _ hmem)) hcs
    cases entry with
    | pair key value =>
      rw [Expr.entryOutlines] at h
      obtain ⟨c, cs, hc, hcs, rfl⟩ := List.forall₂_cons_right_iff.mp h
      obtain ⟨-, -, hkind, -, hparts⟩ := Node.fits_branch_iff.mp hc
      have hkey := (hkeys key value List.mem_cons_self).toField_eq "key" (by decide)
        hparts (by simp)
      have hvalue := (hvalues key value List.mem_cons_self).toField_eq "value" (by decide)
        hparts (by simp)
      have hitem : c.toItem? = some (.pair key value) := by
        simp [Node.toItem?, hkind, hkey, hvalue]
      rw [List.filterMap_cons_some hitem, htail hcs]
    | splat value =>
      rw [Expr.entryOutlines] at h
      obtain ⟨c, cs, hc, hcs, rfl⟩ := List.forall₂_cons_right_iff.mp h
      obtain ⟨-, -, hkind, -, hparts⟩ := Node.fits_branch_iff.mp hc
      have hvalue := (hsplats value List.mem_cons_self).toSole_splat hparts
      have hitem : c.toItem? = some (.splat value) := by
        simp [Node.toItem?, hkind, hvalue]
      rw [List.filterMap_cons_some hitem, htail hcs]

/-- Nodes with the outlines of expressions are arguments by position, and only that. -/
theorem filterMap_toArgument?_eq {ns : List Node} {es : List Expr}
    (hes : ∀ e ∈ es, e.IsRecovered q) (h : List.Forall₂ Node.Fits ns (Expr.outlines q es)) :
    ns.filterMap Node.toArgument? = es ∧ ns.filterMap Node.toKeyword? = [] := by
  have hkind (c : Node) (hc : c ∈ ns) :
      c.kind ≠ "keyword_argument" ∧ c.kind ≠ "dictionary_splat" := by
    rw [Expr.outlines_eq, List.forall₂_map_right_iff] at h
    obtain ⟨e, he⟩ := Node.exists_of_mem h hc
    have hmem := e.kind_notMem none (e.as_outline.symm ▸ he)
    simp only [List.mem_cons, not_or] at hmem
    exact ⟨hmem.1, hmem.2.1⟩
  constructor
  · rw [← Expr.map_toExpr_eq hes h, ← List.filterMap_eq_map]
    exact List.filterMap_congr fun c hc => Node.toArgument?_of_kind (hkind c hc).1 (hkind c hc).2
  · exact List.filterMap_eq_nil_iff.mpr fun c hc =>
      Node.toKeyword?_of_kind (hkind c hc).1 (hkind c hc).2

/-- Nodes with the outlines of keyword arguments stand for them, one by one, and for no argument by
position. -/
theorem filterMap_toKeyword?_eq {ns : List Node} {keywords : List Keyword}
    (hnamed : ∀ id v, .named id v ∈ keywords → v.IsRecovered q)
    (hbundles : ∀ v, .bundle v ∈ keywords → v.IsRecovered q)
    (h : List.Forall₂ Node.Fits ns (Expr.keywordOutlines q keywords)) :
    ns.filterMap Node.toArgument? = [] ∧ ns.filterMap Node.toKeyword? = keywords := by
  induction keywords generalizing ns with
  | nil =>
    rw [Expr.keywordOutlines] at h
    simp [List.forall₂_nil_right_iff.mp h]
  | cons keyword keywords ih =>
    have htail {cs : List Node}
        (hcs : List.Forall₂ Node.Fits cs (Expr.keywordOutlines q keywords)) :
        cs.filterMap Node.toArgument? = [] ∧ cs.filterMap Node.toKeyword? = keywords :=
      ih (fun id v hmem => hnamed id v (List.mem_cons_of_mem _ hmem))
        (fun v hmem => hbundles v (List.mem_cons_of_mem _ hmem)) hcs
    cases keyword with
    | named id value =>
      rw [Expr.keywordOutlines] at h
      obtain ⟨c, cs, hc, hcs, rfl⟩ := List.forall₂_cons_right_iff.mp h
      obtain ⟨-, -, hkind, -, hparts⟩ := Node.fits_branch_iff.mp hc
      obtain ⟨name, hname, hid⟩ := Node.exists_field? "name"
        (o := (nameOutline id).as "name") (by decide) hparts (by simp)
      obtain ⟨own, hown, hvalue⟩ := Node.exists_field? "value"
        (o := (value.outline q).as "value") (by decide) hparts (by simp)
      have hargument : c.toArgument? = none := by simp [Node.toArgument?, hkind]
      have hkeyword : c.toKeyword? = some (.named id value) := by
        simp [Node.toKeyword?, hkind, hname, hown, Node.toField_of_field? hown, Node.string,
          (Node.fits_leaf_iff.mp hid).2.2.2.2.1,
          hnamed id value List.mem_cons_self own _ hvalue]
      rw [List.filterMap_cons_none hargument, List.filterMap_cons_some hkeyword, (htail hcs).1,
        (htail hcs).2]
      exact ⟨rfl, rfl⟩
    | bundle value =>
      rw [Expr.keywordOutlines] at h
      obtain ⟨c, cs, hc, hcs, rfl⟩ := List.forall₂_cons_right_iff.mp h
      obtain ⟨-, -, hkind, -, hparts⟩ := Node.fits_branch_iff.mp hc
      have hvalue := (hbundles value List.mem_cons_self).toSole_splat hparts
      have hargument : c.toArgument? = none := by simp [Node.toArgument?, hkind]
      have hkeyword : c.toKeyword? = some (.bundle value) := by
        simp [Node.toKeyword?, hkind, hvalue]
      rw [List.filterMap_cons_none hargument, List.filterMap_cons_some hkeyword, (htail hcs).1,
        (htail hcs).2]
      exact ⟨rfl, rfl⟩

/-! ### Comparisons -/

/-- Tokens are kept for the operand behind them. -/
theorem Node.operands?_tokens {seen : Bool} (pending : List (List Char)) {words : List String}
    {ts cs : List Node} (h : List.Forall₂ Fits ts (words.map .token)) :
    operands? seen pending (ts ++ cs) =
      operands? seen (pending ++ words.map String.toList) cs := by
  induction words generalizing ts pending with
  | nil => simp [List.forall₂_nil_right_iff.mp h]
  | cons w words ih =>
    obtain ⟨t, ts, ht, hts, rfl⟩ := List.forall₂_cons_right_iff.mp h
    obtain ⟨-, hnamed, htext, -⟩ := fits_token_iff.mp ht
    rw [List.cons_append, operands?, ht.isComment, hnamed, htext]
    simpa using ih (pending ++ [w.toList]) hts

theorem CompareOp.operatorOf?_words (op : CompareOp) :
    Node.operatorOf? (op.words.map String.toList) = some op := by
  cases op <;> decide +kernel

/-- The operators that were printed are found between the operands, which stand for what was
printed. -/
theorem exists_operands? {ops : List CompareOp} {es : List Expr} {cs : List Node}
    (hlength : ops.length = es.length) (hes : ∀ e ∈ es, e.IsRecovered q)
    (h : List.Forall₂ Node.Fits cs (Expr.comparisonOutlines q ops es)) :
    ∃ operands, Node.operands? true [] cs = some (ops, operands) ∧
      operands.map Node.toExpr = es := by
  induction ops generalizing es cs with
  | nil =>
    obtain rfl := List.length_eq_zero_iff.mp hlength.symm
    rw [Expr.comparisonOutlines] at h
    · rw [List.forall₂_nil_right_iff.mp h]
      exact ⟨[], rfl, rfl⟩
    · simp
  | cons op ops ih =>
    obtain ⟨e, es, rfl⟩ := List.exists_cons_of_length_eq_add_one hlength.symm
    obtain ⟨he, hes⟩ := List.forall_mem_cons.mp hes
    rw [Expr.comparisonOutlines] at h
    have hwords := List.forall₂_take_append _ _ _ h
    obtain ⟨c, rest, hc, hrest, hdrop⟩ :=
      List.forall₂_cons_right_iff.mp (List.forall₂_drop_append _ _ _ h)
    obtain ⟨operands, hoperands, hmap⟩ := ih (Nat.succ.inj hlength) hes hrest
    refine ⟨c :: operands, ?_, by rw [List.map_cons, he.toExpr_enclosed none hc, hmap]⟩
    rw [← List.take_append_drop (op.words.map Outline.token).length cs,
      Node.operands?_tokens [] hwords, hdrop, Node.operands?, hc.isComment, hc.isNamed,
      List.nil_append, op.operatorOf?_words, hoperands]
    simp

/-! ### All expressions -/

/-- Every expression that can be printed is recovered from its outline. -/
theorem Printable.isRecovered {e : Expr} (h : Printable e) : e.IsRecovered q := by
  induction h with
  | text value =>
    intro n role hfits
    rw [Expr.outline] at hfits
    obtain ⟨-, -, hkind, -, htext, -⟩ := Node.fits_leaf_iff.mp hfits
    simp [Node.toExpr, hkind, Node.literal?, htext, decodeLiteral_literal]
  | @name id _ =>
    intro n role hfits
    rw [Expr.outline] at hfits
    obtain ⟨-, -, hkind, -, htext, -⟩ := Node.fits_leaf_iff.mp hfits
    simp [Node.toExpr, hkind, Node.string, htext]
  | @«attribute» value attr _ _ hvalue =>
    intro n role hfits
    rw [Expr.outline] at hfits
    obtain ⟨-, -, hkind, -, hparts⟩ := Node.fits_branch_iff.mp hfits
    obtain ⟨object, hobject, henclosed⟩ := Node.exists_field? "object"
      (o := (value.outline q).enclosed.as "object") (by decide) hparts (by simp)
    obtain ⟨own, hown, hattr⟩ := Node.exists_field? "attribute"
      (o := (nameOutline attr).as "attribute") (by decide) hparts
      (by simp)
    simp [Node.toExpr, hkind, hobject, hown, Node.toField_of_field? hobject, Node.string,
      hvalue.toExpr_enclosed _ henclosed, (Node.fits_leaf_iff.mp hattr).2.2.2.2.1]
  | @list elements _ ih =>
    intro n role hfits
    rw [Expr.outline] at hfits
    obtain ⟨-, -, hkind, -, hparts⟩ := Node.fits_branch_iff.mp hfits
    have helements := Expr.toElements_eq ih hparts
      (filter_isNamed_display (Expr.filter_isNamed_outlines elements) (by simp))
    simp [Node.toExpr, hkind, helements]
  | @tuple elements _ ih =>
    intro n role hfits
    rw [Expr.outline] at hfits
    obtain ⟨-, -, hkind, -, hparts⟩ := Node.fits_branch_iff.mp hfits
    have helements := Expr.toElements_eq ih hparts
      (filter_isNamed_display (Expr.filter_isNamed_outlines elements) (by split <;> simp))
    simp [Node.toExpr, hkind, helements]
  | @dict entries _ _ _ hkeys hvalues hsplats =>
    intro n role hfits
    rw [Expr.outline] at hfits
    obtain ⟨-, -, hkind, -, hparts⟩ := Node.fits_branch_iff.mp hfits
    have hentries := Node.forall₂_namedChildren hparts
    rw [filter_isNamed_display (Expr.filter_isNamed_entryOutlines entries) (by simp)] at hentries
    rw [Node.toExpr_dictionary hkind, filterMap_toItem?_eq hkeys hvalues hsplats hentries]
  | @call func args keywords _ _ _ _ _ hfunc hargs hnamed hbundles =>
    intro n role hfits
    rw [Expr.outline] at hfits
    obtain ⟨-, -, hkind, -, hparts⟩ := Node.fits_branch_iff.mp hfits
    obtain ⟨function, hfunction, henclosed⟩ := Node.exists_field? "function"
      (o := (func.outline q).enclosed.as "function") (by decide) hparts (by simp)
    obtain ⟨arguments, harguments, hlist⟩ := Node.exists_field? "arguments"
      (o := .branch (some "arguments") "argument_list" (.token "(" :: (commaOutlines
        (Expr.outlines q args ++ Expr.keywordOutlines q keywords) ++ [.token ")"])))
      (by decide) hparts (by simp)
    obtain ⟨-, -, hlisted, -, hitems⟩ := Node.fits_branch_iff.mp hlist
    have hall := Node.forall₂_namedChildren hitems
    rw [filter_isNamed_display (by rw [List.filter_append, Expr.filter_isNamed_outlines,
      Expr.filter_isNamed_keywordOutlines]) (by simp)] at hall
    obtain ⟨hpositional, hnone⟩ :=
      filterMap_toArgument?_eq hargs (List.forall₂_take_append _ _ _ hall)
    obtain ⟨hnone', hkeywords⟩ :=
      filterMap_toKeyword?_eq hnamed hbundles (List.forall₂_drop_append _ _ _ hall)
    rw [Node.toExpr_call hkind, Node.toCall_eq, hfunction, harguments]
    simp only [hlisted, if_true, Node.toField_of_field? hfunction]
    rw [hfunc.toExpr_enclosed _ henclosed,
      ← List.take_append_drop (Expr.outlines q args).length arguments.namedChildren,
      List.filterMap_append, List.filterMap_append, hpositional, hnone, hnone', hkeywords,
      List.append_nil, List.nil_append]
  | @compare left ops comparators _ _ hlength _ hleft hcomparators =>
    intro n role hfits
    rw [Expr.outline] at hfits
    obtain ⟨-, -, hkind, -, hparts⟩ := Node.fits_branch_iff.mp hfits
    obtain ⟨c, cs, hc, hcs, hchildren⟩ := List.forall₂_cons_right_iff.mp hparts
    obtain ⟨operands, hoperands, hmap⟩ := exists_operands? hlength hcomparators hcs
    have hall : Node.operands? false [] n.children = some (ops, c :: operands) := by
      rw [hchildren, Node.operands?, hc.isComment, hc.isNamed, hoperands]
      simp
    rw [Node.toExpr_comparison hkind, Node.toComparison_eq, hall]
    simp only [hmap, hleft.toExpr_enclosed none hc]
  | other =>
    intro n role hfits
    rw [Expr.outline] at hfits
    obtain ⟨-, -, hkind, -⟩ := Node.fits_leaf_iff.mp hfits
    simp [Node.toExpr, hkind]

end Descriptor.Script
