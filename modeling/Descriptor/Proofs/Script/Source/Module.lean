import Descriptor.Proofs.Script.Source.Lowering
import Descriptor.Script.Grammar.Module

/-!
# Reading printed modules

A module that was printed is read as the statements that it was printed from, whatever its literals
are spelled like. Of the grammar it is assumed that it takes the module for what it is: the tree of
the printed source has the outline that goes with the statements.

## Main definitions

* `Grammar.Recognizes` : the tree of a printed module has its outline.

## Main results

* `PrintableStmt.isRecovered` : every statement that can be printed is recovered from its outline.
* `readModuleWith_printModule` : a printed module is read as what was printed.
-/

namespace Descriptor.Script

variable {q : Quoting} {n : Node}

/-! ### Statements -/

/-- Whatever has the outline of a statement stands for it. -/
def Stmt.IsRecovered (q : Quoting) (s : Stmt) : Prop :=
  ∀ n : Node, n.Fits (s.outline q) → n.toStmt = s

theorem Stmt.filter_isNamed_outlines (ss : List Stmt) :
    (outlines q ss).filter Outline.isNamed = outlines q ss := by
  induction ss with
  | nil => rw [outlines, List.filter_nil]
  | cons s ss ih =>
    have hnamed : (s.outline q).isNamed = true := by cases s <;> rw [outline] <;> rfl
    rw [outlines, List.filter_cons_of_pos hnamed, ih]

/-- Nodes with the outlines of statements stand for them, one by one. -/
theorem Stmt.toBlock_eq {ss : List Stmt} (hss : ∀ s ∈ ss, s.IsRecovered q)
    (h : List.Forall₂ Node.Fits n.children (outlines q ss)) : n.toBlock = ss := by
  have hnamed := Node.forall₂_namedChildren h
  rw [filter_isNamed_outlines] at hnamed
  rw [Node.toBlock_eq]
  generalize n.namedChildren = ns at hnamed
  clear h
  induction ss generalizing ns with
  | nil =>
    rw [outlines] at hnamed
    rw [List.forall₂_nil_right_iff.mp hnamed, List.map_nil]
  | cons s ss ih =>
    obtain ⟨hs, hss⟩ := List.forall_mem_cons.mp hss
    rw [outlines] at hnamed
    obtain ⟨c, cs, hc, hcs, rfl⟩ := List.forall₂_cons_right_iff.mp hnamed
    rw [List.map_cons, hs c hc, ih hss cs hcs]

/-- The block in a role stands for the statements of the body. -/
theorem Stmt.toBody_eq (role : String) {body : List Stmt} {parts : List Outline}
    (hbody : ∀ s ∈ body, s.IsRecovered q) (hrole : role ≠ "operators")
    (h : List.Forall₂ Node.Fits n.children parts)
    (hpart : parts.find? (·.role? = some role) =
      some (.branch (some role) "block" (outlines q body))) :
    n.toBody role = body := by
  obtain ⟨block, hblock, hfits⟩ := Node.exists_field? role hrole h hpart
  obtain ⟨-, -, -, -, hparts⟩ := Node.fits_branch_iff.mp hfits
  rw [Node.toBody_of_field? hblock]
  exact toBlock_eq hbody hparts

/-- Every statement that can be printed is recovered from its outline. -/
theorem PrintableStmt.isRecovered {s : Stmt} (h : PrintableStmt s) : s.IsRecovered q := by
  induction h with
  | @expr value hvalue =>
    intro n hfits
    rw [Stmt.outline] at hfits
    obtain ⟨-, -, hkind, -, hparts⟩ := Node.fits_branch_iff.mp hfits
    obtain ⟨c, hc, hfits⟩ := Node.exists_namedChildren_eq (o := value.outline q) hparts (by simp)
    have hmem := value.kind_notMem none (value.as_outline.symm ▸ hfits)
    simp only [List.mem_cons, not_or] at hmem
    simp [Node.toStmt, hkind, Node.toExpressionStatement, hc, hmem,
      hvalue.isRecovered.toExpr_eq hfits]
  | @assign target value _ hvalue =>
    intro n hfits
    rw [Stmt.outline] at hfits
    obtain ⟨-, -, hkind, -, hparts⟩ := Node.fits_branch_iff.mp hfits
    obtain ⟨c, hc, hassignment⟩ := Node.exists_namedChildren_eq hparts
      (by rw [List.filter_cons_of_pos rfl, List.filter_nil])
    obtain ⟨-, -, hassign, -, hsides⟩ := Node.fits_branch_iff.mp hassignment
    have htype : c.field? "type" = none := Node.field?_eq_none (by decide) hsides (by simp)
    obtain ⟨left, hleft, htarget⟩ := Node.exists_field? "left"
      (o := (nameOutline target).as "left") (by decide) hsides (by simp)
    obtain ⟨right, hright, hfits⟩ := Node.exists_field? "right"
      (o := (value.outline q).as "right") (by decide) hsides (by simp)
    obtain ⟨-, -, hname, -, htext, -⟩ := Node.fits_leaf_iff.mp htarget
    have hmem := value.kind_notMem _ hfits
    simp only [List.mem_cons, not_or] at hmem
    simp [Node.toStmt, hkind, Node.toExpressionStatement, hc, hassign, Node.toAssignment, htype,
      hleft, hright, hname, hmem, Node.string, htext, hvalue.isRecovered right _ hfits]
  | @branch test body htest _ _ ih =>
    intro n hfits
    rw [Stmt.outline] at hfits
    obtain ⟨-, -, hkind, -, hparts⟩ := Node.fits_branch_iff.mp hfits
    have hcondition := (htest.isRecovered (q := q)).toField_eq "condition" (by decide) hparts
      (by simp)
    have hbody := Stmt.toBody_eq "consequence" ih (by decide) hparts (by simp)
    simp [Node.toStmt, hkind, hcondition, hbody]
  | @function name body _ _ _ ih =>
    intro n hfits
    rw [Stmt.outline] at hfits
    obtain ⟨-, -, hkind, -, hparts⟩ := Node.fits_branch_iff.mp hfits
    obtain ⟨own, hown, hname⟩ := Node.exists_field? "name"
      (o := (nameOutline name).as "name") (by decide) hparts (by simp)
    have hbody := Stmt.toBody_eq "body" ih (by decide) hparts (by simp)
    obtain ⟨first, rest, hfirst, -, hchildren⟩ := List.forall₂_cons_right_iff.mp hparts
    have hasync : first.kind ≠ "async" := by
      obtain ⟨-, -, -, -, hdef | hop, -⟩ := Node.fits_token_iff.mp hfirst
      · simp [hdef]
      · rintro hasync
        simp [hasync, CompareOp.ofSpelling?] at hop
    simp [Node.toStmt, hkind, Node.toFunction, hchildren, hasync, hown, Node.string,
      (Node.fits_leaf_iff.mp hname).2.2.2.2.1, hbody]
  | other =>
    intro n hfits
    rw [Stmt.outline] at hfits
    simp [Node.toStmt, (Node.fits_leaf_iff.mp hfits).2.2.1]

/-! ### Modules -/

/-- A grammar takes a printed module for what it is: there is nothing that it has to repair, and the
nodes of the tree have the kinds and the roles of the module's outline. -/
def Grammar.Recognizes (grammar : Grammar) (q : Quoting) (ss : List Stmt) : Prop :=
  Node.fitAll (grammar (printModule q ss)).children (Stmt.outlines q ss) = true

instance (grammar : Grammar) (q : Quoting) (ss : List Stmt) :
    Decidable (grammar.Recognizes q ss) :=
  inferInstanceAs (Decidable (_ = true))

/-- **Printed modules are read back.** The source printed for statements that have one is read, and
gives exactly these statements. -/
theorem readModuleWith_printModule {grammar : Grammar} {ss : List Stmt} (q : Quoting)
    (hss : ∀ s ∈ ss, PrintableStmt s) (hgrammar : grammar.Recognizes q ss) :
    readModuleWith grammar (printModule q ss) = .ok ss := by
  have hfits := Node.fitAll_iff.mp hgrammar
  have hsound : (grammar (printModule q ss)).children.findSome? Node.firstFault? = none := by
    refine List.findSome?_eq_none_iff.mpr fun c hc => Node.firstFault?_eq_none_iff.mpr ?_
    obtain ⟨o, ho⟩ := Node.exists_of_mem hfits hc
    exact ho.complaint?_eq_none
  simp only [readModuleWith, hsound]
  exact congrArg Except.ok (Stmt.toBlock_eq (fun s hs => (hss s hs).isRecovered) hfits)

/-- A setup call under a guard, behind a function that does nothing. -/
def guardedModule : List Stmt :=
  [.function "main" [.other],
    .branch (.compare (.name "__name__") [.eq] [.text "__main__"])
      [.assign "extras" (.dict [.splat (.name "base"), .pair (.text "dev") (.list [])]),
        .expr (.call (.attribute (.name "setuptools") "setup") [.tuple [.other]]
          [.named "name" (.text "d'é"), .bundle (.name "extras")])]]

theorem printableStmt_guardedModule : ∀ s ∈ guardedModule, PrintableStmt s := by
  have hid {w : String} (h : isNameSpelling w = true ∧ w ∉ reservedWords) : IsIdentifier w :=
    ⟨h.1, h.2⟩
  have hmain : PrintableStmt (.function "main" [.other]) :=
    .function (hid (by decide)) (by simp) (List.forall_mem_singleton.mpr .other)
  have htest : Printable (.compare (.name "__name__") [.eq] [.text "__main__"]) :=
    .compare (.name (hid (by decide))) (by simp) rfl (List.forall_mem_singleton.mpr (.text _))
  have hextras : Printable (.dict [.splat (.name "base"), .pair (.text "dev") (.list [])]) := by
    refine .dict ?_ ?_ ?_
    · simpa using .text "dev"
    · simpa using .list (by simp)
    · simpa using .name (hid (by decide))
  have hsetup : Printable (.call (.attribute (.name "setuptools") "setup") [.tuple [.other]]
      [.named "name" (.text "d'é"), .bundle (.name "extras")]) := by
    refine .call (.attribute (.name (hid (by decide))) (hid (by decide))) ?_ ?_ ?_ ?_
    · simpa using .tuple (by simpa using .other)
    · simpa using hid (by decide)
    · simpa using .text "d'é"
    · simpa using .name (hid (by decide))
  refine List.forall_mem_cons.mpr ⟨hmain, List.forall_mem_singleton.mpr ?_⟩
  refine .branch htest (by simp) (List.forall_mem_cons.mpr ⟨?_, ?_⟩)
  · exact .assign (hid (by decide)) hextras
  · exact List.forall_mem_singleton.mpr (.expr hsetup)

theorem readModuleWith_printModule_guardedModule :
    (∀ s ∈ guardedModule, PrintableStmt s) ∧
      printModule asciiQuoting guardedModule =
        "def main():\n    pass\n" ++
        "if (__name__) == ('__main__'):\n" ++
        "    extras = \x7b**(base), 'dev': []\x7d\n" ++
        "    ((setuptools).setup)((0,), name='d\\'\\xe9', **(extras))\n" ∧
      Grammar.Recognizes parse asciiQuoting guardedModule ∧
      readModuleWith parse (printModule asciiQuoting guardedModule) = .ok guardedModule := by
  have hgrammar : Grammar.Recognizes parse asciiQuoting guardedModule := by decide +kernel
  exact ⟨printableStmt_guardedModule, by decide +kernel, hgrammar,
    readModuleWith_printModule asciiQuoting printableStmt_guardedModule hgrammar⟩

end Descriptor.Script
