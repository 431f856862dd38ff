import Descriptor.Proofs.Script.Comments
import Descriptor.Proofs.Script.Descent
import Descriptor.Proofs.Script.Source.Module

/-!
# Whole trees

Statements are only made of trees in which nothing had to be repaired. In such a tree every
construct is complete, and so is what it stands for: comparisons have an operator between any two
operands that follow each other, and bodies are not empty. Comments are nowhere in it.

## Main definitions

* `Node.IsComplete`, `Node.MarksRepairs` : the constructs that lack nothing, and the trees in which
  whatever lacks something is marked.

## Main results

* `complaint?_of_readModuleWith` : nothing is wrong in the tree of a script that is read.
* `readModuleWith_whole` : what is read of a script is complete at every depth.
-/

namespace Descriptor.Script

namespace Node

variable {n : Node}

/-! ### Complete constructs -/

/-- A construct lacks nothing: a comparison begins and ends with an operand and has more than one, a
condition or a function has a block, and a block has a statement. Comments are beside all of it. -/
@[mk_iff]
structure IsComplete (n : Node) : Prop extends n.IsTidy where
  beginsWithOperand : n.kind = "comparison_operator" →
    n.constituents.head?.map (·.isNamed) = some true
  endsWithOperand : n.kind = "comparison_operator" →
    n.constituents.getLast?.map (·.isNamed) = some true
  hasOperands : n.kind = "comparison_operator" → 1 < n.namedChildren.length
  hasConsequence : n.kind = "if_statement" →
    (n.field? "consequence").map (·.kind) = some "block"
  hasBody : n.kind = "function_definition" → (n.field? "body").map (·.kind) = some "block"
  hasStatement : n.kind = "block" → n.namedChildren ≠ []

instance (n : Node) : Decidable n.IsComplete := decidable_of_iff' _ (isComplete_iff n)

/-- In a tree in which repaired places are marked, every construct in whose own tree nothing is
wrong lacks nothing. -/
def MarksRepairs (root : Node) : Prop :=
  ∀ n ∈ root.descendants, (∀ m ∈ n.preorder, m.complaint? = none) → n.IsComplete

instance (root : Node) : Decidable root.MarksRepairs :=
  inferInstanceAs (Decidable (∀ n ∈ root.descendants, _))

/-- The body of a complete condition or function is not empty. -/
theorem toBody_ne_nil {role : String} (hblock : (n.field? role).map (·.kind) = some "block")
    (hcomplete : ∀ c ∈ n.children, c.IsComplete) : n.toBody role ≠ [] := by
  obtain ⟨c, hc, hkind⟩ := Option.map_eq_some_iff.mp hblock
  have hstatement := (hcomplete c (mem_of_field? hc)).hasStatement hkind
  rw [toBody_of_field? hc, toBlock_eq]
  exact fun hnil => hstatement (List.map_eq_nil_iff.mp hnil)

/-- A comparison with more than one operand has an operator. -/
theorem IsComplete.writesComparison (h : n.IsComplete) (hkind : n.kind = "comparison_operator")
    {left : Expr} {ops : List CompareOp} {comparators : List Expr}
    (hcomparison : n.toComparison = .compare left ops comparators) :
    ops ≠ [] ∧ n.WritesComparison left ops comparators := by
  have hwrites := writesComparison_of_toComparison (h.beginsWithOperand hkind)
    (h.endsWithOperand hkind) hcomparison
  refine ⟨?_, hwrites⟩
  rintro rfl
  obtain ⟨first, links, hconstituents, -, -, -, hops, -⟩ := hwrites
  obtain rfl := List.map_eq_nil_iff.mp hops
  have hnamed : n.namedChildren = n.constituents.filter (·.isNamed) := by
    simp [namedChildren, constituents, List.filter_filter]
  have hlength := h.hasOperands hkind
  rw [hnamed, hconstituents] at hlength
  have hle := List.length_filter_le (fun c : Node => c.isNamed) [first]
  simp only [List.flatMap_nil] at hlength
  exact absurd (Nat.lt_of_lt_of_le hlength hle) (Nat.lt_irrefl 1)

end Node

/-! ### Scripts -/

/-- Nothing is wrong below the root of a script that is read. -/
theorem complaint?_of_readModuleWith {grammar : Grammar} {source : String} {ss : List Stmt}
    (h : readModuleWith grammar source = .ok ss) :
    (grammar source).toBlock = ss ∧
      ∀ n ∈ (grammar source).descendants, n.complaint? = none := by
  rw [readModuleWith] at h
  split at h
  · cases h
  · next hnone =>
    refine ⟨Except.ok.inj h, fun n hn => ?_⟩
    obtain ⟨c, hc, hn⟩ := Node.mem_descendants.mp hn
    exact Node.firstFault?_eq_none_iff.mp (List.findSome?_eq_none_iff.mp hnone c hc) n hn

/-- **No partial trees.** At every depth of what is read of a script, bodies are not empty, and a
comparison has at least one operator and as many operands behind its first; it stands in the tree
of the script as a comparison whose operators are spelled between its operands, in this order.
Without its comments the tree stands for the same statements. -/
theorem readModuleWith_whole {grammar : Grammar} {source : String} {ss : List Stmt}
    (hgrammar : (grammar source).MarksRepairs) (h : readModuleWith grammar source = .ok ss) :
    (∀ s, Contains ss s →
      (∀ body, s.body? = some body → body ≠ []) ∧
      ∀ e ∈ s.exprs, ∀ left ops comparators, Part (.compare left ops comparators) e →
        ops ≠ [] ∧ comparators.length = ops.length ∧
          ∃ n ∈ (grammar source).descendants, n.WritesComparison left ops comparators) ∧
    (grammar source).withoutComments.toBlock = ss := by
  obtain ⟨rfl, hsound⟩ := complaint?_of_readModuleWith h
  have hcomplete (n : Node) (hn : n ∈ (grammar source).descendants) : n.IsComplete :=
    hgrammar n hn fun m hm => hsound m (Node.mem_descendants_trans hn hm)
  refine ⟨fun s hs => ?_, Node.toBlock_withoutComments fun m hm => (hcomplete m hm).toIsTidy⟩
  obtain ⟨n, hn, rfl⟩ := Node.exists_of_contains hs rfl
  constructor
  · intro body hbody
    obtain ⟨m, hm, ⟨hkind, rfl⟩ | ⟨hkind, rfl⟩⟩ := n.stands_toStmt.exists_of_body? hbody
    · have hbelow := Node.mem_descendants_trans hn hm
      exact Node.toBody_ne_nil ((hcomplete m hbelow).hasConsequence hkind) fun c hc =>
        hcomplete c (Node.mem_descendants_of_mem_children_of_mem hbelow hc)
    · have hbelow := Node.mem_descendants_trans hn hm
      exact Node.toBody_ne_nil ((hcomplete m hbelow).hasBody hkind) fun c hc =>
        hcomplete c (Node.mem_descendants_of_mem_children_of_mem hbelow hc)
  · intro e he left ops comparators hpart
    rcases n.stands_toStmt.exists_of_mem_exprs he with rfl | ⟨m, hm, rfl⟩
    · cases hpart
    · obtain ⟨k, hk, hexpr⟩ := Node.exists_of_part (by simp) hpart
      obtain ⟨c, hc, hkind, hcomparison⟩ := Node.exists_comparison_of_toExpr hexpr
      have hbelow : c ∈ (grammar source).descendants :=
        Node.mem_descendants_trans hn (Node.mem_preorder_of_mem_descendants
          (Node.mem_descendants_trans hm (Node.mem_preorder_trans hk hc)))
      obtain ⟨hne, hwrites⟩ := (hcomplete c hbelow).writesComparison hkind hcomparison
      obtain ⟨-, links, -, -, -, -, rfl, rfl⟩ := id hwrites
      exact ⟨hne, by simp, c, hbelow, hwrites⟩

/-- A script with comments at the ends of lines, on lines of their own and between the two words of
an operator. -/
def commentedScript : String :=
  "if (a) == (c):  # d\n    # e\n    (setup)((a) not  # f\n      in (c))\n" ++
  "def main():\n    # g\n    pass\n"

/-- A node over a part of the script. -/
def commentedPart (isNamed : Bool) (kind : String) (role? : Option String) (start stop : Nat)
    (children : List Node) : Node :=
  ⟨kind, isNamed, role?, start, (commentedScript.toList.take stop).drop start, children⟩

/-- The syntax tree of the script. -/
def commentedTree : Node :=
  let token := fun kind role? start stop => commentedPart false kind role? start stop []
  let leaf := fun kind role? start stop => commentedPart true kind role? start stop []
  let node := commentedPart true
  let enclosed := fun role? start stop =>
    node "parenthesized_expression" role? start stop
      [token "(" none start (start + 1), leaf "identifier" none (start + 1) (stop - 1),
        token ")" none (stop - 1) stop]
  node "module" none 0 96
    [node "if_statement" none 0 66
      [token "if" none 0 2,
        node "comparison_operator" "condition" 3 13
          [enclosed none 3 6, token "==" "operators" 7 9, enclosed none 10 13],
        token ":" none 13 14, leaf "comment" none 16 19, leaf "comment" none 24 27,
        node "block" "consequence" 32 66
          [node "expression_statement" none 32 66
            [node "call" none 32 66
              [enclosed "function" 32 39,
                node "argument_list" "arguments" 39 66
                  [token "(" none 39 40,
                    node "comparison_operator" none 40 65
                      [enclosed none 40 43, token "not in" "operators" 44 47,
                        leaf "comment" none 49 52, token "not in" "operators" 59 61,
                        enclosed none 62 65],
                    token ")" none 65 66]]]]],
      node "function_definition" none 67 95
        [token "def" none 67 70, leaf "identifier" "name" 71 75,
          node "parameters" "parameters" 75 77 [token "(" none 75 76, token ")" none 76 77],
          token ":" none 77 78, leaf "comment" none 83 86,
          node "block" "body" 91 95
            [node "pass_statement" none 91 95 [token "pass" none 91 95]]]]

/-- The statements of the script. -/
def commentedModule : List Stmt :=
  [.branch (.compare (.name "a") [.eq] [.name "c"])
      [.expr (.call (.name "setup") [.compare (.name "a") [.notIn] [.name "c"]] [])],
    .function "main" [.other]]

theorem printableStmt_commentedModule : ∀ s ∈ commentedModule, PrintableStmt s := by
  have hname {w : String} (h : isNameSpelling w = true ∧ w ∉ reservedWords) :
      Printable (.name w) :=
    .name ⟨h.1, h.2⟩
  have hcompare (op : CompareOp) : Printable (.compare (.name "a") [op] [.name "c"]) :=
    .compare (hname (by decide)) (by simp) rfl (List.forall_mem_singleton.mpr (hname (by decide)))
  have hcall : Printable
      (.call (.name "setup") [.compare (.name "a") [.notIn] [.name "c"]] []) :=
    .call (hname (by decide)) (List.forall_mem_singleton.mpr (hcompare .notIn)) (by simp)
      (by simp) (by simp)
  refine List.forall_mem_cons.mpr ⟨?_, List.forall_mem_singleton.mpr ?_⟩
  · exact .branch (hcompare .eq) (by simp) (List.forall_mem_singleton.mpr (.expr hcall))
  · exact .function ⟨by decide, by decide⟩ (by simp) (List.forall_mem_singleton.mpr .other)

/-- Without its comments the tree has the outline of the statements. -/
theorem readModuleWith_commentedScript :
    readModuleWith (fun _ => commentedTree) commentedScript = .ok commentedModule := by
  have hsound : commentedTree.children.findSome? Node.firstFault? = none := by decide +kernel
  have hcomplete : ∀ n ∈ commentedTree.descendants, n.IsComplete := by decide +kernel
  have houtline : Node.fitAll commentedTree.withoutComments.children
      (Stmt.outlines asciiQuoting commentedModule) = true := by decide +kernel
  have hblock := Node.toBlock_withoutComments fun m hm => (hcomplete m hm).toIsTidy
  have hstmts := Stmt.toBlock_eq (fun s hs => (printableStmt_commentedModule s hs).isRecovered)
    (Node.fitAll_iff.mp houtline)
  simp only [readModuleWith, hsound]
  exact congrArg Except.ok (hblock.symm.trans hstmts)

theorem readModuleWith_whole_commentedScript :
    commentedTree.MarksRepairs ∧
      readModuleWith (fun _ => commentedTree) commentedScript = .ok commentedModule ∧
      (∃ n ∈ commentedTree.descendants,
        n.WritesComparison (.name "a") [.notIn] [.name "c"]) ∧
      commentedTree.withoutComments.toBlock = commentedModule := by
  have hmarks : commentedTree.MarksRepairs := by decide +kernel
  obtain ⟨hall, hcomments⟩ := readModuleWith_whole hmarks readModuleWith_commentedScript
  have hcall : Contains commentedModule
      (.expr (.call (.name "setup") [.compare (.name "a") [.notIn] [.name "c"]] [])) :=
    .branch List.mem_cons_self (.self List.mem_cons_self)
  have hpart : Part (.compare (.name "a") [.notIn] [.name "c"])
      (.call (.name "setup") [.compare (.name "a") [.notIn] [.name "c"]] []) :=
    .argument _ _ List.mem_cons_self .self
  obtain ⟨-, -, hwrites⟩ := (hall _ hcall).2 _ List.mem_cons_self _ _ _ hpart
  exact ⟨hmarks, readModuleWith_commentedScript, hwrites, hcomments⟩

end Descriptor.Script
