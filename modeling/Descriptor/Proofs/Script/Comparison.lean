import Descriptor.Script.Lowering

/-!
# The operators of comparisons

The children of a comparison in the tree are its operands, the tokens of its operators and comments.
Where they begin and end with an operand, the operators that are found are the written ones: each of
them is spelled by the tokens between two operands, and no token is left over.

## Main definitions

* `Node.constituents` : the children of a node that are no comments.
* `Link` : an operator with its tokens and the operand behind it.
* `Node.WritesComparison` : the comparison that the children of a node write.

## Main results

* `Node.exists_links` : the operators found are those of links that the children consist of.
* `Node.writesComparison_of_toComparison` : a comparison that a node stands for is written there.
-/

namespace Descriptor.Script

/-- An operator of a comparison, with the tokens that spell it and the operand behind it. -/
structure Link where
  op : CompareOp
  tokens : List Node
  operand : Node

namespace Link

/-- The tokens of an operator with the operand. -/
def run (k : Link) : List Node := k.tokens ++ [k.operand]

/-- The tokens of a link are none but tokens and spell its operator, and its operand is none. -/
structure IsWritten (k : Link) : Prop where
  tokens : ∀ t ∈ k.tokens, t.isNamed = false
  spelled : Node.operatorOf? (k.tokens.map (·.text)) = some k.op
  operand : k.operand.isNamed = true

end Link

namespace Node

/-- The children of a node that are no comments. -/
def constituents (n : Node) : List Node := n.children.filter (!·.isComment)

/-- The children of a node, comments aside, write a comparison: its first operand, and then for each
operator the tokens that spell it and the operand behind it. -/
def WritesComparison (n : Node) (left : Expr) (ops : List CompareOp) (comparators : List Expr) :
    Prop :=
  ∃ (first : Node) (links : List Link), n.constituents = first :: links.flatMap Link.run ∧
    first.isNamed = true ∧ (∀ k ∈ links, k.IsWritten) ∧ first.toExpr = left ∧
    links.map (·.op) = ops ∧ links.map (·.operand.toExpr) = comparators

variable {n : Node}

/-- Comments change nothing. -/
theorem operands?_filter (seen : Bool) (pending : List (List Char)) (cs : List Node) :
    operands? seen pending (cs.filter (!·.isComment)) = operands? seen pending cs := by
  induction cs generalizing seen pending with
  | nil => rfl
  | cons c cs ih =>
    cases hcomment : c.isComment with
    | true => rw [List.filter_cons_of_neg (by simp [hcomment]), ih, operands?, if_pos hcomment]
    | false =>
      rw [List.filter_cons_of_pos (by simp [hcomment])]
      simp only [operands?, hcomment, ih]

/-- The operators found behind an operand are spelled by the tokens before the operands that come
with them, of which the first `pre` have been passed over already. No operand follows what is left
over. -/
theorem exists_links (pre : List Node) {cs operands : List Node} {ops : List CompareOp}
    (hpre : ∀ t ∈ pre, t.isNamed = false) (hcs : ∀ c ∈ cs, c.isComment = false)
    (h : operands? true (pre.map (·.text)) cs = some (ops, operands)) :
    ∃ (links : List Link) (rest : List Node), pre ++ cs = links.flatMap Link.run ++ rest ∧
      (∀ k ∈ links, k.IsWritten) ∧ links.map (·.op) = ops ∧ links.map (·.operand) = operands ∧
      ∀ t ∈ rest, t.isNamed = false := by
  induction cs generalizing pre ops operands with
  | nil =>
    obtain ⟨rfl, rfl⟩ := Prod.mk.inj (Option.some.inj h)
    exact ⟨[], pre, List.append_nil pre, by simp, rfl, rfl, hpre⟩
  | cons c cs ih =>
    obtain ⟨hc, hcs⟩ := List.forall_mem_cons.mp hcs
    rw [operands?, hc] at h
    cases hnamed : c.isNamed with
    | false =>
      have htokens : ∀ t ∈ pre ++ [c], t.isNamed = false :=
        List.forall_mem_append.mpr ⟨hpre, List.forall_mem_singleton.mpr hnamed⟩
      obtain ⟨links, rest, heq, hlinks⟩ := ih _ htokens hcs (by simpa [hnamed] using h)
      exact ⟨links, rest, by simpa using heq, hlinks⟩
    | true =>
      rw [hnamed] at h
      obtain ⟨op, hop, hmore⟩ := Option.bind_eq_some_iff.mp h
      obtain ⟨⟨ops, operands⟩, hrest, ⟨⟩⟩ := Option.map_eq_some_iff.mp hmore
      obtain ⟨links, rest, heq, hlinks, hops, hoperands, htail⟩ :=
        ih [] (by simp) hcs hrest
      refine ⟨⟨op, pre, c⟩ :: links, rest, ?_, ?_, by rw [List.map_cons, hops],
        by rw [List.map_cons, hoperands], htail⟩
      · simpa [Link.run] using heq
      · exact List.forall_mem_cons.mpr ⟨⟨hpre, hop, hnamed⟩, hlinks⟩

/-- A comparison that a node stands for is written there, if the node begins and ends with an
operand. -/
theorem writesComparison_of_toComparison {left : Expr} {ops : List CompareOp}
    {comparators : List Expr} (hfirst : n.constituents.head?.map (·.isNamed) = some true)
    (hlast : n.constituents.getLast?.map (·.isNamed) = some true)
    (h : n.toComparison = .compare left ops comparators) :
    n.WritesComparison left ops comparators := by
  obtain ⟨first, others, hoperands, rfl, rfl⟩ := exists_operands?_of_toComparison h
  have hcomments : ∀ c ∈ n.constituents, c.isComment = false := by simp [constituents]
  rw [← operands?_filter] at hoperands
  change operands? false [] n.constituents = _ at hoperands
  rw [WritesComparison]
  generalize n.constituents = cs at *
  cases cs with
  | nil => cases hoperands
  | cons c cs =>
    have hnamed : c.isNamed = true := Option.some.inj hfirst
    obtain ⟨hc, hcs⟩ := List.forall_mem_cons.mp hcomments
    rw [operands?, hc, hnamed] at hoperands
    obtain ⟨⟨ops, operands⟩, hrest, ⟨⟩⟩ := Option.map_eq_some_iff.mp hoperands
    obtain ⟨links, rest, heq, hlinks, rfl, rfl, htail⟩ :=
      exists_links [] (by simp) hcs hrest
    rw [List.nil_append] at heq
    rcases List.eq_nil_or_concat rest with rfl | ⟨tokens, t, rfl⟩
    · rw [List.append_nil] at heq
      exact ⟨first, links, by rw [heq], hnamed, hlinks, rfl, rfl, List.map_map.symm⟩
    · rw [List.concat_eq_append, ← List.append_assoc] at heq
      rw [heq, ← List.cons_append, List.getLast?_append] at hlast
      simp [htail t (by simp)] at hlast

end Node

end Descriptor.Script
