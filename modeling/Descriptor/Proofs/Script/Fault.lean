import Descriptor.Proofs.Script.Position
import Descriptor.Script.Module

/-!
# Syntax errors

A script that cannot be read is told by the first node of its tree at which something is wrong. The
error has the message for that node, and its position is where the node starts.

## Main results

* `exists_fault_of_readModuleWith` : the node that a syntax error is about.
-/

namespace Descriptor.Script

/-- A syntax error is about the first node below the root at which something is wrong: the message
says what, and the position, which is that of the start of the node, leads back there. -/
theorem exists_fault_of_readModuleWith {grammar : Grammar} {source : String} {e : SyntaxError}
    (h : readModuleWith grammar source = .error e) :
    ∃ before n after, (grammar source).descendants = before ++ n :: after ∧
      (∀ m ∈ before, m.complaint? = none) ∧ n.complaint? = some e.message ∧
      e.position = .ofOffset source.toList n.start ∧
      (String.Pos.Raw.IsValid source ⟨n.start⟩ →
        e.position.offset? source.toList = some n.start) := by
  rw [readModuleWith] at h
  split at h
  · next offset message hfault =>
    obtain rfl := Except.error.inj h
    rw [Node.findSome?_children_firstFault?] at hfault
    obtain ⟨before, n, after, hdescendants, hn, hbefore⟩ := List.findSome?_eq_some_iff.mp hfault
    obtain ⟨_, hmessage, heq⟩ := Option.map_eq_some_iff.mp hn
    obtain ⟨rfl, rfl⟩ := Prod.mk.inj heq
    exact ⟨before, n, after, hdescendants, fun m hm => by simpa using hbefore m hm, hmessage, rfl,
      fun hvalid => Position.offset?_eq_some_iff.mpr ⟨hvalid, rfl⟩⟩
  · cases h

end Descriptor.Script
