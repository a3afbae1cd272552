import Collector.Script.Reader
import Collector.Proofs.Script.Statements

/-!
# The grammars of all levels across a seam

A grammar with no fewer levels and no less fuel reads on the new side what another one reads on the
old side. Between a text and itself this says that levels and fuel do not matter where a grammar
reads at all.
-/

namespace Collector.Script

variable {σ : Seam}

theorem Agrees.empty (g : Grammar) : Agrees σ Grammar.empty g where
  fuel := Nat.zero_le _
  assignment _ _ := .failure _
  operand _ _ _ := .failure _
  unary _ _ := .failure _
  leftHand _ _ := .failure _
  callee _ _ _ := .failure _
  binding _ _ := .failure _
  statement _ _ _ _ := .failure _

/-- A production of a level calls those of the level below. -/
theorem agrees_grammar {fuel fuel' level level' : Nat} (hf : fuel ≤ fuel') (hl : level ≤ level') :
    Agrees σ (grammar fuel level) (grammar fuel' level') := by
  induction level generalizing level' with
  | zero => exact .empty _
  | succ level ih =>
    obtain ⟨level', rfl⟩ := Nat.exists_eq_add_of_lt (Nat.lt_of_lt_of_le level.lt_succ_self hl)
    have h : Agrees σ (grammar fuel level) (grammar fuel' (level + level')) := ih (by omega)
    exact
      { fuel := hf
        assignment := h.assignmentExpression
        operand := h.operandAbove
        unary := h.unaryExpression
        leftHand := h.leftHandSide
        callee := fun hh m inside => h.newCallee m inside hh
        binding := h.bindingTarget
        statement := fun hh m inside inList => h.anyStatement m inside hh inList }

end Collector.Script
