import Mathlib

/-!
# Loops that end

A loop is `PFun.fix` of its turn, which ends with a result or goes on from another state, and may itself
be undefined.  `exists_mem_fix` is the rule for total correctness: an invariant, a measure that every
turn decreases, and what the results satisfy.
-/

namespace Loops

variable {σ ρ : Type*} {turn : σ →. ρ ⊕ σ}

/-- A turn that keeps an invariant and decreases a measure, or ends well. -/
def GoodTurn (turn : σ →. ρ ⊕ σ) (I : σ → Prop) (Q : ρ → Prop) (measure : σ → ℕ) (s : σ) : Prop :=
  (∃ r, Sum.inl r ∈ turn s ∧ Q r) ∨ ∃ s', Sum.inr s' ∈ turn s ∧ I s' ∧ measure s' < measure s

/-- A loop of good turns ends, with a good result. -/
theorem exists_mem_fix {I : σ → Prop} {Q : ρ → Prop} (measure : σ → ℕ)
    (hturn : ∀ s, I s → GoodTurn turn I Q measure s) {s : σ} (hs : I s) : ∃ r ∈ turn.fix s, Q r := by
  induction hm : measure s using Nat.strong_induction_on generalizing s with
  | _ m ih =>
    rcases hturn s hs with ⟨r, hr, hgood⟩ | ⟨s', hs', hkept, hless⟩
    · exact ⟨r, PFun.fix_stop hr, hgood⟩
    · obtain ⟨r, hr, hgood⟩ := ih (measure s') (hm ▸ hless) hkept rfl
      refine ⟨r, ?_, hgood⟩
      rw [PFun.fix_fwd_eq hs']
      exact hr

end Loops
