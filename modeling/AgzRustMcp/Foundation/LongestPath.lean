import Mathlib

/-!
# Longest paths

The weight of a path is the sum of the weights of its vertices.  Labels that no edge can raise bound
every path (`sum_le_of_isChain`), and pointers back that account for a label give a path that
attains it (`sum_back`).
-/

namespace LongestPath

variable {α R : Type*} {r : α → α → Prop} {w best : α → R} {previous : α → Option α}

/-- The vertices from one backwards along the pointers, `depth` of them at most. -/
def back (previous : α → Option α) : ℕ → α → List α
  | 0, _ => []
  | depth + 1, x =>
    match previous x with
    | none => [x]
    | some y => x :: back previous depth y

section

variable [AddCommMonoid R]

/-- Every label is the weight of its vertex and of the next label. -/
structure Accounted (r : α → α → Prop) (w best : α → R) (previous : α → Option α) : Prop where
  start : ∀ x, previous x = none → best x = w x
  step : ∀ x y, previous x = some y → r y x ∧ best x = best y + w x

lemma isChain_back (h : Accounted r w best previous) (depth : ℕ) (x : α) :
    (back previous depth x).IsChain fun a b => r b a := by
  induction depth generalizing x with
  | zero => exact List.isChain_nil
  | succ depth ih =>
    rw [back]
    cases hx : previous x with
    | none => exact List.isChain_singleton x
    | some y =>
      cases depth with
      | zero => exact List.isChain_singleton x
      | succ depth =>
        have hrest := ih y
        obtain ⟨rest, hhead⟩ : ∃ rest, back previous (depth + 1) y = y :: rest := by
          rw [back]
          cases previous y with
          | none => exact ⟨[], rfl⟩
          | some z => exact ⟨_, rfl⟩
        dsimp only
        rw [hhead] at hrest ⊢
        exact List.isChain_cons_cons.mpr ⟨(h.step x y hx).1, hrest⟩

lemma source_of_mem_back (h : Accounted r w best previous) {depth : ℕ} {x y : α}
    (hy : y ∈ back previous depth x) : y = x ∨ ∃ z, r y z := by
  induction depth generalizing x with
  | zero => exact absurd hy List.not_mem_nil
  | succ depth ih =>
    rw [back] at hy
    cases hx : previous x with
    | none =>
      rw [hx] at hy
      exact Or.inl (List.mem_singleton.mp hy)
    | some z =>
      rw [hx] at hy
      rcases List.mem_cons.mp hy with rfl | hy
      · exact Or.inl rfl
      · rcases ih hy with rfl | hedge
        · exact Or.inr ⟨x, (h.step x y hx).1⟩
        · exact Or.inr hedge

lemma sum_back (h : Accounted r w best previous) {depth : ℕ} {x : α}
    (hlen : (back previous depth x).length < depth) : ((back previous depth x).map w).sum = best x := by
  induction depth generalizing x with
  | zero => exact absurd hlen (Nat.not_lt_zero _)
  | succ depth ih =>
    rw [back] at hlen ⊢
    cases hx : previous x with
    | none => simp [h.start x hx]
    | some y =>
      rw [hx] at hlen
      dsimp only at hlen ⊢
      rw [List.map_cons, List.sum_cons, ih (Nat.lt_of_succ_lt_succ hlen), (h.step x y hx).2, add_comm]

variable [PartialOrder R] [IsOrderedAddMonoid R]

/-- No edge can raise a label. -/
structure Relaxed (r : α → α → Prop) (w best : α → R) : Prop where
  weight_le : ∀ x, w x ≤ best x
  edge_le : ∀ x y, r x y → best x + w y ≤ best y

/-- Labels that no edge can raise bound the paths to their vertices. -/
theorem sum_le_of_isChain (h : Relaxed r w best) {front : List α} {x : α} (hchain : (front ++ [x]).IsChain r) :
    ((front ++ [x]).map w).sum ≤ best x := by
  induction front using List.reverseRecOn generalizing x with
  | nil => simpa using h.weight_le x
  | append_singleton front y ih =>
    rw [List.isChain_append] at hchain
    obtain ⟨hfront, -, hedge⟩ := hchain
    have hyx : r y x := hedge y (by simp) x (by simp)
    calc ((front ++ [y] ++ [x]).map w).sum = ((front ++ [y]).map w).sum + w x := by simp [add_assoc]
      _ ≤ best y + w x := add_le_add_left (ih hfront) (w x)
      _ ≤ best x := h.edge_le y x hyx

end

lemma not_cycle_of_rank (rank : α → ℕ) (h : ∀ x y, r x y → rank x < rank y) : ¬ ∃ x, Relation.TransGen r x x := by
  rintro ⟨x, hcycle⟩
  have hgrow : ∀ y, Relation.TransGen r x y → rank x < rank y := by
    intro y hy
    induction hy with
    | single hxy => exact h _ _ hxy
    | tail _ hyz ih => exact ih.trans (h _ _ hyz)
  exact lt_irrefl _ (hgrow x hcycle)

lemma nodup_of_isChain (hacyclic : ¬ ∃ x, Relation.TransGen r x x) {path : List α} (h : path.IsChain r) :
    path.Nodup := by
  have hpairwise : path.Pairwise (Relation.TransGen r) := (h.imp fun _ _ => .single).pairwise
  refine hpairwise.imp fun {x y} hreach heq => ?_
  subst heq
  exact hacyclic ⟨x, hreach⟩

lemma forall_of_acyclic {vertices : Finset α} (hfield : ∀ x y, r x y → x ∈ vertices)
    (hacyclic : ¬ ∃ x, Relation.TransGen r x x) {P : α → Prop}
    (hstep : ∀ y ∈ vertices, (∀ x, r x y → P x) → P y) : ∀ y ∈ vertices, P y := by
  have hwf : WellFounded fun x y : vertices => Relation.TransGen r x.1 y.1 := by
    have htrans : IsTrans vertices fun x y => Relation.TransGen r x.1 y.1 := ⟨fun _ _ _ => Relation.TransGen.trans⟩
    have hirrefl : Std.Irrefl fun x y : vertices => Relation.TransGen r x.1 y.1 :=
      ⟨fun x hx => hacyclic ⟨x.1, hx⟩⟩
    exact Finite.wellFounded_of_trans_of_irrefl _
  intro y hy
  have hall : ∀ y : vertices, P y.1 := by
    intro y
    induction y using hwf.induction with
    | h y ih => exact hstep y.1 y.2 fun x hxy => ih ⟨x, hfield x y hxy⟩ (.single hxy)
  exact hall ⟨y, hy⟩

end LongestPath
