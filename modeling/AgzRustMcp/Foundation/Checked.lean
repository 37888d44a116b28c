import Mathlib

/-!
# Loops that may be refused

A loop whose body can refuse is a monadic fold in `Except`.  `foldlM_invariant` carries a property
of the loop state through an accepted run, and `foldlM_simulation` an accepted run of one loop over
to one of another.
-/

namespace Checked

universe u

variable {ε σ τ α β : Type u}

lemma bind_eq_ok_iff {x : Except ε α} {f : α → Except ε β} {b : β} :
    (x >>= f) = .ok b ↔ ∃ a, x = .ok a ∧ f a = .ok b := by
  cases x with
  | error e => simp [bind, Except.bind]
  | ok a => simp [bind, Except.bind]

lemma foldlM_invariant {f : σ → α → Except ε σ} (P : σ → Prop) {l : List α} {s s' : σ}
    (hstep : ∀ s a s', a ∈ l → f s a = .ok s' → P s → P s') (hrun : l.foldlM f s = .ok s') (hs : P s) : P s' := by
  induction l generalizing s with
  | nil =>
    obtain rfl : s = s' := by simpa [pure, Except.pure] using hrun
    exact hs
  | cons a l ih =>
    rw [List.foldlM_cons, bind_eq_ok_iff] at hrun
    obtain ⟨t, hturn, hrest⟩ := hrun
    exact ih (fun s b s' hb => hstep s b s' (List.mem_cons_of_mem _ hb)) hrest
      (hstep s a t List.mem_cons_self hturn hs)

lemma foldlM_congr {f g : σ → α → Except ε σ} {l : List α} (h : ∀ a ∈ l, ∀ s, f s a = g s a)
    (s : σ) : l.foldlM f s = l.foldlM g s := by
  induction l generalizing s with
  | nil => rfl
  | cons a l ih =>
    rw [List.foldlM_cons, List.foldlM_cons, h a List.mem_cons_self]
    exact bind_congr fun s' => ih (fun b hb => h b (List.mem_cons_of_mem _ hb)) s'

lemma exists_turn_of_mem {f : σ → α → Except ε σ} {l : List α} {s s' : σ}
    (hrun : l.foldlM f s = .ok s') {a : α} (ha : a ∈ l) : ∃ t t', f t a = .ok t' := by
  induction l generalizing s with
  | nil => simp at ha
  | cons b l ih =>
    rw [List.foldlM_cons, bind_eq_ok_iff] at hrun
    obtain ⟨mid, hturn, hrest⟩ := hrun
    rcases List.mem_cons.mp ha with rfl | ha
    · exact ⟨s, mid, hturn⟩
    · exact ih hrest ha

lemma foldlM_simulation {f : σ → α → Except ε σ} {g : τ → β → Except ε τ} (R : σ → τ → Prop) (Q : α → β → Prop)
    (hstep : ∀ s t a b s', R s t → Q a b → f s a = .ok s' → ∃ t', g t b = .ok t' ∧ R s' t')
    {as : List α} {bs : List β} (hab : List.Forall₂ Q as bs) {s s' : σ} {t : τ}
    (hst : R s t) (hrun : as.foldlM f s = .ok s') : ∃ t', bs.foldlM g t = .ok t' ∧ R s' t' := by
  induction hab generalizing s t with
  | nil =>
    obtain rfl : s = s' := by simpa [pure, Except.pure] using hrun
    exact ⟨t, rfl, hst⟩
  | cons hQ _ ih =>
    rw [List.foldlM_cons, bind_eq_ok_iff] at hrun
    obtain ⟨s₁, hturn, hrest⟩ := hrun
    obtain ⟨t₁, hturn', hR⟩ := hstep _ _ _ _ _ hst hQ hturn
    obtain ⟨t', hrest', hR'⟩ := ih hR hrest
    refine ⟨t', ?_, hR'⟩
    rw [List.foldlM_cons, bind_eq_ok_iff]
    exact ⟨t₁, hturn', hrest'⟩

end Checked
