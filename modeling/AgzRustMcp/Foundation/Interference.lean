import AgzRustMcp.Foundation.Runs

/-!
# What two histories show to an observer

A machine answers every input, and an observer sees some of the inputs with their answers.  Where a
relation between states is left by no unseen input and seen inputs are answered alike under it, two
histories with the same seen inputs show the same answers (`observed_eq`).
-/

namespace Interference

variable {σ ι ο : Type*} (step : σ → ι → σ × ο) (seen : ι → Bool)

/-- The state after an input. -/
def next (s : σ) (i : ι) : σ := (step s i).1

/-- The seen inputs of a history, each with its answer. -/
def observed : σ → List ι → List (ι × ο)
  | _, [] => []
  | s, i :: inputs =>
    if seen i then (i, (step s i).2) :: observed (next step s i) inputs
    else observed (next step s i) inputs

variable {step seen} {cond : σ → ι → Prop} {R : σ → σ → Prop} {s t : σ} {i : ι} {inputs inputs' more : List ι}

lemma observed_cons_of_seen (h : seen i = true) :
    observed step seen s (i :: inputs) = (i, (step s i).2) :: observed step seen (next step s i) inputs := by
  rw [observed, if_pos h]

lemma observed_cons_of_unseen (h : seen i = false) :
    observed step seen s (i :: inputs) = observed step seen (next step s i) inputs := by
  rw [observed, if_neg (by rw [h]; exact Bool.false_ne_true)]

lemma observed_append_of_unseen (h : ∀ i ∈ inputs, seen i = false) :
    observed step seen s (inputs ++ more) = observed step seen (Runs.run (next step) s inputs) more := by
  induction inputs generalizing s with
  | nil => rfl
  | cons i inputs ih =>
    obtain ⟨hi, hrest⟩ := List.forall_mem_cons.mp h
    rw [List.cons_append, observed_cons_of_unseen hi, ih hrest, Runs.run_cons]

lemma map_fst_observed : (observed step seen s inputs).map Prod.fst = inputs.filter seen := by
  induction inputs generalizing s with
  | nil => rfl
  | cons i inputs ih =>
    cases hi : seen i with
    | false => rw [observed_cons_of_unseen hi, ih, List.filter_cons_of_neg (by simp [hi])]
    | true => rw [observed_cons_of_seen hi, List.map_cons, ih, List.filter_cons_of_pos hi]

lemma filter_observed {seen' : ι → Bool} (h : ∀ i, seen' i = true → seen i = true) :
    (observed step seen s inputs).filter (fun entry => seen' entry.1) = observed step seen' s inputs := by
  induction inputs generalizing s with
  | nil => rfl
  | cons i inputs ih =>
    cases hi' : seen' i with
    | true =>
      rw [observed_cons_of_seen (h i hi'), observed_cons_of_seen hi',
        List.filter_cons_of_pos (by simpa using hi'), ih]
    | false =>
      rw [observed_cons_of_unseen hi']
      cases hi : seen i with
      | false => rw [observed_cons_of_unseen hi, ih]
      | true => rw [observed_cons_of_seen hi, List.filter_cons_of_neg (by simp [hi']), ih]

lemma related_of_unseen (hunseen : ∀ s t i, seen i = false → cond s i → R t s → R t (next step s i))
    (hinputs : ∀ i ∈ inputs, seen i = false) (hcond : Runs.Along (next step) cond s inputs)
    (hR : R t s) : R t (Runs.run (next step) s inputs) := by
  induction inputs generalizing s with
  | nil => exact hR
  | cons i inputs ih =>
    obtain ⟨hi, hrest⟩ := List.forall_mem_cons.mp hinputs
    exact ih hrest hcond.2 (hunseen s t i hi hcond.1 hR)

/-- Histories with the same seen inputs show the same answers. -/
theorem observed_eq (hsymm : ∀ s t, R s t → R t s)
    (hunseen : ∀ s t i, seen i = false → cond s i → R t s → R t (next step s i))
    (hseen : ∀ s t i, seen i = true → cond s i → cond t i → R s t →
      (step s i).2 = (step t i).2 ∧ R (next step s i) (next step t i))
    (hR : R s t) (hs : Runs.Along (next step) cond s inputs)
    (ht : Runs.Along (next step) cond t inputs') (hsame : inputs.filter seen = inputs'.filter seen) :
    observed step seen s inputs = observed step seen t inputs' := by
  induction inputs generalizing s t inputs' with
  | nil =>
    -- Nothing is seen on either side.
    have hnone : (observed step seen t inputs').map Prod.fst = [] := map_fst_observed.trans hsame.symm
    exact (List.map_eq_nil_iff.mp hnone).symm
  | cons i inputs ih =>
    cases hi : seen i with
    | false =>
      rw [List.filter_cons_of_neg (by simp [hi])] at hsame
      rw [observed_cons_of_unseen hi]
      exact ih (hsymm _ _ (hunseen s t i hi hs.1 (hsymm _ _ hR))) hs.2 ht hsame
    | true =>
      -- The other history comes to the same input after some unseen ones.
      rw [List.filter_cons_of_pos hi] at hsame
      obtain ⟨before, after, rfl, hbefore, -, hafter⟩ := List.filter_eq_cons_iff.mp hsame.symm
      have hskipped : ∀ j ∈ before, seen j = false := fun j hj => by simpa using hbefore j hj
      obtain ⟨hbeforeCond, hiCond, hafterCond⟩ := Runs.along_append.mp ht
      have hmid := related_of_unseen hunseen hskipped hbeforeCond hR
      obtain ⟨hanswer, hnext⟩ := hseen _ _ i hi hs.1 hiCond hmid
      rw [observed_append_of_unseen hskipped, observed_cons_of_seen hi, observed_cons_of_seen hi,
        hanswer, ih hnext hs.2 hafterCond hafter.symm]

end Interference
