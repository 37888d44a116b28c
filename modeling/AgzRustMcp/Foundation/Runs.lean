import Mathlib

/-!
# Runs of a machine

A machine is a function `step : σ → ι → σ`, and `run` feeds it a list of inputs.  `Along` says that
every input meets a condition in the state in which it arrives; `Along.invariant` carries an
invariant through a run.
-/

namespace Runs

variable {σ ι : Type*}

def run (step : σ → ι → σ) (s : σ) (inputs : List ι) : σ := inputs.foldl step s

/-- Every input of the run meets the condition in the state in which it arrives. -/
def Along (step : σ → ι → σ) (cond : σ → ι → Prop) : σ → List ι → Prop
  | _, [] => True
  | s, i :: inputs => cond s i ∧ Along step cond (step s i) inputs

variable {step : σ → ι → σ} {cond cond' : σ → ι → Prop} {s : σ} {i : ι} {inputs more : List ι}

@[simp] lemma along_nil : Along step cond s [] := trivial

@[simp] lemma along_cons : Along step cond s (i :: inputs) ↔ cond s i ∧ Along step cond (step s i) inputs := Iff.rfl

@[simp] lemma run_nil : run step s [] = s := rfl

@[simp] lemma run_cons : run step s (i :: inputs) = run step (step s i) inputs := rfl

lemma run_append : run step s (inputs ++ more) = run step (run step s inputs) more :=
  List.foldl_append

lemma along_append : Along step cond s (inputs ++ more) ↔
    Along step cond s inputs ∧ Along step cond (run step s inputs) more := by
  induction inputs generalizing s with
  | nil => simp
  | cons i inputs ih => simp only [List.cons_append, along_cons, run_cons, ih, and_assoc]

/-- A decidable condition can be checked along a run, input by input. -/
instance decidableAlong [∀ t i, Decidable (cond t i)] :
    (s : σ) → (inputs : List ι) → Decidable (Along step cond s inputs)
  | _, [] => .isTrue trivial
  | s, i :: inputs =>
    letI := decidableAlong (step s i) inputs
    inferInstanceAs (Decidable (cond s i ∧ Along step cond (step s i) inputs))

lemma Along.mono (h : Along step cond s inputs) (hcond : ∀ t i, cond t i → cond' t i) :
    Along step cond' s inputs := by
  induction inputs generalizing s with
  | nil => trivial
  | cons i inputs ih => exact ⟨hcond _ _ h.1, ih h.2⟩

lemma along_of_forall (hcond : ∀ t i, cond t i) : Along step cond s inputs := by
  induction inputs generalizing s with
  | nil => trivial
  | cons i inputs ih => exact ⟨hcond _ _, ih⟩

lemma along_of_forall_mem (hcond : ∀ i ∈ inputs, ∀ t, cond t i) : Along step cond s inputs := by
  induction inputs generalizing s with
  | nil => trivial
  | cons i inputs ih =>
    exact ⟨hcond i List.mem_cons_self s, ih fun j hj => hcond j (List.mem_cons_of_mem _ hj)⟩

lemma Along.invariant {P : σ → Prop} (h : Along step cond s inputs)
    (hstep : ∀ t i, P t → cond t i → P (step t i)) (hs : P s) : P (run step s inputs) := by
  induction inputs generalizing s with
  | nil => exact hs
  | cons i inputs ih => exact ih h.2 (hstep s i hs h.1)

lemma invariant {P : σ → Prop} (hstep : ∀ t i, P t → P (step t i)) (hs : P s) : P (run step s inputs) := by
  have halong : Along step (fun _ _ => True) s inputs := along_of_forall fun _ _ => trivial
  exact halong.invariant (fun t i ht _ => hstep t i ht) hs

/-- Every state of the run has the property, the first and the last included. -/
def Throughout (step : σ → ι → σ) (P : σ → Prop) : σ → List ι → Prop
  | s, [] => P s
  | s, i :: inputs => P s ∧ Throughout step P (step s i) inputs

@[simp] lemma throughout_nil {P : σ → Prop} : Throughout step P s [] ↔ P s := Iff.rfl

@[simp] lemma throughout_cons {P : σ → Prop} :
    Throughout step P s (i :: inputs) ↔ P s ∧ Throughout step P (step s i) inputs := Iff.rfl

lemma Throughout.first {P : σ → Prop} (h : Throughout step P s inputs) : P s := by
  cases inputs with
  | nil => exact h
  | cons i inputs => exact h.1

lemma Throughout.last {P : σ → Prop} (h : Throughout step P s inputs) : P (run step s inputs) := by
  induction inputs generalizing s with
  | nil => exact h
  | cons i inputs ih => exact ih h.2

lemma Along.throughout {P : σ → Prop} (h : Along step cond s inputs)
    (hstep : ∀ t i, P t → cond t i → P (step t i)) (hs : P s) : Throughout step P s inputs := by
  induction inputs generalizing s with
  | nil => exact hs
  | cons i inputs ih => exact ⟨hs, ih h.2 (hstep s i hs h.1)⟩

lemma Throughout.mono {P Q : σ → Prop} (h : Throughout step P s inputs) (himp : ∀ t, P t → Q t) :
    Throughout step Q s inputs := by
  induction inputs generalizing s with
  | nil => exact himp s h
  | cons i inputs ih => exact ⟨himp s h.1, ih h.2⟩

/-- A decidable property can be checked state by state. -/
instance decidableThroughout {P : σ → Prop} [DecidablePred P] :
    (s : σ) → (inputs : List ι) → Decidable (Throughout step P s inputs)
  | s, [] => inferInstanceAs (Decidable (P s))
  | s, i :: inputs =>
    letI := decidableThroughout (P := P) (step s i) inputs
    inferInstanceAs (Decidable (P s ∧ Throughout step P (step s i) inputs))

lemma throughout_iff_along {P I : σ → Prop} (hinv : ∀ t i, I t → I (step t i))
    (hstep : ∀ t i, I t → P t → (P (step t i) ↔ cond t i)) (hs : I s) (hP : P s) :
    Throughout step P s inputs ↔ Along step cond s inputs := by
  induction inputs generalizing s with
  | nil => exact iff_of_true hP trivial
  | cons i inputs ih =>
    rw [throughout_cons, along_cons]
    constructor
    · rintro ⟨-, hrest⟩
      have hnext : P (step s i) := hrest.first
      exact ⟨(hstep s i hs hP).mp hnext, (ih (hinv s i hs) hnext).mp hrest⟩
    · rintro ⟨hcond, hrest⟩
      have hnext : P (step s i) := (hstep s i hs hP).mpr hcond
      exact ⟨hP, (ih (hinv s i hs) hnext).mpr hrest⟩

end Runs
