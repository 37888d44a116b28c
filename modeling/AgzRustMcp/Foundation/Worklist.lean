import Mathlib

/-!
# Worklists

A worklist keeps what it has seen and a queue of what it has not looked behind yet.  `Inv` is what
every turn keeps; with an empty queue it says that the seen things are those that chains of steps
reach from the seeds.  Within a finite universe the worklist ends (`exists_close`).
-/

namespace Worklist

variable {α : Type*} {next : α → List α} {seeds : Set α}

/-- A chain of steps leads from one of the seeds. -/
def Reached (next : α → List α) (seeds : Set α) (x : α) : Prop :=
  ∃ seed ∈ seeds, Relation.ReflTransGen (fun a b => b ∈ next a) seed x

/-- What is seen is reached, and steps lead out only from the queue. -/
structure Inv (next : α → List α) (seeds seen : Set α) (queue : List α) : Prop where
  seeds_subset : seeds ⊆ seen
  reached : ∀ x ∈ seen, Reached next seeds x
  queue_subset : ∀ x ∈ queue, x ∈ seen
  closed : ∀ x ∈ seen, x ∈ queue ∨ ∀ y ∈ next x, y ∈ seen

lemma inv_seeds {queue : List α} (h : ∀ x, x ∈ queue ↔ x ∈ seeds) : Inv next seeds seeds queue :=
  ⟨subset_rfl, fun x hx => ⟨x, hx, .refl⟩, fun x hx => (h x).mp hx, fun x hx => Or.inl ((h x).mpr hx)⟩

/-- A turn takes the first of the queue, and sees and queues what is new behind it. -/
theorem Inv.step {seen seen' : Set α} {first : α} {queue queue' : List α}
    (h : Inv next seeds seen (first :: queue)) (hseen : ∀ x, x ∈ seen' ↔ x ∈ seen ∨ x ∈ next first)
    (hqueue : ∀ x, x ∈ queue' ↔ x ∈ queue ∨ x ∈ next first ∧ x ∉ seen) : Inv next seeds seen' queue' := by
  refine ⟨fun x hx => (hseen x).mpr (Or.inl (h.seeds_subset hx)), fun x hx => ?_, fun x hx => ?_,
    fun x hx => ?_⟩
  · rcases (hseen x).mp hx with hold | hnew
    · exact h.reached x hold
    · obtain ⟨seed, hseed, hchain⟩ := h.reached first (h.queue_subset first List.mem_cons_self)
      exact ⟨seed, hseed, hchain.tail hnew⟩
  · rcases (hqueue x).mp hx with hold | ⟨hnew, -⟩
    · exact (hseen x).mpr (Or.inl (h.queue_subset x (List.mem_cons_of_mem _ hold)))
    · exact (hseen x).mpr (Or.inr hnew)
  · by_cases hold : x ∈ seen
    · rcases h.closed x hold with hwaiting | hclosed
      · rcases List.mem_cons.mp hwaiting with rfl | hwaiting
        · exact Or.inr fun y hy => (hseen y).mpr (Or.inr hy)
        · exact Or.inl ((hqueue x).mpr (Or.inl hwaiting))
      · exact Or.inr fun y hy => (hseen y).mpr (Or.inl (hclosed y hy))
    · exact Or.inl ((hqueue x).mpr (Or.inr ⟨((hseen x).mp hx).resolve_left hold, hold⟩))

/-- When the queue is empty, what is seen is what is reached. -/
theorem Inv.mem_iff {seen : Set α} (h : Inv next seeds seen []) (x : α) : x ∈ seen ↔ Reached next seeds x := by
  refine ⟨h.reached x, ?_⟩
  rintro ⟨seed, hseed, hchain⟩
  induction hchain with
  | refl => exact h.seeds_subset hseed
  | tail _ hstep ih => exact ((h.closed _ ih).resolve_left List.not_mem_nil) _ hstep

section

variable {first : α} {seen queue : List α}

end

/-! ## The loop -/

variable [DecidableEq α]

/-- See a thing, and queue it when it is new. -/
def push (state : Finset α × List α) (x : α) : Finset α × List α :=
  if x ∈ state.1 then state else (insert x state.1, state.2 ++ [x])

lemma mem_pushAll (xs : List α) (state : Finset α × List α) (x : α) :
    (x ∈ (xs.foldl push state).1 ↔ x ∈ state.1 ∨ x ∈ xs) ∧
      (x ∈ (xs.foldl push state).2 ↔ x ∈ state.2 ∨ x ∈ xs ∧ x ∉ state.1) := by
  induction xs generalizing state with
  | nil => simp
  | cons y ys ih =>
    obtain ⟨hseen, hqueue⟩ := ih (push state y)
    rw [List.foldl_cons, hseen, hqueue]
    unfold push
    split_ifs with hy
    · refine ⟨?_, ?_⟩
      · rw [List.mem_cons]
        refine ⟨fun h => h.imp_right Or.inr, fun h => ?_⟩
        rcases h with h | rfl | h
        · exact Or.inl h
        · exact Or.inl hy
        · exact Or.inr h
      · rw [List.mem_cons]
        refine ⟨fun h => h.imp_right fun ⟨hmem, hnot⟩ => ⟨Or.inr hmem, hnot⟩, fun h => ?_⟩
        rcases h with h | ⟨rfl | hmem, hnot⟩
        · exact Or.inl h
        · exact absurd hy hnot
        · exact Or.inr ⟨hmem, hnot⟩
    · simp only [Finset.mem_insert, List.mem_append, List.mem_cons]
      constructor
      · tauto
      · by_cases hxy : x = y
        · subst hxy
          tauto
        · tauto

lemma length_pushAll (xs : List α) (state : Finset α × List α) :
    (xs.foldl push state).2.length + state.1.card = state.2.length + (xs.foldl push state).1.card := by
  induction xs generalizing state with
  | nil => rfl
  | cons y ys ih =>
    have hrest := ih (push state y)
    have hpush : (push state y).2.length + state.1.card = state.2.length + (push state y).1.card := by
      unfold push
      split_ifs with hy
      · rfl
      · rw [List.length_append, Finset.card_insert_of_notMem hy, List.length_singleton]
        omega
    rw [List.foldl_cons]
    omega

/-- The loop over the queue; a turn of `fuel` takes its first element. -/
def close (next : α → List α) : ℕ → Finset α × List α → Option (Finset α)
  | _, (seen, []) => some seen
  | 0, (_, _ :: _) => none
  | fuel + 1, (seen, first :: queue) => close next fuel ((next first).foldl push (seen, queue))

def closeFrom (next : α → List α) (fuel : ℕ) (seeds : List α) : Option (Finset α) :=
  close next fuel (seeds.foldl push (∅, []))

/-- With fuel for the queue the loop ends with what is reached. -/
theorem exists_close {fuel : ℕ} {state : Finset α × List α} {all : Finset α}
    (hinv : Inv next seeds state.1 state.2) (hall : state.1 ⊆ all) (hnext : ∀ x ∈ all, ∀ y ∈ next x, y ∈ all)
    (hfuel : state.2.length + all.card ≤ fuel + state.1.card) :
    ∃ result, close next fuel state = some result ∧ ∀ x, x ∈ result ↔ Reached next seeds x := by
  induction fuel generalizing state with
  | zero =>
    obtain ⟨seen, queue⟩ := state
    have hcard := Finset.card_le_card hall
    dsimp only at hcard hfuel
    obtain rfl : queue = [] := List.eq_nil_of_length_eq_zero (by omega)
    exact ⟨seen, by rw [close], fun x => hinv.mem_iff x⟩
  | succ fuel ih =>
    obtain ⟨seen, queue⟩ := state
    cases queue with
    | nil => exact ⟨seen, by rw [close], fun x => hinv.mem_iff x⟩
    | cons first queue =>
      rw [close]
      have hmem := mem_pushAll (next first) (seen, queue)
      have hlen := length_pushAll (next first) (seen, queue)
      have hfirst : first ∈ all := hall (hinv.queue_subset first List.mem_cons_self)
      refine ih (hinv.step (fun x => (hmem x).1) fun x => (hmem x).2) (fun x hx => ?_) ?_
      · rcases ((hmem x).1).mp hx with hold | hnew
        · exact hall hold
        · exact hnext first hfirst x hnew
      · simp only [List.length_cons] at hfuel hlen ⊢
        omega

/-- From seeds on, the loop ends with what they reach. -/
theorem exists_closeFrom {fuel : ℕ} {seeds : List α} {all : Finset α} (hall : ∀ x ∈ seeds, x ∈ all)
    (hnext : ∀ x ∈ all, ∀ y ∈ next x, y ∈ all) (hfuel : all.card ≤ fuel) :
    ∃ result, closeFrom next fuel seeds = some result ∧ ∀ x, x ∈ result ↔ Reached next {x | x ∈ seeds} x := by
  have hmem := mem_pushAll seeds (∅, [])
  have hlen := length_pushAll seeds (∅, [])
  have hseen : (↑(seeds.foldl push (∅, [])).1 : Set α) = {x | x ∈ seeds} := by
    ext x
    simpa using (hmem x).1
  refine exists_close ?_ (fun x hx => hall x (by simpa using ((hmem x).1).mp hx)) hnext ?_
  · rw [hseen]
    exact inv_seeds fun x => by simpa using (hmem x).2
  · simp only [Finset.card_empty, List.length_nil] at hlen
    omega

end Worklist
