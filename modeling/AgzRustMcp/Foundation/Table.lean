import Mathlib

/-!
# Lists as tables

A list whose entries are known by their numbers is a table: entries are appended and changed in place.
These lemmas say what an append and a change do to the entry at a number and to the number of entries
with a property.
-/

namespace Table

variable {α : Type*} {l : List α} {k j : ℕ} {a b : α} {f : α → α} {p : α → Bool}

lemma getElem?_modify_eq_some_iff :
    (l.modify k f)[j]? = some b ↔ ∃ a, l[j]? = some a ∧ b = if k = j then f a else a := by
  rw [List.getElem?_modify]
  cases l[j]? with
  | none => simp
  | some a => simp [eq_comm]

lemma getElem?_append_singleton_eq_some_iff : (l ++ [a])[j]? = some b ↔ l[j]? = some b ∨ j = l.length ∧ b = a := by
  rcases Nat.lt_trichotomy j l.length with hj | rfl | hj
  · rw [List.getElem?_append_left hj]
    constructor
    · exact Or.inl
    · rintro (h | ⟨rfl, -⟩)
      · exact h
      · exact absurd hj (lt_irrefl _)
  · simp [eq_comm]
  · rw [List.getElem?_eq_none (by simpa using hj)]
    constructor
    · intro h
      cases h
    · rintro (h | ⟨rfl, -⟩)
      · rw [List.getElem?_eq_none hj.le] at h
        exact h
      · exact absurd hj (lt_irrefl _)

lemma lt_length_of_getElem? (h : l[k]? = some a) : k < l.length :=
  (List.getElem?_eq_some_iff.mp h).1

lemma countP_modify (h : l[k]? = some a) :
    (l.modify k f).countP p + (if p a then 1 else 0) = l.countP p + if p (f a) then 1 else 0 := by
  induction l generalizing k with
  | nil => simp at h
  | cons x l ih =>
    cases k with
    | zero =>
      obtain rfl : x = a := by simpa using h
      simp only [List.modify_zero_cons, List.countP_cons]
      omega
    | succ k =>
      have hrest := ih (k := k) (by simpa using h)
      simp only [List.modify_succ_cons, List.countP_cons]
      omega

end Table
