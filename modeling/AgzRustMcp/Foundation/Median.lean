import Mathlib

/-!
# Medians and spreads

The median of a series is the middle of the sorted series, the upper one of two.  `spreadOver` compares the
distance between the ends of a series with a share of its median, in exact fractions; `within_of_not_spreadOver`
says it of every two values.
-/

namespace Median

/-- The middle of a series in order. -/
def median (values : List ℕ) : Option ℕ := (values.insertionSort (· ≤ ·))[values.length / 2]?

/-- The ends of a series are further apart than a share of its median. -/
def spreadOver (share : ℚ) (median min max : Option ℕ) : Bool :=
  match median, min, max with
  | some median, some min, some max => decide (0 < median ∧ share < ((max - min : ℕ) : ℚ) / median)
  | _, _, _ => false

variable {values : List ℕ}

lemma within_of_not_spreadOver {share : ℚ} {m : ℕ} (hm : median values = some m) (hpos : 0 < m)
    (h : spreadOver share (median values) values.min? values.max? = false) {x y : ℕ} (hx : x ∈ values)
    (hy : y ∈ values) : ((x : ℚ) - y) ≤ share * m := by
  obtain ⟨low, hlow⟩ : ∃ low, values.min? = some low := by
    cases hmin : values.min? with
    | none => rw [List.min?_eq_none_iff.mp hmin] at hx; exact absurd hx List.not_mem_nil
    | some low => exact ⟨low, rfl⟩
  obtain ⟨high, hhigh⟩ : ∃ high, values.max? = some high := by
    cases hmax : values.max? with
    | none => rw [List.max?_eq_none_iff.mp hmax] at hx; exact absurd hx List.not_mem_nil
    | some high => exact ⟨high, rfl⟩
  have hxhigh : x ≤ high := (List.max?_eq_some_iff.mp hhigh).2 x hx
  have hylow : low ≤ y := (List.min?_eq_some_iff.mp hlow).2 y hy
  rw [hm, hlow, hhigh, spreadOver, decide_eq_false_iff_not, not_and, not_lt] at h
  have hspread := h hpos
  rw [div_le_iff₀ (Nat.cast_pos.mpr hpos)] at hspread
  have hends : ((x : ℚ) - y) ≤ ((high - low : ℕ) : ℚ) := by
    have hle : x ≤ y + (high - low) := by omega
    have hcast : (x : ℚ) ≤ y + ((high - low : ℕ) : ℚ) := by exact_mod_cast hle
    linarith
  exact hends.trans hspread

end Median
