import Mathlib

/-!
# The weight of an ordered map

`weight` is the sum of the weights of the values of an ordered map.  A value that takes the place of
another changes it by the difference, and a key that is taken out by its value.
-/

namespace OrderedMap

open Std (ExtTreeMap TransCmp LawfulEqCmp)

variable {α β : Type*} {cmp : α → α → Ordering} [TransCmp cmp]

/-- The sum of the weights of all values. -/
def weight [DecidableEq α] (w : β → ℕ) (map : ExtTreeMap α β cmp) : ℕ :=
  ∑ k ∈ map.keys.toFinset, (map[k]?.map w).getD 0

variable [LawfulEqCmp cmp] {w : β → ℕ} {map : ExtTreeMap α β cmp} {k : α} {v v' : β}

lemma getElem?_insert_of_ne {j : α} (h : j ≠ k) : (map.insert k v)[j]? = map[j]? := by
  rw [ExtTreeMap.getElem?_insert, if_neg]
  rw [LawfulEqCmp.compare_eq_iff_eq]
  exact Ne.symm h

lemma getElem?_erase_of_ne {j : α} (h : j ≠ k) : (map.erase k)[j]? = map[j]? := by
  rw [ExtTreeMap.getElem?_erase, if_neg]
  rw [LawfulEqCmp.compare_eq_iff_eq]
  exact Ne.symm h

lemma nodup_keys_toList (map : ExtTreeMap α β cmp) : (map.toList.map Prod.fst).Nodup := by
  rw [List.nodup_iff_pairwise_ne, List.pairwise_map]
  exact map.distinct_keys_toList.imp fun h heq => h (LawfulEqCmp.compare_eq_iff_eq.mpr heq)

section Weight

variable [DecidableEq α]

lemma weight_eq_add (h : map[k]? = some v) :
    weight w map = w v + ∑ j ∈ map.keys.toFinset.erase k, (map[j]?.map w).getD 0 := by
  have hk : k ∈ map.keys.toFinset := by
    rw [List.mem_toFinset, ExtTreeMap.mem_keys, ExtTreeMap.mem_iff_isSome_getElem?, h]
    rfl
  rw [weight, ← Finset.add_sum_erase _ _ hk, h]
  rfl

lemma weight_insert (h : map[k]? = some v) : weight w (map.insert k v') + w v = weight w map + w v' := by
  have hkeys : (map.insert k v').keys.toFinset = map.keys.toFinset := by
    ext j
    simp only [List.mem_toFinset, ExtTreeMap.mem_keys, ExtTreeMap.mem_iff_isSome_getElem?]
    by_cases hj : j = k
    · subst hj
      simp [h]
    · rw [getElem?_insert_of_ne hj]
  have hrest : ∑ j ∈ map.keys.toFinset.erase k, ((map.insert k v')[j]?.map w).getD 0 =
      ∑ j ∈ map.keys.toFinset.erase k, (map[j]?.map w).getD 0 :=
    Finset.sum_congr rfl fun j hj => by rw [getElem?_insert_of_ne (Finset.ne_of_mem_erase hj)]
  have hself : (map.insert k v')[k]? = some v' := ExtTreeMap.getElem?_insert_self
  rw [weight_eq_add hself, weight_eq_add h, hkeys, hrest]
  omega

lemma weight_erase (h : map[k]? = some v) : weight w (map.erase k) + w v = weight w map := by
  have hkeys : (map.erase k).keys.toFinset = map.keys.toFinset.erase k := by
    ext j
    simp only [List.mem_toFinset, Finset.mem_erase, ExtTreeMap.mem_keys, ExtTreeMap.mem_iff_isSome_getElem?]
    by_cases hj : j = k
    · subst hj
      simp
    · rw [getElem?_erase_of_ne hj]
      simp [hj]
  rw [weight_eq_add h, weight, hkeys, Nat.add_comm]
  congr 1
  exact Finset.sum_congr rfl fun j hj => by rw [getElem?_erase_of_ne (Finset.ne_of_mem_erase hj)]

lemma weight_erase_of_none (h : map[k]? = none) : map.erase k = map := by
  refine ExtTreeMap.ext_getElem? fun j => ?_
  by_cases hj : j = k
  · subst hj
    simp [h]
  · exact getElem?_erase_of_ne hj

end Weight

end OrderedMap
