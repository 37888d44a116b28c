import Mathlib

/-!
# Filling an ordered map from a list

`insertAll` inserts the entries of a list into an ordered map, later entries over earlier ones, as
extending a map by a list of pairs does.  The lemmas say which value a key has afterwards.
-/

namespace OrderedMap

open Std (ExtTreeMap TransCmp LawfulEqCmp)

variable {α β : Type*} {cmp : α → α → Ordering} [TransCmp cmp]

def insertAll (map : ExtTreeMap α β cmp) (entries : List (α × β)) : ExtTreeMap α β cmp :=
  entries.foldl (fun m entry => m.insert entry.1 entry.2) map

variable [LawfulEqCmp cmp] {map : ExtTreeMap α β cmp} {entries : List (α × β)} {k : α} {v : β}

lemma getElem?_insertAll_of_notMem (map : ExtTreeMap α β cmp)
    (h : k ∉ entries.map Prod.fst) : (insertAll map entries)[k]? = map[k]? := by
  unfold insertAll
  induction entries generalizing map with
  | nil => rfl
  | cons entry entries ih =>
    rw [List.map_cons, List.mem_cons, not_or] at h
    rw [List.foldl_cons, ih _ h.2, ExtTreeMap.getElem?_insert, if_neg]
    rw [Std.LawfulEqCmp.compare_eq_iff_eq]
    exact Ne.symm h.1

lemma exists_mem_of_mem_keys (map : ExtTreeMap α β cmp) (h : k ∈ entries.map Prod.fst) :
    ∃ v, (k, v) ∈ entries ∧ (insertAll map entries)[k]? = some v := by
  induction entries generalizing map with
  | nil => simp at h
  | cons entry entries ih =>
    by_cases hrest : k ∈ entries.map Prod.fst
    · obtain ⟨v, hv, hget⟩ := ih (map.insert entry.1 entry.2) hrest
      exact ⟨v, List.mem_cons_of_mem _ hv, hget⟩
    · obtain rfl : k = entry.1 := by
        rcases List.mem_cons.mp h with h | h
        · exact h
        · exact absurd h hrest
      refine ⟨entry.2, List.mem_cons_self, ?_⟩
      have hkeep := getElem?_insertAll_of_notMem (map.insert entry.1 entry.2) hrest
      rw [ExtTreeMap.getElem?_insert_self] at hkeep
      exact hkeep

lemma getElem?_insertAll_of_mem (map : ExtTreeMap α β cmp)
    (hnodup : (entries.map Prod.fst).Nodup) (h : (k, v) ∈ entries) : (insertAll map entries)[k]? = some v := by
  obtain ⟨w, hw, hget⟩ := exists_mem_of_mem_keys map (List.mem_map_of_mem (f := Prod.fst) h)
  have hsame : (k, w) = (k, v) := List.inj_on_of_nodup_map hnodup hw h rfl
  rw [hget, (Prod.mk.inj hsame).2]

lemma mem_or_getElem?_of_insertAll (h : (insertAll map entries)[k]? = some v) :
    (k, v) ∈ entries ∨ (k ∉ entries.map Prod.fst ∧ map[k]? = some v) := by
  by_cases hk : k ∈ entries.map Prod.fst
  · obtain ⟨w, hw, hget⟩ := exists_mem_of_mem_keys map hk
    obtain rfl : w = v := Option.some.inj (hget.symm.trans h)
    exact Or.inl hw
  · exact Or.inr ⟨hk, by rwa [getElem?_insertAll_of_notMem map hk] at h⟩

end OrderedMap
