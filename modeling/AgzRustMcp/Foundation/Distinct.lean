import Mathlib

/-!
# Lists that grow without repetition

`insertNew` appends an item unless one with its key is there.  The keys of the list are then those of all
the items that were offered, each once.
-/

namespace Distinct

def insertNew {α β : Type*} [BEq β] (key : α → β) (items : List α) (item : α) : List α :=
  if items.any (fun other => key other == key item) then items else items ++ [item]

variable {α β : Type*} [BEq β] {key : α → β} {items : List α} {item : α}

lemma mem_insertNew {other : α} (h : other ∈ insertNew key items item) : other ∈ items ∨ other = item := by
  unfold insertNew at h
  split_ifs at h
  · exact Or.inl h
  · simpa using h

variable [LawfulBEq β]

lemma any_key_iff : items.any (fun other => key other == key item) = true ↔ key item ∈ items.map key := by
  simp [List.any_eq_true, List.mem_map]

lemma mem_map_insertNew {k : β} : k ∈ (insertNew key items item).map key ↔ k ∈ items.map key ∨ k = key item := by
  unfold insertNew
  split_ifs with hany
  · have hmem := any_key_iff.mp hany
    constructor
    · exact Or.inl
    · rintro (h | rfl)
      · exact h
      · exact hmem
  · simp

lemma nodup_insertNew (h : (items.map key).Nodup) : ((insertNew key items item).map key).Nodup := by
  unfold insertNew
  split_ifs with hany
  · exact h
  · rw [any_key_iff] at hany
    rw [List.map_append, List.map_singleton]
    exact List.Nodup.append h (List.nodup_singleton _) (by simpa using hany)

lemma foldl_insertNew_of_nodup {offered : List α} (h : ((items ++ offered).map key).Nodup) :
    offered.foldl (insertNew key) items = items ++ offered := by
  induction offered generalizing items with
  | nil => exact (List.append_nil items).symm
  | cons item offered ih =>
    have hnew : key item ∉ items.map key := by
      rw [List.map_append, List.nodup_append] at h
      exact fun hmem => h.2.2 _ hmem (key item) List.mem_cons_self rfl
    rw [List.foldl_cons, insertNew, if_neg (mt any_key_iff.mp hnew)]
    rw [← List.singleton_append, ← List.append_assoc] at h
    rw [ih h, List.append_assoc, List.singleton_append]

lemma nodup_foldl_insertNew (offered : List α) (h : (items.map key).Nodup) :
    ((offered.foldl (insertNew key) items).map key).Nodup := by
  induction offered generalizing items with
  | nil => exact h
  | cons item offered ih => exact ih (nodup_insertNew h)

end Distinct
