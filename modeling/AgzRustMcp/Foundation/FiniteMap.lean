import Mathlib

/-!
# Totals over finite maps

`total w m` adds up a weight over the entries of a finite map.  `total_insert` says how one
insertion changes the total, whether the key was there or not, which is what an incrementally
maintained count or size relies on.
-/

namespace FiniteMap

variable {κ α M : Type*} [AddCommMonoid M]

/-- The sum of the weight `w` over the entries of a finite map. -/
def total (w : κ → α → M) (m : Finmap fun _ : κ => α) : M :=
  (m.entries.map fun e => w e.1 e.2).sum

variable [DecidableEq κ]

/-- The weight of the entry at `k`, zero when there is none. -/
def weightAt (w : κ → α → M) (m : Finmap fun _ : κ => α) (k : κ) : M :=
  ((m.lookup k).map (w k)).getD 0

private lemma sum_kerase (w : κ → α → M) (k : κ) (l : List (Sigma fun _ : κ => α)) : (l.map fun e => w e.1 e.2).sum =
      ((l.dlookup k).map (w k)).getD 0 + ((l.kerase k).map fun e => w e.1 e.2).sum := by
  induction l with
  | nil => simp
  | cons e l ih =>
    obtain ⟨k', v⟩ := e
    by_cases h : k = k'
    · subst h
      simp
    · rw [List.dlookup_cons_ne _ _ h, List.kerase_cons_ne h, List.map_cons, List.sum_cons, ih,
        List.map_cons, List.sum_cons, ← add_assoc, ← add_assoc, add_comm (w k' v)]

lemma total_insert (w : κ → α → M) (m : Finmap fun _ : κ => α) (k : κ) (v : α) :
    total w (m.insert k v) + weightAt w m k = total w m + w k v := by
  induction m using Finmap.induction_on with
  | _ s =>
    have hins : total w (s.toFinmap.insert k v) = w k v + ((s.entries.kerase k).map fun e => w e.1 e.2).sum := by
      rw [Finmap.insert_toFinmap]
      simp [total, AList.toFinmap, AList.entries_insert]
    have hsplit : total w s.toFinmap = weightAt w s.toFinmap k +
          ((s.entries.kerase k).map fun e => w e.1 e.2).sum := by
      unfold weightAt
      rw [Finmap.lookup_toFinmap]
      simpa [total, AList.toFinmap, AList.lookup] using sum_kerase w k s.entries
    rw [hins, hsplit]
    abel

lemma total_insert_of_lookup_none (w : κ → α → M) {m : Finmap fun _ : κ => α} {k : κ} (v : α)
    (h : m.lookup k = none) : total w (m.insert k v) = total w m + w k v := by
  have hins := total_insert w m k v
  simpa [weightAt, h] using hins

lemma total_eq_add_erase (w : κ → α → M) {m : Finmap fun _ : κ => α} {k : κ} {v : α}
    (h : m.lookup k = some v) : total w m = w k v + total w (m.erase k) := by
  have hm : m = (m.erase k).insert k v := by
    refine Finmap.ext_lookup fun x => ?_
    by_cases hx : x = k
    · subst hx
      rw [Finmap.lookup_insert, h]
    · rw [Finmap.lookup_insert_of_ne _ hx, Finmap.lookup_erase_ne hx]
  conv_lhs => rw [hm]
  rw [total_insert_of_lookup_none w v (Finmap.lookup_erase k m), add_comm]

lemma total_eq_sum_weightAt (w : κ → α → M) {m : Finmap fun _ : κ => α} {keys : List κ}
    (hnodup : keys.Nodup) (hmem : ∀ k, m.lookup k ≠ none → k ∈ keys) : total w m = (keys.map (weightAt w m)).sum := by
  induction keys generalizing m with
  | nil =>
    have hempty : m = ∅ := by
      refine Finmap.ext_lookup fun k => ?_
      simpa using mt (hmem k)
    subst hempty
    rfl
  | cons k keys ih =>
    obtain ⟨hk, hnodup⟩ := List.nodup_cons.mp hnodup
    have hrest : keys.map (weightAt w (m.erase k)) = keys.map (weightAt w m) := by
      refine List.map_congr_left fun q hq => ?_
      have hne : q ≠ k := fun heq => hk (heq ▸ hq)
      unfold weightAt
      rw [Finmap.lookup_erase_ne hne]
    cases hv : m.lookup k with
    | none =>
      have hih := ih (m := m) hnodup fun q hq => by
        rcases List.mem_cons.mp (hmem q hq) with rfl | hq'
        · exact absurd hv hq
        · exact hq'
      rw [hih, List.map_cons, List.sum_cons]
      simp [weightAt, hv]
    | some v =>
      have hih := ih (m := m.erase k) hnodup fun q hq => by
        have hne : q ≠ k := by
          rintro rfl
          simp at hq
        rw [Finmap.lookup_erase_ne hne] at hq
        exact (List.mem_cons.mp (hmem q hq)).resolve_left hne
      rw [total_eq_add_erase w hv, hih, hrest, List.map_cons, List.sum_cons]
      simp [weightAt, hv]

end FiniteMap
