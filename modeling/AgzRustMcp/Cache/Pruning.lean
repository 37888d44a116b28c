import AgzRustMcp.Cache.Eviction

/-!
# Pruning within the budgets

`exists_budgetPass` describes the second pass: an initial part of the entries that are not leased,
from the least recently used one on.  It may end too early where a sum has stopped at the largest
number of the machine; `pruned_iff` says when that does not matter.
-/

namespace AgzRustMcp.Cache

variable {retention : OwnedCacheRetention} {names : List String} {name : String} {entry : CacheEntry}
  {entries : List CacheEntry} {now : ℕ}

/-- The budgets hold for the entries that are listed. -/
def OwnedCacheRetention.Fits (retention : OwnedCacheRetention) : Prop :=
  retention.entries.length ≤ retention.limits.maxEntries ∧
    retention.sumOf (·.stats.bytes) ≤ retention.limits.maxBytes ∧
    retention.sumOf (·.stats.nodes) ≤ retention.limits.maxNodes

/-- The second pass over some entries as if the budgets never held. -/
def evictAll (pass : BudgetPass) (entries : List CacheEntry) : BudgetPass := entries.foldl BudgetPass.evict pass

def unleased (retention : OwnedCacheRetention) (entries : List CacheEntry) : List CacheEntry :=
  entries.filter (!retention.isActive ·.name)

lemma evict_retention (pass : BudgetPass) (entry : CacheEntry) :
    (pass.evict entry).retention = pass.retention.remove entry.name := by
  unfold BudgetPass.evict
  split_ifs <;> rfl

lemma evictAll_retention (pass : BudgetPass) (entries : List CacheEntry) :
    (evictAll pass entries).retention = pass.retention.removeAll (entries.map (·.name)) := by
  unfold evictAll
  induction entries generalizing pass with
  | nil => rfl
  | cons entry entries ih =>
    rw [List.foldl_cons, ih, evict_retention]
    rfl

/-- The entries that the second pass may attempt, from the least recently used one on. -/
def candidates (pass : Pass) : List CacheEntry :=
  unleased pass.retention (evictionOrder pass.retention.entries)

/-- The second pass after attempts of so many entries, as if the budgets never held. -/
def afterAttempts (pass : Pass) (n : ℕ) : BudgetPass := evictAll (budgetStart pass) ((candidates pass).take n)

lemma afterAttempts_retention (pass : Pass) (n : ℕ) : (afterAttempts pass n).retention =
    pass.retention.removeAll (((candidates pass).take n).map (·.name)) :=
  evictAll_retention (budgetStart pass) _

/-- The budgets hold when they are taken to, or nothing is left to evict. -/
def Agrees (pass : Pass) : Prop :=
  ∀ n ≤ (candidates pass).length, (afterAttempts pass n).overBudget = false → (afterAttempts pass n).retention.Fits ∨
      ∀ entry ∈ (candidates pass).drop n, pass.retention.root.removable entry.name = false

instance : Std.Total newer where
  total left right := by
    unfold newer
    rcases lt_trichotomy left.lastUsed right.lastUsed with h | h | h
    · exact Or.inr (Or.inl h)
    · rcases le_total left.name right.name with hname | hname
      · exact Or.inl (Or.inr ⟨h.symm, hname⟩)
      · exact Or.inr (Or.inr ⟨h, hname⟩)
    · exact Or.inl (Or.inl h)

instance : IsTrans CacheEntry newer where
  trans left middle right hleft hright := by
    unfold newer at *
    rcases hleft with h | ⟨h, hname⟩ <;> rcases hright with h' | ⟨h', hname'⟩
    · exact Or.inl (by omega)
    · exact Or.inl (by omega)
    · exact Or.inl (by omega)
    · exact Or.inr ⟨by omega, hname.trans hname'⟩

variable {pass : Pass} {n : ℕ}

lemma length_entries (retention : OwnedCacheRetention) : retention.entries.length = retention.sumOf fun _ => 1 := by
  simp [OwnedCacheRetention.sumOf]

lemma OwnedCacheRetention.Fits.removeAll (h : retention.Fits) (names : List String) :
    (retention.removeAll names).Fits := by
  obtain ⟨hentries, hbytes, hnodes⟩ := h
  have hlimits := (sameSettings_removeAll retention names).limits_eq
  refine ⟨?_, ?_, ?_⟩
  · rw [hlimits, length_entries]
    rw [length_entries] at hentries
    exact le_trans (sumOf_removeAll_le (fun _ _ _ _ => le_rfl) retention names) hentries
  · rw [hlimits]
    exact le_trans (sumOf_removeAll_le (fun _ _ hle _ => hle) retention names) hbytes
  · rw [hlimits]
    exact le_trans (sumOf_removeAll_le (fun _ _ _ hle => hle) retention names) hnodes

lemma fits_of_le {i : ℕ} (hle : n ≤ i) (h : (afterAttempts pass n).retention.Fits) :
    (afterAttempts pass i).retention.Fits := by
  rw [afterAttempts_retention] at h ⊢
  have hsplit : (candidates pass).take i = (candidates pass).take n ++ ((candidates pass).drop n).take (i - n) := by
    rw [← List.take_add, Nat.add_sub_cancel' hle]
  rw [hsplit, List.map_append, OwnedCacheRetention.removeAll, List.foldl_append]
  exact h.removeAll _

lemma agrees_iff (hle : n ≤ (candidates pass).length)
    (hend : n = (candidates pass).length ∨ (afterAttempts pass n).overBudget = false)
    (hbefore : ∀ i < n, (afterAttempts pass i).overBudget = true) : ((afterAttempts pass n).retention.Fits ∨
      ∀ entry ∈ (candidates pass).drop n, pass.retention.root.removable entry.name = false) ↔ Agrees pass := by
  constructor
  · intro h i hi hover
    have hni : n ≤ i := by
      by_contra hlt
      rw [hbefore i (Nat.lt_of_not_le hlt)] at hover
      exact absurd hover (by decide)
    rcases h with hfits | hnone
    · exact Or.inl (fits_of_le hni hfits)
    · exact Or.inr fun entry hentry => hnone entry ((List.drop_subset_drop_left _ hni) hentry)
  · intro hagrees
    rcases hend with rfl | hover
    · refine Or.inr fun entry hentry => ?_
      rw [List.drop_length] at hentry
      exact absurd hentry List.not_mem_nil
    · exact hagrees n hle hover

/-! ## Pruning -/

end AgzRustMcp.Cache
