import Mathlib

/-!
# Maps with room for the last insertions

A `RecentMap` keeps its keys in the order of their insertions, and where it holds more than it has room for
the oldest ones go.  By `Holds.insert` an entry stays
as long as there is room for all keys that came after it.
-/

structure RecentMap (κ α : Type*) where
  entries : Finmap fun _ : κ => α
  order : List κ

namespace RecentMap

variable {κ α : Type*} [DecidableEq κ] {m : RecentMap κ α} {room : ℕ} {k j : κ} {v w : α} {since : List κ}

omit [DecidableEq κ] in
def empty : RecentMap κ α := ⟨∅, []⟩

/-- Takes the oldest keys out as long as there is no room. -/
def evict (room : ℕ) (entries : Finmap fun _ : κ => α) : List κ → RecentMap κ α
  | [] => ⟨entries, []⟩
  | k :: order => if room < entries.keys.card then evict room (entries.erase k) order else ⟨entries, k :: order⟩

def insert (room : ℕ) (m : RecentMap κ α) (k : κ) (v : α) : RecentMap κ α :=
  evict room (m.entries.insert k v)
    (if (m.entries.lookup k).isNone then m.order ++ [k] else m.order.filter (· ≠ k) ++ [k])

def erase (m : RecentMap κ α) (k : κ) : RecentMap κ α := ⟨m.entries.erase k, m.order.filter (· ≠ k)⟩

/-- The order lists the keys once each, and there is room for them. -/
structure Ordered (room : ℕ) (m : RecentMap κ α) : Prop where
  nodup : m.order.Nodup
  mem_iff : ∀ k, k ∈ m.order ↔ k ∈ m.entries
  length_le : m.order.length ≤ room

lemma card_keys {entries : Finmap fun _ : κ => α} {order : List κ} (hnodup : order.Nodup)
    (hmem : ∀ k, k ∈ order ↔ k ∈ entries) : entries.keys.card = order.length := by
  have hkeys : entries.keys = order.toFinset := by
    ext k
    rw [Finmap.mem_keys, List.mem_toFinset, hmem]
  rw [hkeys, List.toFinset_card_of_nodup hnodup]

lemma evict_spec (room : ℕ) {entries : Finmap fun _ : κ => α} {order : List κ} (hnodup : order.Nodup)
    (hmem : ∀ k, k ∈ order ↔ k ∈ entries) : (evict room entries order).order = order.drop (order.length - room) ∧
      ∀ k, (evict room entries order).entries.lookup k =
        if k ∈ order.drop (order.length - room) then entries.lookup k else none := by
  induction order generalizing entries with
  | nil =>
    refine ⟨by simp [evict], fun k => ?_⟩
    have hnone : entries.lookup k = none := Finmap.lookup_eq_none.mpr fun h => by simpa using (hmem k).mpr h
    simp [evict, hnone]
  | cons oldest order ih =>
    obtain ⟨hnot, hnodup'⟩ := List.nodup_cons.mp hnodup
    rw [evict, card_keys hnodup hmem, List.length_cons]
    split_ifs with hfull
    · have hmem' : ∀ k, k ∈ order ↔ k ∈ entries.erase oldest := by
        intro k
        rw [Finmap.mem_erase, ← hmem, List.mem_cons]
        constructor
        · exact fun h => ⟨fun heq => hnot (by rwa [← heq]), Or.inr h⟩
        · exact fun h => h.2.resolve_left h.1
      obtain ⟨horder, hlookup⟩ := ih hnodup' hmem'
      rw [show order.length + 1 - room = order.length - room + 1 by omega, List.drop_succ_cons]
      refine ⟨horder, fun k => ?_⟩
      rw [hlookup]
      split_ifs with hkept
      · have hne : k ≠ oldest := fun heq => hnot (by rw [← heq]; exact List.mem_of_mem_drop hkept)
        exact Finmap.lookup_erase_ne hne
      · rfl
    · rw [show order.length + 1 - room = 0 by omega, List.drop_zero]
      refine ⟨rfl, fun k => ?_⟩
      split_ifs with hkept
      · rfl
      · exact Finmap.lookup_eq_none.mpr fun h => hkept ((hmem k).mpr h)

/-- The keys with one of them put last. -/
def movedLast (order : List κ) (k : κ) : List κ := order.filter (· ≠ k) ++ [k]

lemma nodup_movedLast {order : List κ} (h : order.Nodup) (k : κ) : (movedLast order k).Nodup := by
  refine (h.filter _).append (List.nodup_singleton _) ?_
  simp [List.disjoint_singleton]

/-- The keys that are left when one of them is put last. -/
def keptLast (room : ℕ) (order : List κ) (k : κ) : List κ :=
  (movedLast order k).drop ((movedLast order k).length - room)

lemma insert_spec (h : m.Ordered room) (k : κ) (v : α) : (m.insert room k v).order = keptLast room m.order k ∧
      ∀ j, (m.insert room k v).entries.lookup j = if j ∈ keptLast room m.order k then
        if j = k then some v else m.entries.lookup j else none := by
  have hmoved : (if (m.entries.lookup k).isNone then m.order ++ [k] else m.order.filter (· ≠ k) ++ [k]) =
      movedLast m.order k := by
    split_ifs with hnone
    · have hnot := mt (h.mem_iff k).mp (Finmap.lookup_eq_none.mp (Option.isNone_iff_eq_none.mp hnone))
      refine congrArg (· ++ [k]) (List.filter_eq_self.mpr fun j hj => ?_).symm
      exact decide_eq_true fun heq => hnot (heq ▸ hj)
    · rfl
  have hmem : ∀ j, j ∈ movedLast m.order k ↔ j ∈ m.entries.insert k v := by
    intro j
    rw [Finmap.mem_insert, ← h.mem_iff]
    by_cases heq : j = k <;> simp [movedLast, heq]
  rw [insert, hmoved]
  obtain ⟨horder, hlookup⟩ := evict_spec room (nodup_movedLast h.nodup k) hmem
  refine ⟨horder, fun j => (hlookup j).trans ?_⟩
  by_cases heq : j = k
  · rw [heq, Finmap.lookup_insert, if_pos rfl, keptLast]
  · rw [Finmap.lookup_insert_of_ne _ heq, if_neg heq, keptLast]

lemma lookup_erase (m : RecentMap κ α) :
    (m.erase k).entries.lookup j = if j = k then none else m.entries.lookup j := by
  unfold erase
  split_ifs with heq
  · exact heq ▸ Finmap.lookup_erase j _
  · exact Finmap.lookup_erase_ne heq

omit [DecidableEq κ] in
lemma ordered_empty (room : ℕ) : (empty : RecentMap κ α).Ordered room :=
  ⟨List.nodup_nil, fun k => by simpa [empty] using Finmap.notMem_empty, Nat.zero_le _⟩

lemma Ordered.erase (h : m.Ordered room) (k : κ) : (m.erase k).Ordered room where
  nodup := h.nodup.filter _
  mem_iff j := by
    simp only [RecentMap.erase, Finmap.mem_erase, List.mem_filter, decide_eq_true_eq, h.mem_iff, and_comm]
  length_le := (List.length_filter_le _ _).trans h.length_le

lemma Ordered.insert (h : m.Ordered room) (k : κ) (v : α) : (m.insert room k v).Ordered room := by
  obtain ⟨horder, hlookup⟩ := insert_spec h k v
  refine ⟨?_, fun j => ?_, ?_⟩
  · rw [horder]
    exact (nodup_movedLast h.nodup k).drop
  · rw [horder, ← Finmap.lookup_isSome, hlookup]
    split_ifs with hkept hself
    · simpa using hkept
    · have hmem := List.mem_of_mem_drop hkept
      simp only [movedLast, List.mem_append, List.mem_filter, List.mem_singleton, hself, or_false] at hmem
      simpa [hkept, Finmap.lookup_isSome] using (h.mem_iff j).mp hmem.1
    · simpa using hkept
  · rw [horder, keptLast, List.length_drop]
    omega

/-- The entry is kept, and the keys behind it are among those that came since. -/
def Holds (m : RecentMap κ α) (k : κ) (v : α) (since : List κ) : Prop :=
  m.entries.lookup k = some v ∧ ∃ front newer, m.order = front ++ k :: newer ∧ ∀ j ∈ newer, j ∈ since

lemma holds_insert (h : m.Ordered room) (hroom : 0 < room) (k : κ) (v : α) : (m.insert room k v).Holds k v [] := by
  obtain ⟨horder, hlookup⟩ := insert_spec h k v
  have hkept : keptLast room m.order k =
      (m.order.filter (· ≠ k)).drop ((movedLast m.order k).length - room) ++ [k] := by
    rw [keptLast, movedLast, List.drop_append_of_le_length]
    rw [List.length_append, List.length_singleton]
    omega
  rw [hkept] at horder hlookup
  refine ⟨?_, _, [], horder, by simp⟩
  rw [hlookup]
  simp

lemma Holds.insert (h : m.Holds k v since) (hordered : m.Ordered room) (hne : j ≠ k)
    (hfew : (since ++ [j]).toFinset.card < room) (w : α) : (m.insert room j w).Holds k v (since ++ [j]) := by
  obtain ⟨hentry, front, newer, hsplit, hnewer⟩ := h
  obtain ⟨horder, hlookup⟩ := insert_spec hordered j w
  have hmoved : movedLast m.order j = front.filter (· ≠ j) ++ k :: movedLast newer j := by
    simp [movedLast, hsplit, hne.symm]
  have hmem : ∀ i ∈ movedLast newer j, i ∈ since ++ [j] := by
    intro i hi
    rcases List.mem_append.mp hi with hi | hi
    · exact List.mem_append_left _ (hnewer i (List.mem_of_mem_filter hi))
    · exact List.mem_append_right _ hi
  have hnodup := nodup_movedLast hordered.nodup j
  rw [hmoved] at hnodup
  have hlength : (movedLast newer j).length < room := by
    rw [← List.toFinset_card_of_nodup (List.nodup_cons.mp hnodup.of_append_right).2]
    refine lt_of_le_of_lt (Finset.card_le_card fun i hi => ?_) hfew
    exact List.mem_toFinset.mpr (hmem i (List.mem_toFinset.mp hi))
  rw [keptLast, hmoved, List.drop_append_of_le_length (by simp only [List.length_append, List.length_cons]; omega)]
    at horder hlookup
  refine ⟨?_, _, _, horder, hmem⟩
  rw [hlookup, if_pos (by simp), if_neg hne.symm]
  exact hentry

lemma Holds.erase (h : m.Holds k v since) (hne : j ≠ k) : (m.erase j).Holds k v since := by
  obtain ⟨hentry, front, newer, hsplit, hnewer⟩ := h
  refine ⟨?_, front.filter (· ≠ j), newer.filter (· ≠ j), ?_, fun i hi => hnewer i (List.mem_of_mem_filter hi)⟩
  · rw [lookup_erase, if_neg hne.symm]
    exact hentry
  · simp [RecentMap.erase, hsplit, hne.symm]

end RecentMap
