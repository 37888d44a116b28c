import AgzRustMcp.Verify.Candidates

/-!
# Features that exclude each other

A policy names groups of features that must not be enabled together.  The planner looks for
conflicts in the `feature_closure` of a group, and does not look when it plans the defaults, a
target or the declared compiler.  `exclusive_features_iff` says when no cell enables two features
that exclude each other.
-/

namespace AgzRustMcp.Verify

/-- Two features of one group are turned on. -/
def Clash (mutuallyExclusive : List (List String)) (active : Set String) : Prop :=
  ∃ exclusive ∈ mutuallyExclusive, ∃ a ∈ exclusive, ∃ b ∈ exclusive, a ≠ b ∧ a ∈ active ∧ b ∈ active

lemma not_clash_of_featureConflict {mutuallyExclusive : List (List String)} {active : List String}
    (h : featureConflict mutuallyExclusive active = none) : ¬ Clash mutuallyExclusive {x | x ∈ active} := by
  rintro ⟨exclusive, hexclusive, a, ha, b, hb, hne, hactiveA, hactiveB⟩
  have hnone := List.findSome?_eq_none_iff.mp h exclusive hexclusive
  dsimp only at hnone
  split_ifs at hnone with hlen
  refine hlen ?_
  have hsub : [a, b] ⊆ exclusive.filter fun feature => active.contains feature := by
    intro x hx
    rcases List.mem_cons.mp hx with rfl | hx
    · exact List.mem_filter.mpr ⟨ha, List.contains_iff_mem.mpr hactiveA⟩
    · obtain rfl := List.mem_singleton.mp hx
      exact List.mem_filter.mpr ⟨hb, List.contains_iff_mem.mpr hactiveB⟩
  have hnodup : [a, b].Nodup := by simp [hne]
  exact (hnodup.subperm hsub).length_le

lemma featureConflict_of_mem_admittedGroups {input : PlanInput} {group : List String}
    (h : group ∈ admittedGroups input) :
    featureConflict input.policy.mutuallyExclusive (featureClosure input.features group true) = none := by
  have hrefusal := (List.mem_filter.mp h).2
  rw [Option.isNone_iff_eq_none] at hrefusal
  unfold groupRefusal at hrefusal
  split at hrefusal
  · exact absurd hrefusal (by simp)
  · split at hrefusal
    · exact absurd hrefusal (by simp)
    · exact hrefusal

/-- One feature of a group is enabled, but was not collected. -/
def Overlooks (input : PlanInput) (group : List String) : Prop :=
  ∃ exclusive ∈ input.policy.mutuallyExclusive, ∃ a ∈ exclusive, ∃ b ∈ exclusive, a ≠ b ∧
    a ∈ enabledFeatures input.features group true ∧ b ∈ enabledFeatures input.features group true ∧
    a ∉ featureClosure input.features group true

lemma clash_iff_overlooks {input : PlanInput} {group : List String} (h : group ∈ admittedGroups input) :
    Clash input.policy.mutuallyExclusive (enabledFeatures input.features group true) ↔ Overlooks input group := by
  constructor
  · rintro ⟨exclusive, hexclusive, a, ha, b, hb, hne, henabledA, henabledB⟩
    by_cases hina : a ∈ featureClosure input.features group true
    · by_cases hinb : b ∈ featureClosure input.features group true
      · exact absurd ⟨exclusive, hexclusive, a, ha, b, hb, hne, hina, hinb⟩
          (not_clash_of_featureConflict (featureConflict_of_mem_admittedGroups h))
      · exact ⟨exclusive, hexclusive, b, hb, a, ha, hne.symm, henabledB, henabledA, hinb⟩
    · exact ⟨exclusive, hexclusive, a, ha, b, hb, hne, henabledA, henabledB, hina⟩
  · rintro ⟨exclusive, hexclusive, a, ha, b, hb, hne, henabledA, henabledB, -⟩
    exact ⟨exclusive, hexclusive, a, ha, b, hb, hne, henabledA, henabledB⟩

/-! ## The cells of a plan -/

def PlannedCell.enabled (cell : PlannedCell) (features : FeatureMap) : Set String :=
  enabledFeatures features cell.features (!cell.noDefaultFeatures)

/-- A cell with the defaults and without a group lies within the bound of the plan. -/
def PlansDefaults (input : PlanInput) (maxCells : ℕ) : Prop :=
  (input.required.includeDefault = true ∧ 0 < maxCells) ∨
  (admittedTargets input ≠ [] ∧ hostCells input < maxCells) ∨
  (admittedMsrv input ≠ [] ∧ hostCells input + (admittedTargets input).length < maxCells)

/-- Neither the planned defaults nor an admitted group has a conflict. -/
def ChecksExclusion (input : PlanInput) (maxCells : ℕ) : Prop :=
  (PlansDefaults input maxCells → ¬ Clash input.policy.mutuallyExclusive (enabledFeatures input.features [] true)) ∧
  ∀ i group, (admittedGroups input)[i]? = some group →
    ((defaultSets input.required).length + i) * input.stages.length < maxCells → ¬ Overlooks input group

lemma forall_selections_enabled_iff {input : PlanInput} {maxCells : ℕ} :
    (∀ i selection, (selections input)[i]? = some selection → i * input.stages.length < maxCells →
      ¬ Clash input.policy.mutuallyExclusive (enabledFeatures input.features selection.1 (!selection.2))) ↔
    (input.required.includeDefault = true ∧ 0 < maxCells →
      ¬ Clash input.policy.mutuallyExclusive (enabledFeatures input.features [] true)) ∧
    ∀ i group, (admittedGroups input)[i]? = some group →
      ((defaultSets input.required).length + i) * input.stages.length < maxCells → ¬ Overlooks input group := by
  have hgroups : ∀ i group, (admittedGroups input)[i]? = some group →
      (selections input)[(defaultSets input.required).length + i]? = some (group, false) := by
    intro i group hgroup
    rw [selections, List.getElem?_append_right (by rw [List.length_map]; exact Nat.le_add_right _ _),
      List.length_map, Nat.add_sub_cancel_left, List.getElem?_map, hgroup, Option.map_some]
  constructor
  · intro h
    refine ⟨fun ⟨hdefault, hpos⟩ => ?_, fun i group hgroup hbound => ?_⟩
    · refine h 0 ([], false) ?_ (by rwa [Nat.zero_mul])
      unfold selections defaultSets
      rw [if_pos hdefault]
      rfl
    · have hclash := h _ _ (hgroups i group hgroup) hbound
      exact fun hover => hclash ((clash_iff_overlooks (List.mem_of_getElem? hgroup)).mpr hover)
  · rintro ⟨hdefault, hadmitted⟩ i selection hselection hbound
    by_cases hi : i < (defaultSets input.required).length
    · rw [selections, List.getElem?_append_left (by rwa [List.length_map])] at hselection
      have hmem := List.mem_of_getElem? hselection
      obtain ⟨set, hset, rfl⟩ := List.mem_map.mp hmem
      rcases List.mem_append.mp hset with hset | hset
      · split_ifs at hset with hasked
        · obtain rfl := List.mem_singleton.mp hset
          exact hdefault ⟨hasked, lt_of_le_of_lt (Nat.zero_le _) hbound⟩
        · exact absurd hset List.not_mem_nil
      · split_ifs at hset
        · obtain rfl := List.mem_singleton.mp hset
          rintro ⟨exclusive, -, a, -, b, -, -, henabled, -⟩
          have hempty : a ∈ enabledFeatures input.features [] false := henabled
          rw [enabledFeatures_nil_false] at hempty
          exact hempty
        · exact absurd hset List.not_mem_nil
    · rw [not_lt] at hi
      obtain ⟨k, rfl⟩ := Nat.exists_eq_add_of_le hi
      rw [selections, List.getElem?_append_right (by rw [List.length_map]; exact hi), List.length_map,
        Nat.add_sub_cancel_left, List.getElem?_map, Option.map_eq_some_iff] at hselection
      obtain ⟨group, hgroup, rfl⟩ := hselection
      have hover := hadmitted k group hgroup hbound
      exact fun hclash => hover ((clash_iff_overlooks (List.mem_of_getElem? hgroup)).mp hclash)

/-- No cell enables two features that exclude each other, exactly when the defaults are free of
conflicts wherever they are planned alone and no admitted group overlooks one. -/
theorem exclusive_features_iff (input : PlanInput) (maxCells : ℕ) :
    (∀ cell ∈ (buildPlan input maxCells).cells,
      ¬ Clash input.policy.mutuallyExclusive (cell.enabled input.features)) ↔
      ChecksExclusion input maxCells := by
  rw [forall_cells_iff input maxCells
    (Q := fun selection => ¬ Clash input.policy.mutuallyExclusive
      (enabledFeatures input.features selection.1 (!selection.2)))
    (fun _ => Iff.rfl) (fun _ _ => Iff.rfl), forall_selections_enabled_iff]
  have htarget : ∀ target, (targetCell target).enabled input.features =
      enabledFeatures input.features [] true := fun _ => rfl
  have hmsrv : ∀ cell ∈ admittedMsrv input, cell.enabled input.features = enabledFeatures input.features [] true := by
    intro cell hcell
    unfold admittedMsrv at hcell
    split at hcell
    · rw [List.mem_singleton.mp hcell]
      rfl
    · exact absurd hcell List.not_mem_nil
  unfold ChecksExclusion PlansDefaults
  constructor
  · rintro ⟨⟨hdefault, hgroups⟩, htargets, hcompiler⟩
    refine ⟨?_, hgroups⟩
    rintro (hasked | ⟨hsome, hbound⟩ | ⟨hsome, hbound⟩)
    · exact hdefault hasked
    · obtain ⟨target, rest, hlist⟩ := List.exists_cons_of_ne_nil hsome
      have hclash := htargets 0 target (by rw [hlist]; rfl) hbound
      rwa [htarget] at hclash
    · obtain ⟨cell, hcell⟩ := List.exists_mem_of_ne_nil _ hsome
      have hclash := hcompiler cell hcell hbound
      rwa [hmsrv cell hcell] at hclash
  · rintro ⟨hdefaults, hgroups⟩
    refine ⟨⟨fun hasked => hdefaults (Or.inl hasked), hgroups⟩, fun i target htargetMem hbound => ?_,
      fun cell hcell hbound => ?_⟩
    · rw [htarget]
      exact hdefaults (Or.inr (Or.inl ⟨List.ne_nil_of_mem (List.mem_of_getElem? htargetMem),
        lt_of_le_of_lt (Nat.le_add_right _ _) hbound⟩))
    · rw [hmsrv cell hcell]
      exact hdefaults (Or.inr (Or.inr ⟨List.ne_nil_of_mem hcell, hbound⟩))

/-! ## Defaults in conflict -/

/-- A workspace whose defaults enable two features that its policy keeps apart. -/
def tlsInput : PlanInput where
  required := {}
  policy := ⟨"workspace.metadata.agz-verify", [], [["native", "rustls"]], [], none, []⟩
  facts := ⟨none, [], [], false, [], fun _ => none⟩
  snapshot := ⟨[⟨"app 0.1.0", [("default", ["native", "rustls"]), ("native", []), ("rustls", [])], none⟩],
    ["app 0.1.0"]⟩
  resolver := "2"
  warnings := []

/-- The cell of the defaults is planned and enables both. -/
theorem exclusive_features_clash : ¬ ∀ cell ∈ (buildPlan tlsInput 8).cells,
    ¬ Clash tlsInput.policy.mutuallyExclusive (cell.enabled tlsInput.features) := by
  intro h
  obtain ⟨cell, hcell, hfeatures, hdefaults⟩ : ∃ cell ∈ (buildPlan tlsInput 8).cells,
      cell.features = [] ∧ cell.noDefaultFeatures = false := by
    decide +kernel
  refine h cell hcell ⟨["native", "rustls"], List.mem_singleton.mpr rfl, "native", by decide, "rustls",
    by decide, by decide, ?_, ?_⟩
  all_goals
    unfold PlannedCell.enabled
    rw [hfeatures, hdefaults]
    refine ⟨"default", Or.inr ⟨rfl, rfl⟩, .single ?_⟩
    decide +kernel

end AgzRustMcp.Verify
