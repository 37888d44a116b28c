import AgzRustMcp.Verify.MatrixPlan

/-!
# What a plan admits

Identifiers aside, a plan lists the feature sets at every stage, then the targets, then the declared
compiler, cut off at the bound on the cells.  `admittedGroups` and `admittedTargets` say which they
are, and `map_configuration_planning` connects them with the loops of the planner.
-/

namespace AgzRustMcp.Verify

section

variable {α β : Type*} {P : β → Prop} {Q : α → Prop} {g : α → List β} {size : ℕ}

lemma forall_take_flatMap {l : List α} (hsize : ∀ a ∈ l, (g a).length = size) (hpos : 0 < size)
    (hPQ : ∀ a ∈ l, ∀ b ∈ g a, (P b ↔ Q a)) (n : ℕ) :
    (∀ b ∈ (l.flatMap g).take n, P b) ↔ ∀ i a, l[i]? = some a → i * size < n → Q a := by
  induction l generalizing n with
  | nil => simp
  | cons a l ih =>
    have hlen := hsize a List.mem_cons_self
    have hrest := ih (fun b hb => hsize b (List.mem_cons_of_mem _ hb))
      (fun b hb => hPQ b (List.mem_cons_of_mem _ hb)) (n - size)
    rw [List.flatMap_cons, List.take_append, hlen]
    constructor
    · intro hall i b hb hi
      cases i with
      | zero =>
        obtain rfl : a = b := by simpa using hb
        obtain ⟨x, tail, hx⟩ := List.exists_cons_of_length_pos (hlen.symm ▸ hpos)
        have hmem : x ∈ (g a).take n := by
          rw [Nat.zero_mul] at hi
          obtain ⟨m, rfl⟩ := Nat.exists_eq_succ_of_ne_zero hi.ne'
          rw [hx, List.take_succ_cons]
          exact List.mem_cons_self
        exact (hPQ a List.mem_cons_self x (hx ▸ List.mem_cons_self)).mp
          (hall x (List.mem_append_left _ hmem))
      | succ i =>
        rw [List.getElem?_cons_succ] at hb
        refine hrest.mp (fun x hx => hall x (List.mem_append_right _ hx)) i b hb ?_
        rw [Nat.succ_mul] at hi
        omega
    · intro hall x hx
      rcases List.mem_append.mp hx with hfirst | hlater
      · have hn : 0 < n := by
          by_contra hzero
          obtain rfl : n = 0 := by omega
          exact absurd hfirst (by simp)
        exact (hPQ a List.mem_cons_self x (List.mem_of_mem_take hfirst)).mpr
          (hall 0 a rfl (by rwa [Nat.zero_mul]))
      · refine hrest.mpr (fun i b hb hi => hall (i + 1) b hb ?_) x hlater
        rw [Nat.succ_mul]
        omega

lemma length_flatMap_of_size {l : List α} (hsize : ∀ a ∈ l, (g a).length = size) :
    (l.flatMap g).length = l.length * size := by
  rw [List.length_flatMap]
  have hmap : l.map (fun a => (g a).length) = List.replicate l.length size := by
    rw [List.eq_replicate_iff]
    refine ⟨List.length_map _, fun k hk => ?_⟩
    obtain ⟨a, ha, rfl⟩ := List.mem_map.mp hk
    exact hsize a ha
  rw [hmap, List.sum_replicate, smul_eq_mul]

lemma forall_take_map {f : α → β} {l : List α} (n : ℕ) :
    (∀ b ∈ (l.map f).take n, P b) ↔ ∀ i a, l[i]? = some a → i < n → P (f a) := by
  rw [← List.flatMap_singleton' (l.map f), List.flatMap_map]
  have hblocks := forall_take_flatMap (P := P) (Q := fun a => P (f a)) (g := fun a => [f a]) (l := l)
    (fun a _ => List.length_singleton) Nat.one_pos
    (fun a _ b hb => by rw [List.mem_singleton.mp hb]) n
  simpa only [Nat.mul_one] using hblocks

end

/-- A group has a size that the planner accepts. -/
def sizedGroup (group : List String) : Bool := !group.isEmpty && decide (group.length ≤ maxGroupFeatures)

/-- The normal forms of some groups, each once. -/
def normalGroups (groups : List (List String)) : List (List String) :=
  ((groups.filter sizedGroup).map normalizeGroup).eraseDups

/-- The groups that are planned, of those that the policy and the request list. -/
def admittedGroups (input : PlanInput) : List (List String) :=
  (normalGroups ((labelledGroups input.required input.policy).map Prod.snd)).filter fun group =>
    (groupRefusal input.policy input.features group).isNone

/-- The targets that are planned, of those that are named. -/
def admittedTargets (input : PlanInput) : List String :=
  (((namedTargets input.required input.policy input.facts).filter looksLikeTriple).eraseDups).filter
    fun target => (targetRefusal input.facts input.stages target).isNone

/-- The cell of the declared compiler, if there is one. -/
def admittedMsrv (input : PlanInput) : List PlannedCell :=
  match msrvCandidate input.required input.policy input.facts input.snapshot with
  | some (.ok (requested, toolchain)) => [msrvCell requested toolchain]
  | _ => []

/-! ## The loop over the groups -/

def FeatureSet.selection (set : FeatureSet) : List String × Bool := (set.features, set.noDefaultFeatures)

section

variable {policy : ProjectPolicy} {features : FeatureMap}

lemma eraseDups_concat {α : Type*} [BEq α] [LawfulBEq α] (l : List α) (a : α) [Decidable (a ∈ l)] :
    (l ++ [a]).eraseDups = if a ∈ l then l.eraseDups else l.eraseDups ++ [a] := by
  rw [List.eraseDups_append]
  by_cases h : a ∈ l
  · rw [if_pos h, List.cons_removeAll, if_neg (by simpa using h)]
    simp [List.removeAll]
  · rw [if_neg h, List.cons_removeAll, if_pos (by simpa using h)]
    simp [List.removeAll, List.eraseDups_cons]

lemma guard_eq_not_sizedGroup (group : List String) :
    (group.isEmpty || decide (maxGroupFeatures < group.length)) = !sizedGroup group := by
  rw [sizedGroup, Bool.not_and, Bool.not_not, ← decide_not, decide_eq_decide.mpr not_le]

lemma normalGroups_concat_of_sized {groups : List (List String)} {group : List String}
    (h : sizedGroup group = true) : normalGroups (groups ++ [group]) =
      if normalizeGroup group ∈ normalGroups groups then normalGroups groups
      else normalGroups groups ++ [normalizeGroup group] := by
  rw [normalGroups, List.filter_append, List.filter_cons_of_pos h, List.filter_nil, List.map_append,
    List.map_singleton, eraseDups_concat]
  refine if_congr ?_ rfl rfl
  rw [normalGroups, List.mem_eraseDups]

lemma normalGroups_concat_of_not_sized {groups : List (List String)} {group : List String}
    (h : sizedGroup group = false) : normalGroups (groups ++ [group]) = normalGroups groups := by
  rw [normalGroups, List.filter_append, List.filter_cons_of_neg (by rw [h]; exact Bool.false_ne_true),
    List.filter_nil, List.append_nil]
  rfl

/-- The loop has seen the normal forms and planned the admitted ones. -/
structure GroupLoop.Follows (policy : ProjectPolicy) (features : FeatureMap) (start : List FeatureSet)
    (groups : List (List String)) (loop : GroupLoop) : Prop where
  seen : ∀ group, group ∈ loop.seen ↔ group ∈ normalGroups groups
  sets : loop.sets.map FeatureSet.selection = start.map FeatureSet.selection ++
    ((normalGroups groups).filter fun group => (groupRefusal policy features group).isNone).map
      fun group => (group, false)

lemma GroupLoop.Follows.step {start : List FeatureSet} {groups : List (List String)} {loop : GroupLoop}
    (h : loop.Follows policy features start groups) (labelled : String × List String) :
    (planGroup policy features loop labelled).Follows policy features start (groups ++ [labelled.2]) := by
  unfold planGroup
  dsimp only
  rw [guard_eq_not_sizedGroup]
  cases hsized : sizedGroup labelled.2 with
  | false =>
    rw [Bool.not_false, if_pos rfl]
    refine ⟨?_, ?_⟩ <;> rw [normalGroups_concat_of_not_sized hsized]
    · exact h.seen
    · exact h.sets
  | true =>
    rw [Bool.not_true, if_neg Bool.false_ne_true]
    have hnormal := @normalGroups_concat_of_sized groups labelled.2 hsized
    by_cases hold : normalizeGroup labelled.2 ∈ loop.seen
    · rw [if_pos ((h.seen _).mp hold)] at hnormal
      rw [if_pos hold]
      exact ⟨by rw [hnormal]; exact h.seen, by rw [hnormal]; exact h.sets⟩
    · rw [if_neg fun hmem => hold ((h.seen _).mpr hmem)] at hnormal
      rw [if_neg hold]
      have hseen : ∀ group, group ∈ normalizeGroup labelled.2 :: loop.seen ↔
          group ∈ normalGroups (groups ++ [labelled.2]) := by
        intro group
        rw [hnormal, List.mem_cons, List.mem_append, List.mem_singleton, h.seen, or_comm]
      cases hrefusal : groupRefusal policy features (normalizeGroup labelled.2) with
      | some reason =>
        refine ⟨hseen, ?_⟩
        rw [hnormal, List.filter_append, List.filter_cons_of_neg (by simp [hrefusal]), List.filter_nil,
          List.append_nil]
        exact h.sets
      | none =>
        refine ⟨hseen, ?_⟩
        rw [hnormal, List.filter_append, List.filter_cons_of_pos (by simp [hrefusal]), List.filter_nil,
          List.map_append, List.map_append, h.sets, List.append_assoc]
        rfl

lemma follows_foldl {start : List FeatureSet} {before : List (List String)} {loop : GroupLoop}
    (groups : List (String × List String)) (h : loop.Follows policy features start before) :
    (groups.foldl (planGroup policy features) loop).Follows policy features start
      (before ++ groups.map Prod.snd) := by
  induction groups generalizing before loop with
  | nil =>
    rw [List.map_nil, List.append_nil]
    exact h
  | cons labelled groups ih =>
    rw [List.foldl_cons, List.map_cons, List.append_cons]
    exact ih (h.step labelled)

/-- The feature sets select what the defaults and the admitted groups select. -/
theorem map_selection_featureSets (input : PlanInput) :
    (featureSets input.required input.policy input.features).1.map FeatureSet.selection =
      (defaultSets input.required).map FeatureSet.selection ++
        (admittedGroups input).map fun group => (group, false) := by
  have hstart : GroupLoop.Follows input.policy input.features (defaultSets input.required) []
      ⟨[], defaultSets input.required, excessGroups input.required⟩ :=
    ⟨fun _ => Iff.rfl, (List.append_nil _).symm⟩
  exact (follows_foldl (labelledGroups input.required input.policy) hstart).sets

end

/-! ## The cells -/

/-- A cell without its identifier. -/
def PlannedCell.configuration (cell : PlannedCell) : PlannedCell := { cell with id := "" }

/-- The feature sets at every stage, the targets, the declared compiler. -/
def configurations (input : PlanInput) : List PlannedCell :=
  ((featureSets input.required input.policy input.features).1.flatMap fun set =>
    input.stages.map (hostCell input.required set)) ++
  (admittedTargets input).map targetCell ++ admittedMsrv input

section

variable {planning : Planning}

lemma map_configuration_pushCell (cell : PlannedCell) (id : String) (h : cell.id = "") :
    (planning.pushCell cell id).cells.map PlannedCell.configuration =
      planning.cells.map PlannedCell.configuration ++ [cell] := by
  rw [Planning.pushCell, List.map_append, List.map_singleton]
  congr 2
  unfold PlannedCell.configuration
  rw [← h]

lemma map_configuration_planFeatures (required : RequiredConfigurations) (stages : List VerifyStage)
    (sets : List FeatureSet) : (planFeatures required stages sets planning).cells.map PlannedCell.configuration =
      planning.cells.map PlannedCell.configuration ++ sets.flatMap fun set => stages.map (hostCell required set) := by
  unfold planFeatures
  induction sets generalizing planning with
  | nil => simp
  | cons set sets ih =>
    have hset : ∀ (stages : List VerifyStage) (planning : Planning),
        (stages.foldl (fun planning stage => planning.pushCell (hostCell required set stage)
          (specId set.label "host" "default" stage.asStr)) planning).cells.map PlannedCell.configuration =
          planning.cells.map PlannedCell.configuration ++ stages.map (hostCell required set) := by
      intro stages
      induction stages with
      | nil => simp
      | cons stage stages ih =>
        intro planning
        rw [List.foldl_cons, ih, map_configuration_pushCell _ _ rfl, List.map_cons, List.append_assoc]
        rfl
    rw [List.foldl_cons, ih, hset, List.flatMap_cons, List.append_assoc]

/-- The targets that have been seen, and the cells of the admitted ones. -/
structure TargetFollows (facts : ToolchainFacts) (stages : List VerifyStage) (start : List PlannedCell)
    (targets : List String) (state : List String × Planning) : Prop where
  seen : ∀ target, target ∈ state.1 ↔ target ∈ (targets.filter looksLikeTriple).eraseDups
  cells : state.2.cells.map PlannedCell.configuration = start ++ ((((targets.filter looksLikeTriple).eraseDups).filter
      fun target => (targetRefusal facts stages target).isNone).map targetCell)

lemma TargetFollows.step {facts : ToolchainFacts} {stages : List VerifyStage} {start : List PlannedCell}
    {targets : List String} {state : List String × Planning}
    (h : TargetFollows facts stages start targets state) (target : String) :
    TargetFollows facts stages start (targets ++ [target]) (planTarget facts stages state target) := by
  obtain ⟨seen, planning⟩ := state
  unfold planTarget
  dsimp only
  cases htriple : looksLikeTriple target with
  | false =>
    rw [if_pos rfl]
    have hsame : (targets ++ [target]).filter looksLikeTriple = targets.filter looksLikeTriple := by
      rw [List.filter_append, List.filter_cons_of_neg (by simp [htriple]), List.filter_nil, List.append_nil]
    exact ⟨by rw [hsame]; exact h.seen, by rw [hsame]; exact h.cells⟩
  | true =>
    rw [if_neg Bool.true_eq_false_eq_False]
    have hnext : ((targets ++ [target]).filter looksLikeTriple).eraseDups =
        if target ∈ (targets.filter looksLikeTriple).eraseDups then (targets.filter looksLikeTriple).eraseDups
        else (targets.filter looksLikeTriple).eraseDups ++ [target] := by
      rw [List.filter_append, List.filter_cons_of_pos htriple, List.filter_nil, eraseDups_concat]
      exact if_congr List.mem_eraseDups.symm rfl rfl
    by_cases hold : target ∈ seen
    · rw [if_pos ((h.seen _).mp hold)] at hnext
      rw [if_pos hold]
      exact ⟨by rw [hnext]; exact h.seen, by rw [hnext]; exact h.cells⟩
    · rw [if_neg fun hmem => hold ((h.seen _).mpr hmem)] at hnext
      rw [if_neg hold]
      have hseen : ∀ other, other ∈ target :: seen ↔
          other ∈ ((targets ++ [target]).filter looksLikeTriple).eraseDups := by
        intro other
        have holder := h.seen other
        rw [hnext, List.mem_cons, List.mem_append, List.mem_singleton, ← holder, or_comm]
      cases hrefusal : targetRefusal facts stages target with
      | some refusal =>
        refine ⟨hseen, ?_⟩
        rw [hnext, List.filter_append, List.filter_cons_of_neg (by simp [hrefusal]), List.filter_nil, List.append_nil]
        exact h.cells
      | none =>
        refine ⟨hseen, ?_⟩
        have hcells := h.cells
        dsimp only at hcells ⊢
        rw [map_configuration_pushCell _ _ rfl, hnext, List.filter_append,
          List.filter_cons_of_pos (by simp [hrefusal]), List.filter_nil, List.map_append, hcells,
          List.append_assoc]
        rfl

lemma follows_foldl_planTarget {facts : ToolchainFacts} {stages : List VerifyStage}
    {start : List PlannedCell} {before : List String} {state : List String × Planning}
    (targets : List String) (h : TargetFollows facts stages start before state) :
    TargetFollows facts stages start (before ++ targets) (targets.foldl (planTarget facts stages) state) := by
  induction targets generalizing before state with
  | nil =>
    rw [List.append_nil]
    exact h
  | cons target targets ih =>
    rw [List.foldl_cons, List.append_cons]
    exact ih (h.step target)

lemma map_configuration_planTargets (input : PlanInput) :
    (planTargets input.required input.policy input.facts input.stages planning).cells.map
      PlannedCell.configuration =
      planning.cells.map PlannedCell.configuration ++ (admittedTargets input).map targetCell := by
  have hstart : TargetFollows input.facts input.stages
      (planning.cells.map PlannedCell.configuration) [] ([], planning) :=
    ⟨fun _ => Iff.rfl, (List.append_nil _).symm⟩
  have hcells := (follows_foldl_planTarget (namedTargets input.required input.policy input.facts) hstart).cells
  rw [List.nil_append] at hcells
  unfold planTargets
  dsimp only
  split_ifs
  · exact hcells
  · exact hcells

lemma map_configuration_planMsrv (input : PlanInput) :
    (planMsrv input.required input.policy input.facts input.snapshot planning).cells.map
      PlannedCell.configuration = planning.cells.map PlannedCell.configuration ++ admittedMsrv input := by
  unfold planMsrv admittedMsrv
  split
  · next h => rw [h, List.append_nil]
  · next h =>
    rw [h, List.append_nil]
    rfl
  · next h =>
    rw [h]
    exact map_configuration_pushCell _ _ rfl

end

/-- Identifiers aside, the cells are the configurations in their order. -/
theorem map_configuration_planning (input : PlanInput) :
    input.planning.cells.map PlannedCell.configuration = configurations input := by
  unfold PlanInput.planning
  dsimp only
  rw [map_configuration_planMsrv, map_configuration_planTargets, map_configuration_planFeatures]
  rfl

/-- What the feature sets select: the defaults, and the admitted groups. -/
def selections (input : PlanInput) : List (List String × Bool) :=
  (defaultSets input.required).map FeatureSet.selection ++ (admittedGroups input).map fun group => (group, false)

def hostCells (input : PlanInput) : ℕ := (selections input).length * input.stages.length

lemma stages_length_pos (input : PlanInput) : 0 < input.stages.length := by
  unfold PlanInput.stages effectiveStages
  dsimp only
  generalize hstages : (if input.required.stages = [] then input.policy.stages
    else input.required.stages) = stages
  have hmem : ∃ stage, stage ∈ (if stages = [] then [VerifyStage.check] else stages) := by
    split_ifs with hnil
    · exact ⟨.check, List.mem_singleton.mpr rfl⟩
    · exact List.exists_mem_of_ne_nil stages hnil
  obtain ⟨stage, hstage⟩ := hmem
  exact List.length_pos_of_mem (List.mem_eraseDups.mpr hstage)

/-- A statement about every cell is one about what is planned before the bound. -/
theorem forall_cells_iff (input : PlanInput) (maxCells : ℕ) {P : PlannedCell → Prop}
    {Q : List String × Bool → Prop} (hP : ∀ cell, P cell ↔ P cell.configuration)
    (hQ : ∀ set stage, P (hostCell input.required set stage) ↔ Q set.selection) :
    (∀ cell ∈ (buildPlan input maxCells).cells, P cell) ↔
      (∀ i selection, (selections input)[i]? = some selection → i * input.stages.length < maxCells → Q selection) ∧
      (∀ i target, (admittedTargets input)[i]? = some target → hostCells input + i < maxCells →
        P (targetCell target)) ∧
      (∀ cell ∈ admittedMsrv input, hostCells input + (admittedTargets input).length < maxCells → P cell) := by
  have hsets : selections input =
      (featureSets input.required input.policy input.features).1.map FeatureSet.selection :=
    (map_selection_featureSets input).symm
  have hcells : (∀ cell ∈ (buildPlan input maxCells).cells, P cell) ↔
      ∀ cell ∈ (configurations input).take maxCells, P cell := by
    rw [← map_configuration_planning, ← List.map_take]
    constructor
    · intro h cell hcell
      obtain ⟨planned, hplanned, rfl⟩ := List.mem_map.mp hcell
      exact (hP planned).mp (h planned hplanned)
    · exact fun h cell hcell => (hP cell).mpr (h _ (List.mem_map.mpr ⟨cell, hcell, rfl⟩))
  have hblocks : ∀ set ∈ (featureSets input.required input.policy input.features).1,
      (input.stages.map (hostCell input.required set)).length = input.stages.length :=
    fun set _ => List.length_map _
  have hlen : ((featureSets input.required input.policy input.features).1.flatMap fun set =>
      input.stages.map (hostCell input.required set)).length = hostCells input := by
    rw [length_flatMap_of_size hblocks, hostCells, hsets, List.length_map]
  have hhost := forall_take_flatMap (P := P) (Q := fun set : FeatureSet => Q set.selection) hblocks
    (stages_length_pos input)
    (fun set _ cell hcell => by
      obtain ⟨stage, -, rfl⟩ := List.mem_map.mp hcell
      exact hQ set stage) maxCells
  have hselect : (∀ i selection, (selections input)[i]? = some selection →
      i * input.stages.length < maxCells → Q selection) ↔
      ∀ i set, (featureSets input.required input.policy input.features).1[i]? = some set →
        i * input.stages.length < maxCells → Q set.selection := by
    rw [hsets]
    constructor
    · intro h i set hset
      exact h i set.selection (by rw [List.getElem?_map, hset, Option.map_some])
    · intro h i selection hselection
      rw [List.getElem?_map, Option.map_eq_some_iff] at hselection
      obtain ⟨set, hset, rfl⟩ := hselection
      exact h i set hset
  rw [hcells, configurations, List.append_assoc, List.take_append, List.take_append, hlen, List.length_map, hselect]
  simp only [List.mem_append, or_imp, forall_and]
  refine and_congr hhost (and_congr ?_ ?_)
  · rw [forall_take_map]
    refine forall_congr' fun i => forall_congr' fun target => imp_congr_right fun _ => ?_
    rw [Nat.lt_sub_iff_add_lt, Nat.add_comm]
  · rw [Nat.sub_sub]
    have hone : ∀ cell, cell ∈ (admittedMsrv input).take
        (maxCells - (hostCells input + (admittedTargets input).length)) ↔
        cell ∈ admittedMsrv input ∧ hostCells input + (admittedTargets input).length < maxCells := by
      intro cell
      rw [← Nat.sub_pos_iff_lt]
      generalize maxCells - (hostCells input + (admittedTargets input).length) = room
      unfold admittedMsrv
      split
      · cases room <;> simp
      · simp
    simp only [hone, and_imp]

end AgzRustMcp.Verify
