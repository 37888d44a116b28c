import AgzRustMcp.Gate.Validation
import AgzRustMcp.Verify.Candidates

/-!
# Options of planned cells

The planner checks feature names and target triples with validators of its own, and the gate checks
them once more.  The planner alone takes weak selectors `dep?/feat` (`boundedFeature_iff`) and
triples with a dot or of any length (`boundedTriple_iff`): `planned_options_accepted_iff`.
-/

namespace AgzRustMcp.Verify

open Gate TextScan Utf8Text

lemma eq_append_strongDependency (dependency : Text) :
    dependency = strongDependency dependency ∨ dependency = strongDependency dependency ++ ['?'] := by
  unfold strongDependency stripSuffix
  split_ifs with hsuffix
  · right
    rw [Option.getD_some]
    obtain ⟨front, rfl⟩ := List.isSuffixOf_iff_suffix.mp hsuffix
    rw [List.length_append, Nat.add_sub_cancel, List.take_left']
    rfl
  · exact Or.inl rfl

/-- A character that the gate takes in a feature name. -/
def featureChar (c : Char) : Bool := c.isAlphanum || c == '_' || c == '-' || c == '/' || c == '+' || c == '.'

lemma featureChar_of_segment {segment : Text} (h : validFeatureSegment segment = true) :
    (∀ c ∈ segment, featureChar c = true) ∧ '?' ∉ segment ∧
      ∃ first rest, segment = first :: rest ∧ first ≠ '-' ∧ first ≠ '.' := by
  cases segment with
  | nil => exact absurd h (by decide)
  | cons first rest =>
    rw [validFeatureSegment, Bool.and_eq_true, List.all_eq_true] at h
    obtain ⟨hfirst, hrest⟩ := h
    have hchars : ∀ c ∈ first :: rest, (c.isAlphanum || c == '_' || c == '.' || c == '+' || c == '-') = true := by
      intro c hc
      rcases List.mem_cons.mp hc with rfl | hc
      · simp only [Bool.or_eq_true] at hfirst ⊢
        tauto
      · exact hrest c hc
    refine ⟨fun c hc => ?_, fun hmem => absurd (hchars '?' hmem) (by decide), first, rest, rfl, ?_, ?_⟩
    · have hchar := hchars c hc
      unfold featureChar
      simp only [Bool.or_eq_true] at hchar ⊢
      tauto
    · rintro rfl
      exact absurd hfirst (by decide)
    · rintro rfl
      exact absurd hfirst (by decide)

/-- The gate takes the feature names of the planner but the weak selectors. -/
theorem boundedFeature_iff {feature : String} (h : validFeatureName feature = true) :
    boundedFeature feature = true ↔ '?' ∉ feature.toList := by
  unfold validFeatureName at h
  split_ifs at h with hbounds
  rw [Bool.or_eq_true, not_or, Bool.not_eq_true, decide_eq_true_eq, not_lt] at hbounds
  -- The name begins as a valid segment does, and all its characters but a question mark are taken.
  obtain ⟨hchars, first, rest, hlist, hdash, hdot⟩ :
      (∀ c ∈ feature.toList, c ≠ '?' → featureChar c = true) ∧
        ∃ first rest, feature.toList = first :: rest ∧ first ≠ '-' ∧ first ≠ '.' := by
    cases hsplit : splitOnce ['/'] feature.toList with
    | none =>
      rw [hsplit] at h
      obtain ⟨hchars, -, hhead⟩ := featureChar_of_segment h
      exact ⟨fun c hc _ => hchars c hc, hhead⟩
    | some parts =>
      obtain ⟨dependency, selector⟩ := parts
      rw [hsplit] at h
      dsimp only at h
      split_ifs at h with hselector
      rw [Bool.and_eq_true] at h
      obtain ⟨hdependency, -, first, rest, hstrong, hdash, hdot⟩ := featureChar_of_segment h.1
      obtain ⟨hselected, -, -⟩ := featureChar_of_segment h.2
      rw [append_of_splitOnce hsplit]
      have hdependencyChars : ∀ c ∈ dependency, c ≠ '?' → featureChar c = true := by
        intro c hc hmark
        rcases eq_append_strongDependency dependency with heq | heq
        · exact hdependency c (heq ▸ hc)
        · rw [heq] at hc
          rcases List.mem_append.mp hc with hc | hc
          · exact hdependency c hc
          · exact absurd (List.mem_singleton.mp hc) hmark
      refine ⟨fun c hc hmark => ?_, first, ?_⟩
      · rcases List.mem_append.mp hc with hc | hc
        · rcases List.mem_append.mp hc with hc | hc
          · exact hdependencyChars c hc hmark
          · rw [List.mem_singleton.mp hc]
            decide
        · exact hselected c hc
      · rcases eq_append_strongDependency dependency with heq | heq
        · exact ⟨_, by rw [heq, hstrong]; rfl, hdash, hdot⟩
        · exact ⟨_, by rw [heq, hstrong]; rfl, hdash, hdot⟩
  unfold boundedFeature
  rw [hbounds.1, decide_eq_true hbounds.2, hlist, List.head?_cons]
  have hhead : (some first != some '-') = true ∧ (some first != some '.') = true := by
    simp [hdash, hdot]
  rw [hhead.1, hhead.2, ← hlist, Bool.not_false, Bool.and_self, Bool.and_self, Bool.and_self, Bool.true_and,
    List.all_eq_true]
  constructor
  · intro hall hmark
    exact absurd (hall '?' hmark) (by decide)
  · intro hmark c hc
    exact hchars c hc fun heq => hmark (heq ▸ hc)

/-- The gate takes the triples of the planner that are bounded and have no dot. -/
theorem boundedTriple_iff {triple : String} (h : looksLikeTriple triple = true) :
    boundedTriple triple = true ↔ '.' ∉ triple.toList ∧ triple.utf8ByteSize ≤ 128 := by
  unfold looksLikeTriple at h
  rw [Bool.and_eq_true, Bool.and_eq_true, decide_eq_true_eq, List.all_eq_true] at h
  obtain ⟨⟨hcount, hhead⟩, hchars⟩ := h
  have hnonempty : triple.isEmpty = false := by
    by_contra hempty
    rw [Bool.not_eq_false, String.isEmpty_iff] at hempty
    rw [hempty] at hcount
    exact absurd hcount (by decide)
  unfold boundedTriple
  rw [hnonempty, hhead, Bool.not_false, Bool.true_and, Bool.and_true, Bool.and_eq_true, decide_eq_true_eq,
    List.all_eq_true, and_comm]
  refine and_congr_left fun _ => ⟨fun hall hdot => absurd (hall '.' hdot) (by decide), fun hdot c hc => ?_⟩
  have hchar := hchars c hc
  simp only [Bool.or_eq_true] at hchar ⊢
  rcases hchar with hchar | hchar
  · exact hchar
  · rw [beq_iff_eq] at hchar
    exact absurd (hchar ▸ hc) hdot

/-- The options with which the gate runs for a selection of features. -/
def featureOptions (required : RequiredConfigurations) (stage : VerifyStage) (group : List String) :
    ValidationOptions :=
  (cellRequest (hostCell required ⟨"", group, false, ""⟩ stage).toMatrixCell).options

/-- The gate takes a cell. -/
def Accepted (isAlphanumeric : Char → Bool) (cell : PlannedCell) : Prop :=
  (cellRequest cell.toMatrixCell).options.validate isAlphanumeric cell.stage.target = .ok ()

variable {isAlphanumeric : Char → Bool} {input : PlanInput}

lemma accepted_iff (cell : PlannedCell) : Accepted isAlphanumeric cell ↔ cell.features.length ≤ 64 ∧
      (∀ feature ∈ cell.features, boundedFeature feature = true) ∧
      (∀ triple ∈ cell.targetTriple, boundedTriple triple = true) ∧
      (cell.runner = .nextest → cell.stage.target = .test ∨ cell.stage.target = .all) := by
  refine validate_ok_iff rfl rfl rfl rfl ?_
  cases cell.stage <;> decide

lemma accepted_hostCell_iff (required : RequiredConfigurations) (set : FeatureSet) (stage : VerifyStage) :
    Accepted isAlphanumeric (hostCell required set stage) ↔
      set.features.length ≤ 64 ∧ ∀ feature ∈ set.features, boundedFeature feature = true := by
  rw [accepted_iff]
  have hrunner : (hostCell required set stage).runner = .nextest →
      (hostCell required set stage).stage.target = .test ∨ (hostCell required set stage).stage.target = .all := by
    intro hnextest
    have hstage : stage = .test := by
      by_contra hother
      have hcargo : (hostCell required set stage).runner = .cargo := if_neg hother
      rw [hcargo] at hnextest
      exact absurd hnextest (by decide)
    exact Or.inl (by rw [show (hostCell required set stage).stage = stage from rfl, hstage]; rfl)
  have htriple : ∀ triple ∈ (hostCell required set stage).targetTriple, boundedTriple triple = true :=
    fun triple h => absurd h (by simp [hostCell])
  exact ⟨fun h => ⟨h.1, h.2.1⟩, fun h => ⟨h.1, h.2, htriple, hrunner⟩⟩

lemma of_mem_admittedGroups {group : List String} (h : group ∈ admittedGroups input) :
    group.length ≤ maxGroupFeatures ∧ ∀ feature ∈ group, validFeatureName feature = true := by
  obtain ⟨hnormal, hrefusal⟩ := List.mem_filter.mp h
  obtain ⟨listed, hlisted, rfl⟩ := List.mem_map.mp (List.mem_eraseDups.mp hnormal)
  refine ⟨?_, fun feature hfeature => ?_⟩
  · have hsized := (List.mem_filter.mp hlisted).2
    rw [sizedGroup, Bool.and_eq_true, decide_eq_true_eq] at hsized
    refine le_trans ?_ hsized.2
    rw [← List.length_insertionSort (· ≤ ·) listed]
    exact (List.dedup_sublist _).length_le
  · by_contra hinvalid
    unfold groupRefusal at hrefusal
    have hfind : ((normalizeGroup listed).find? fun feature => !validFeatureName feature).isSome := by
      rw [List.find?_isSome]
      exact ⟨feature, hfeature, by simpa using hinvalid⟩
    obtain ⟨bad, hbad⟩ := Option.isSome_iff_exists.mp hfind
    rw [hbad] at hrefusal
    exact absurd hrefusal (by simp)

lemma looksLikeTriple_of_mem_admittedTargets {target : String}
    (h : target ∈ admittedTargets input) : looksLikeTriple target = true :=
  (List.mem_filter.mp (List.mem_eraseDups.mp (List.mem_filter.mp h).1)).2

/-- No weak selector is planned, and no triple with a dot or beyond the bound. -/
def PlansBoundedNames (input : PlanInput) (maxCells : ℕ) : Prop :=
  (∀ i group, (admittedGroups input)[i]? = some group →
    ((defaultSets input.required).length + i) * input.stages.length < maxCells →
      ∀ feature ∈ group, '?' ∉ feature.toList) ∧
  ∀ i target, (admittedTargets input)[i]? = some target → hostCells input + i < maxCells →
    '.' ∉ target.toList ∧ target.utf8ByteSize ≤ 128

lemma forall_selections_iff {Q : List String × Bool → Prop} {bound : ℕ → Prop}
    (hdefault : ∀ noDefault, Q ([], noDefault)) :
    (∀ i selection, (selections input)[i]? = some selection → bound i → Q selection) ↔
      ∀ i group, (admittedGroups input)[i]? = some group →
        bound ((defaultSets input.required).length + i) → Q (group, false) := by
  unfold selections
  constructor
  · intro h i group hgroup hbound
    refine h _ _ ?_ hbound
    rw [List.getElem?_append_right (by rw [List.length_map]; exact Nat.le_add_right _ _), List.length_map,
      Nat.add_sub_cancel_left, List.getElem?_map, hgroup, Option.map_some]
  · intro h i selection hselection hbound
    by_cases hi : i < (defaultSets input.required).length
    · rw [List.getElem?_append_left (by rwa [List.length_map]), List.getElem?_map,
        Option.map_eq_some_iff] at hselection
      obtain ⟨set, hset, rfl⟩ := hselection
      have hfeatures : set.features = [] := by
        rcases List.mem_append.mp (List.mem_of_getElem? hset) with hmem | hmem
        · split_ifs at hmem
          · rw [List.mem_singleton.mp hmem]
          · exact absurd hmem List.not_mem_nil
        · split_ifs at hmem
          · rw [List.mem_singleton.mp hmem]
          · exact absurd hmem List.not_mem_nil
      rw [FeatureSet.selection, hfeatures]
      exact hdefault _
    · rw [not_lt] at hi
      obtain ⟨k, rfl⟩ := Nat.exists_eq_add_of_le hi
      rw [List.getElem?_append_right (by rw [List.length_map]; exact hi), List.length_map,
        Nat.add_sub_cancel_left, List.getElem?_map, Option.map_eq_some_iff] at hselection
      obtain ⟨group, hgroup, rfl⟩ := hselection
      exact h k group hgroup hbound

/-- The gate takes every cell exactly when no name is the planner's only. -/
theorem accepted_cells_iff (isAlphanumeric : Char → Bool) (input : PlanInput) (maxCells : ℕ) :
    (∀ cell ∈ (buildPlan input maxCells).cells, Accepted isAlphanumeric cell) ↔ PlansBoundedNames input maxCells := by
  have hcells := forall_cells_iff input maxCells (P := Accepted isAlphanumeric)
    (Q := fun selection => selection.1.length ≤ 64 ∧ ∀ feature ∈ selection.1, boundedFeature feature = true)
    (fun _ => Iff.rfl) (accepted_hostCell_iff input.required)
  rw [hcells, PlansBoundedNames, forall_selections_iff (fun _ => by simp)]
  refine and_congr ?_ ⟨fun h => ?_, fun h => ⟨?_, ?_⟩⟩
  · refine forall_congr' fun i => forall_congr' fun group => forall_congr' fun hgroup =>
      imp_congr_right fun _ => ?_
    obtain ⟨hlen, hvalid⟩ := of_mem_admittedGroups (List.mem_of_getElem? hgroup)
    constructor
    · exact fun h feature hfeature => (boundedFeature_iff (hvalid feature hfeature)).mp (h.2 feature hfeature)
    · exact fun h => ⟨le_trans hlen (by decide),
        fun feature hfeature => (boundedFeature_iff (hvalid feature hfeature)).mpr (h feature hfeature)⟩
  · intro i target htarget hbound
    have htriple := looksLikeTriple_of_mem_admittedTargets (List.mem_of_getElem? htarget)
    exact (boundedTriple_iff htriple).mp (((accepted_iff _).mp (h.1 i target htarget hbound)).2.2.1 target rfl)
  · intro i target htarget hbound
    have htriple := looksLikeTriple_of_mem_admittedTargets (List.mem_of_getElem? htarget)
    refine (accepted_iff _).mpr ⟨Nat.zero_le _, fun feature hfeature => absurd hfeature List.not_mem_nil, ?_,
      fun hrunner => absurd hrunner (by simp [targetCell])⟩
    rintro triple htripleMem
    obtain rfl : target = triple := Option.some.inj htripleMem
    exact (boundedTriple_iff htriple).mpr (h i target htarget hbound)
  · intro cell hcell _
    unfold admittedMsrv at hcell
    split at hcell
    · obtain rfl := List.mem_singleton.mp hcell
      exact (accepted_iff _).mpr ⟨Nat.zero_le _, fun feature hfeature => absurd hfeature List.not_mem_nil,
        fun triple htriple => absurd htriple (by simp [msrvCell]),
        fun hrunner => absurd hrunner (by simp [msrvCell])⟩
    · exact absurd hcell List.not_mem_nil

/-! ## What is skipped -/

section

variable {policy : ProjectPolicy} {features : FeatureMap} {done : List (String × List String)} {loop : GroupLoop}

/-- A group gone through is skipped, or seen in its normal form. -/
structure GroupLoop.Tells (policy : ProjectPolicy) (features : FeatureMap)
    (done : List (String × List String)) (loop : GroupLoop) : Prop where
  listed : ∀ labelled ∈ done, (∃ skipped ∈ loop.skipped, skipped.id = labelled.1) ∨
    normalizeGroup labelled.2 ∈ loop.seen
  refused : ∀ group ∈ loop.seen, (groupRefusal policy features group).isSome = true →
    ∃ other ∈ done, normalizeGroup other.2 = group ∧ ∃ skipped ∈ loop.skipped, skipped.id = other.1

lemma GroupLoop.Tells.step (h : loop.Tells policy features done) (labelled : String × List String) :
    (planGroup policy features loop labelled).Tells policy features (done ++ [labelled]) := by
  have hold : ∀ loop' : GroupLoop, loop.skipped ⊆ loop'.skipped → loop.seen ⊆ loop'.seen →
      ((∃ skipped ∈ loop'.skipped, skipped.id = labelled.1) ∨ normalizeGroup labelled.2 ∈ loop'.seen) →
      (∀ group ∈ loop'.seen, group ∈ loop.seen ∨ group = normalizeGroup labelled.2 ∧
        ((groupRefusal policy features group).isSome = true → ∃ skipped ∈ loop'.skipped, skipped.id = labelled.1)) →
      loop'.Tells policy features (done ++ [labelled]) := by
    intro loop' hskipped hseen hnew hnewSeen
    constructor
    · intro other hother
      rcases List.mem_append.mp hother with hother | hother
      · rcases h.listed other hother with ⟨skipped, hmem, hid⟩ | hmem
        · exact Or.inl ⟨skipped, hskipped hmem, hid⟩
        · exact Or.inr (hseen hmem)
      · obtain rfl := List.mem_singleton.mp hother
        exact hnew
    · intro group hgroup hrefusal
      rcases hnewSeen group hgroup with hmem | ⟨rfl, hself⟩
      · obtain ⟨other, hother, hnormal, skipped, hskip, hid⟩ := h.refused group hmem hrefusal
        exact ⟨other, List.mem_append_left _ hother, hnormal, skipped, hskipped hskip, hid⟩
      · exact ⟨labelled, List.mem_append_right _ List.mem_cons_self, rfl, hself hrefusal⟩
  unfold planGroup
  dsimp only
  split_ifs with hsize hseen
  · exact hold _ (List.subset_append_left _ _) (List.Subset.refl _)
      (Or.inl ⟨_, List.mem_append_right _ List.mem_cons_self, rfl⟩) fun group hgroup => Or.inl hgroup
  · exact hold _ (List.Subset.refl _) (List.Subset.refl _) (Or.inr hseen) fun group hgroup => Or.inl hgroup
  · cases hrefusal : groupRefusal policy features (normalizeGroup labelled.2) with
    | some reason =>
      refine hold _ (List.subset_append_left _ _) (List.subset_cons_self _ _) (Or.inr List.mem_cons_self)
        fun group hgroup => ?_
      rcases List.mem_cons.mp hgroup with rfl | hgroup
      · exact Or.inr ⟨rfl, fun _ => ⟨_, List.mem_append_right _ List.mem_cons_self, rfl⟩⟩
      · exact Or.inl hgroup
    | none =>
      refine hold _ (List.Subset.refl _) (List.subset_cons_self _ _) (Or.inr List.mem_cons_self)
        fun group hgroup => ?_
      rcases List.mem_cons.mp hgroup with rfl | hgroup
      · exact Or.inr ⟨rfl, fun hsome => absurd hsome (by rw [hrefusal]; exact Bool.false_ne_true)⟩
      · exact Or.inl hgroup

lemma tells_foldl (groups : List (String × List String)) (h : loop.Tells policy features done) :
    (groups.foldl (planGroup policy features) loop).Tells policy features (done ++ groups) := by
  induction groups generalizing done loop with
  | nil =>
    rw [List.append_nil]
    exact h
  | cons labelled groups ih =>
    rw [List.foldl_cons, List.append_cons]
    exact ih (h.step labelled)

lemma admitted_or_skipped (input : PlanInput) {labelled : String × List String}
    (h : labelled ∈ labelledGroups input.required input.policy) : normalizeGroup labelled.2 ∈ admittedGroups input ∨
      ∃ skipped ∈ (featureSets input.required input.policy input.features).2,
        ∃ other ∈ labelledGroups input.required input.policy,
          normalizeGroup other.2 = normalizeGroup labelled.2 ∧ skipped.id = other.1 := by
  have hstart : GroupLoop.Tells input.policy input.features []
      ⟨[], defaultSets input.required, excessGroups input.required⟩ :=
    ⟨fun _ hmem => absurd hmem List.not_mem_nil, fun _ hmem => absurd hmem List.not_mem_nil⟩
  have hfollows : GroupLoop.Follows input.policy input.features (defaultSets input.required) []
      ⟨[], defaultSets input.required, excessGroups input.required⟩ :=
    ⟨fun _ => Iff.rfl, (List.append_nil _).symm⟩
  have htells := tells_foldl (labelledGroups input.required input.policy) hstart
  have hseen := (follows_foldl (labelledGroups input.required input.policy) hfollows).seen
  rw [List.nil_append] at htells hseen
  rcases htells.listed labelled h with ⟨skipped, hskipped, hid⟩ | hmem
  · exact Or.inr ⟨skipped, hskipped, labelled, h, rfl, hid⟩
  · cases hrefusal : groupRefusal input.policy input.features (normalizeGroup labelled.2) with
    | some reason =>
      obtain ⟨other, hother, hnormal, skipped, hskipped, hid⟩ :=
        htells.refused _ hmem (by rw [hrefusal]; rfl)
      exact Or.inr ⟨skipped, hskipped, other, hother, hnormal, hid⟩
    | none =>
      refine Or.inl (List.mem_filter.mpr ⟨(hseen _).mp hmem, ?_⟩)
      rw [hrefusal]
      rfl

end

section

variable {planning : Planning}

lemma subset_planFeatures (required : RequiredConfigurations) (stages : List VerifyStage)
    (sets : List FeatureSet) : (planFeatures required stages sets planning).skipped = planning.skipped := by
  unfold planFeatures
  induction sets generalizing planning with
  | nil => rfl
  | cons set sets ih =>
    have hset : ∀ (stages : List VerifyStage) (planning : Planning),
        (stages.foldl (fun planning stage => planning.pushCell (hostCell required set stage)
          (specId set.label "host" "default" stage.asStr)) planning).skipped = planning.skipped := by
      intro stages
      induction stages with
      | nil => exact fun _ => rfl
      | cons stage stages ih => exact fun planning => ih _
    rw [List.foldl_cons, ih, hset]

/-- The targets gone through are seen or skipped; refused ones are skipped. -/
structure TargetTells (facts : ToolchainFacts) (stages : List VerifyStage) (start : List SkippedCell)
    (done : List String) (state : List String × Planning) : Prop where
  start : start ⊆ state.2.skipped
  listed : ∀ target ∈ done, (∃ skipped ∈ state.2.skipped, skipped.id = "target-" ++ sanitizeId target) ∨
    target ∈ state.1
  refused : ∀ target ∈ state.1, (targetRefusal facts stages target).isSome = true →
    ∃ skipped ∈ state.2.skipped, skipped.id = "target-" ++ sanitizeId target

lemma TargetTells.step {facts : ToolchainFacts} {stages : List VerifyStage} {start : List SkippedCell}
    {done : List String} {state : List String × Planning} (h : TargetTells facts stages start done state)
    (target : String) : TargetTells facts stages start (done ++ [target]) (planTarget facts stages state target) := by
  have hold : ∀ state' : List String × Planning, state.2.skipped ⊆ state'.2.skipped → state.1 ⊆ state'.1 →
      ((∃ skipped ∈ state'.2.skipped, skipped.id = "target-" ++ sanitizeId target) ∨ target ∈ state'.1) →
      (∀ other ∈ state'.1, other ∈ state.1 ∨ other = target ∧ ((targetRefusal facts stages other).isSome = true →
          ∃ skipped ∈ state'.2.skipped, skipped.id = "target-" ++ sanitizeId target)) →
      TargetTells facts stages start (done ++ [target]) state' := by
    intro state' hskipped hseen hnew hnewSeen
    refine ⟨fun skipped hmem => hskipped (h.start hmem), ?_, ?_⟩
    · intro other hother
      rcases List.mem_append.mp hother with hother | hother
      · rcases h.listed other hother with ⟨skipped, hmem, hid⟩ | hmem
        · exact Or.inl ⟨skipped, hskipped hmem, hid⟩
        · exact Or.inr (hseen hmem)
      · obtain rfl := List.mem_singleton.mp hother
        exact hnew
    · intro other hother hrefusal
      rcases hnewSeen other hother with hmem | ⟨rfl, hself⟩
      · obtain ⟨skipped, hskip, hid⟩ := h.refused other hmem hrefusal
        exact ⟨skipped, hskipped hskip, hid⟩
      · exact hself hrefusal
  obtain ⟨seen, planning⟩ := state
  unfold planTarget
  dsimp only
  split_ifs with htriple hseen
  · exact hold _ (List.subset_append_left _ _) (List.Subset.refl _)
      (Or.inl ⟨_, List.mem_append_right _ List.mem_cons_self, rfl⟩) fun other hother => Or.inl hother
  · exact hold _ (List.Subset.refl _) (List.Subset.refl _) (Or.inr hseen) fun other hother => Or.inl hother
  · cases hrefusal : targetRefusal facts stages target with
    | some refusal =>
      refine hold _ (List.subset_append_left _ _) (List.subset_cons_self _ _) (Or.inr List.mem_cons_self)
        fun other hother => ?_
      rcases List.mem_cons.mp hother with rfl | hother
      · exact Or.inr ⟨rfl, fun _ => ⟨_, List.mem_append_right _ List.mem_cons_self, rfl⟩⟩
      · exact Or.inl hother
    | none =>
      refine hold _ (List.Subset.refl _) (List.subset_cons_self _ _) (Or.inr List.mem_cons_self)
        fun other hother => ?_
      rcases List.mem_cons.mp hother with rfl | hother
      · exact Or.inr ⟨rfl, fun hsome => absurd hsome (by rw [hrefusal]; exact Bool.false_ne_true)⟩
      · exact Or.inl hother

lemma tells_foldl_planTarget {facts : ToolchainFacts} {stages : List VerifyStage}
    {start : List SkippedCell} {done : List String} {state : List String × Planning} (targets : List String)
    (h : TargetTells facts stages start done state) :
    TargetTells facts stages start (done ++ targets) (targets.foldl (planTarget facts stages) state) := by
  induction targets generalizing done state with
  | nil =>
    rw [List.append_nil]
    exact h
  | cons target targets ih =>
    rw [List.foldl_cons, List.append_cons]
    exact ih (h.step target)

lemma tells_planTargets (input : PlanInput) :
    let final := planTargets input.required input.policy input.facts input.stages planning
    planning.skipped ⊆ final.skipped ∧ ∀ target ∈ namedTargets input.required input.policy input.facts,
        target ∈ admittedTargets input ∨ ∃ skipped ∈ final.skipped, skipped.id = "target-" ++ sanitizeId target := by
  intro final
  have hstart : TargetTells input.facts input.stages planning.skipped [] ([], planning) :=
    ⟨List.Subset.refl _, fun _ hmem => absurd hmem List.not_mem_nil,
      fun _ hmem => absurd hmem List.not_mem_nil⟩
  have hfollows : TargetFollows input.facts input.stages
      (planning.cells.map PlannedCell.configuration) [] ([], planning) :=
    ⟨fun _ => Iff.rfl, (List.append_nil _).symm⟩
  have htells := tells_foldl_planTarget (namedTargets input.required input.policy input.facts) hstart
  have hseen := (follows_foldl_planTarget (namedTargets input.required input.policy input.facts) hfollows).seen
  rw [List.nil_append] at htells hseen
  obtain ⟨extra, hextra⟩ : ∃ extra, final.skipped = ((namedTargets input.required input.policy input.facts).foldl
        (planTarget input.facts input.stages) ([], planning)).2.skipped ++ extra := by
    change ∃ extra, (planTargets input.required input.policy input.facts input.stages planning).skipped = _
    unfold planTargets
    dsimp only
    split_ifs
    · exact ⟨_, rfl⟩
    · exact ⟨[], (List.append_nil _).symm⟩
  rw [hextra]
  refine ⟨fun skipped hmem => List.mem_append_left _ (htells.start hmem), fun target htarget => ?_⟩
  rcases htells.listed target htarget with ⟨skipped, hmem, hid⟩ | hmem
  · exact Or.inr ⟨skipped, List.mem_append_left _ hmem, hid⟩
  · cases hrefusal : targetRefusal input.facts input.stages target with
    | some refusal =>
      obtain ⟨skipped, hskip, hid⟩ := htells.refused target hmem (by rw [hrefusal]; rfl)
      exact Or.inr ⟨skipped, List.mem_append_left _ hskip, hid⟩
    | none =>
      refine Or.inl (List.mem_filter.mpr ⟨(hseen _).mp hmem, ?_⟩)
      rw [hrefusal]
      rfl

lemma subset_planMsrv (input : PlanInput) : planning.skipped ⊆
    (planMsrv input.required input.policy input.facts input.snapshot planning).skipped := by
  unfold planMsrv
  split
  · exact List.Subset.refl _
  · exact List.subset_append_left _ _
  · exact List.Subset.refl _

end

/-! ## Planner and gate -/

/-- What the gate would refuse is skipped: a group, a target, or a cell past the bound. -/
def RefusedSkipped (isAlphanumeric : Char → Bool) (input : PlanInput) (maxCells : ℕ) : Prop :=
  (∀ labelled ∈ labelledGroups input.required input.policy, ∀ stage ∈ input.stages,
    (featureOptions input.required stage (normalizeGroup labelled.2)).validate isAlphanumeric stage.target ≠ .ok () →
      ∃ skipped ∈ (buildPlan input maxCells).skipped, (∃ other ∈ labelledGroups input.required input.policy,
          normalizeGroup other.2 = normalizeGroup labelled.2 ∧ skipped.id = other.1) ∨
        ∃ cell ∈ input.planning.cells, cell.features = normalizeGroup labelled.2 ∧ skipped = budgetSkip cell) ∧
  ∀ target ∈ namedTargets input.required input.policy input.facts, ¬ Accepted isAlphanumeric (targetCell target) →
      ∃ skipped ∈ (buildPlan input maxCells).skipped, skipped.id = "target-" ++ sanitizeId target ∨
        ∃ cell ∈ input.planning.cells, cell.targetTriple = some target ∧ skipped = budgetSkip cell

lemma mem_cells_or_budgetSkip {configuration : PlannedCell}
    (h : configuration ∈ configurations input) (maxCells : ℕ) :
    ∃ cell ∈ input.planning.cells, cell.configuration = configuration ∧
      (cell ∈ (buildPlan input maxCells).cells ∨ budgetSkip cell ∈ (buildPlan input maxCells).skipped) := by
  rw [← map_configuration_planning] at h
  obtain ⟨cell, hcell, hconfiguration⟩ := List.mem_map.mp h
  refine ⟨cell, hcell, hconfiguration, ?_⟩
  rw [← List.take_append_drop maxCells input.planning.cells] at hcell
  exact (List.mem_append.mp hcell).imp_right fun hcut =>
    List.mem_append_right _ (List.mem_map.mpr ⟨cell, hcut, rfl⟩)

lemma skipped_buildPlan (input : PlanInput) (maxCells : ℕ) :
    (featureSets input.required input.policy input.features).2 ⊆ (buildPlan input maxCells).skipped ∧
      ∀ target ∈ namedTargets input.required input.policy input.facts, target ∈ admittedTargets input ∨
        ∃ skipped ∈ (buildPlan input maxCells).skipped, skipped.id = "target-" ++ sanitizeId target := by
  obtain ⟨hkept, htargets⟩ := @tells_planTargets
    (planFeatures input.required input.stages (featureSets input.required input.policy input.features).1
      ⟨[], (featureSets input.required input.policy input.features).2, []⟩) input
  rw [subset_planFeatures] at hkept
  have hplan : (planTargets input.required input.policy input.facts input.stages
      (planFeatures input.required input.stages (featureSets input.required input.policy input.features).1
        ⟨[], (featureSets input.required input.policy input.features).2, []⟩)).skipped ⊆
      (buildPlan input maxCells).skipped :=
    fun skipped hmem => List.mem_append_left _ (subset_planMsrv input hmem)
  refine ⟨fun skipped hmem => hplan (hkept hmem), fun target htarget => ?_⟩
  exact (htargets target htarget).imp_right fun ⟨skipped, hmem, hid⟩ => ⟨skipped, hplan hmem, hid⟩

lemma refusedSkipped_of_accepted {maxCells : ℕ}
    (h : ∀ cell ∈ (buildPlan input maxCells).cells, Accepted isAlphanumeric cell) :
    RefusedSkipped isAlphanumeric input maxCells := by
  obtain ⟨hgroups, htargets⟩ := skipped_buildPlan input maxCells
  refine ⟨fun labelled hlabelled stage hstage hrefused => ?_, fun target htarget hrefused => ?_⟩
  · rcases admitted_or_skipped input hlabelled with hadmitted | ⟨skipped, hskipped, hlabel⟩
    · obtain ⟨set, hset, hselection⟩ : ∃ set ∈ (featureSets input.required input.policy input.features).1,
          set.selection = (normalizeGroup labelled.2, false) := by
        refine List.mem_map.mp ?_
        rw [map_selection_featureSets]
        exact List.mem_append_right _ (List.mem_map.mpr ⟨_, hadmitted, rfl⟩)
      have hfeatures : set.features = normalizeGroup labelled.2 := (Prod.mk.inj hselection).1
      have hmem : hostCell input.required set stage ∈ configurations input :=
        List.mem_append_left _ (List.mem_append_left _
          (List.mem_flatMap.mpr ⟨set, hset, List.mem_map.mpr ⟨stage, hstage, rfl⟩⟩))
      obtain ⟨cell, hcell, hconfiguration, hplanned | hcut⟩ := mem_cells_or_budgetSkip hmem maxCells
      · refine absurd ?_ hrefused
        have haccepted : Accepted isAlphanumeric cell.configuration := h cell hplanned
        rw [hconfiguration, accepted_hostCell_iff, hfeatures] at haccepted
        exact (accepted_hostCell_iff input.required ⟨"", normalizeGroup labelled.2, false, ""⟩ stage).mpr
          haccepted
      · refine ⟨_, hcut, Or.inr ⟨cell, hcell, ?_, rfl⟩⟩
        have hcellFeatures := congrArg (fun cell : PlannedCell => cell.features) hconfiguration
        exact hcellFeatures.trans hfeatures
    · exact ⟨skipped, hgroups hskipped, Or.inl hlabel⟩
  · rcases htargets target htarget with hadmitted | ⟨skipped, hskipped, hid⟩
    · have hmem : targetCell target ∈ configurations input :=
        List.mem_append_left _ (List.mem_append_right _ (List.mem_map.mpr ⟨target, hadmitted, rfl⟩))
      obtain ⟨cell, hcell, hconfiguration, hplanned | hcut⟩ := mem_cells_or_budgetSkip hmem maxCells
      · refine absurd ?_ hrefused
        have haccepted : Accepted isAlphanumeric cell.configuration := h cell hplanned
        rwa [hconfiguration] at haccepted
      · exact ⟨_, hcut, Or.inr ⟨cell, hcell,
          congrArg (fun cell : PlannedCell => cell.targetTriple) hconfiguration, rfl⟩⟩
    · exact ⟨skipped, hskipped, Or.inl hid⟩

/-- Planner and gate agree exactly without weak selectors and triples of the planner only. -/
theorem planned_options_accepted_iff (isAlphanumeric : Char → Bool) (input : PlanInput) (maxCells : ℕ) :
    ((∀ cell ∈ (buildPlan input maxCells).cells, Accepted isAlphanumeric cell) ∧
      RefusedSkipped isAlphanumeric input maxCells) ↔ PlansBoundedNames input maxCells := by
  rw [← accepted_cells_iff isAlphanumeric]
  exact ⟨And.left, fun h => ⟨h, refusedSkipped_of_accepted h⟩⟩

/-- A plan with the target of a microcontroller, whose triple has a dot. -/
def thumbInput : PlanInput where
  required := { targets := ["thumbv8m.main-none-eabi"] }
  policy := ⟨"defaults", [], [], [], none, []⟩
  facts := ⟨some "x86_64-unknown-linux-gnu", ["thumbv8m.main-none-eabi"], [], false, [], fun _ => none⟩
  snapshot := ⟨[⟨"app 0.1.0", [], none⟩], ["app 0.1.0"]⟩
  resolver := "2"
  warnings := []

/-- The check of the microcontroller is planned, and the gate refuses it. -/
theorem planned_options_refused : ¬ ((∀ cell ∈ (buildPlan thumbInput 8).cells, Accepted Char.isAlphanum cell) ∧
    RefusedSkipped Char.isAlphanum thumbInput 8) := by
  rintro ⟨haccepted, -⟩
  have hnames := (accepted_cells_iff Char.isAlphanum thumbInput 8).mp haccepted
  have htarget : (admittedTargets thumbInput)[0]? = some "thumbv8m.main-none-eabi" := by decide +kernel
  exact (hnames.2 0 _ htarget (by decide +kernel)).1 (by decide +kernel)

end AgzRustMcp.Verify
