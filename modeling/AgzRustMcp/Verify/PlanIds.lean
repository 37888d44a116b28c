import AgzRustMcp.Verify.MatrixPlan

/-!
# The identifiers of a plan

The cells of a plan have different identifiers, since `unique_id` ends on one that is free
(`uniqueId_notMem`).  Sanitising keeps what tells the cells from the skipped candidates: two dashes
in a row, and another start than those of skipped targets (`sound_planning`).
-/

namespace AgzRustMcp.Verify

open Utf8Text

lemma numberedId_inj {base : String} {m n : ℕ} (h : numberedId base m = numberedId base n) : m = n := by
  unfold numberedId at h
  have hlist := congrArg String.toList h
  simp only [String.toList_append] at hlist
  have hdigits := List.append_cancel_left hlist
  have hnumbers := congrArg (fun digits => Nat.ofDigitChars 10 digits 0) hdigits
  simpa [Nat.toString_eq_ofList_toDigits] using hnumbers

lemma freeId_notMem_or (used : List String) (base : String) (fuel suffix : ℕ) :
    freeId used base fuel suffix ∉ used ∨ ∀ k ≤ fuel, numberedId base (suffix + k) ∈ used := by
  induction fuel generalizing suffix with
  | zero =>
    rw [freeId]
    by_cases hmem : numberedId base suffix ∈ used
    · exact Or.inr fun k hk => by rwa [Nat.le_zero.mp hk]
    · exact Or.inl hmem
  | succ fuel ih =>
    rw [freeId]
    split_ifs with hmem
    · rcases ih (suffix + 1) with hfree | htaken
      · exact Or.inl hfree
      · refine Or.inr fun k hk => ?_
        cases k with
        | zero => exact hmem
        | succ k =>
          have hnext := htaken k (by omega)
          rwa [Nat.add_right_comm] at hnext
    · exact Or.inl hmem

/-- A unique identifier is not taken. -/
theorem uniqueId_notMem (used : List String) (base : String) : uniqueId used base ∉ used := by
  unfold uniqueId
  dsimp only
  split_ifs with hbase
  · rcases freeId_notMem_or used (sanitizeId base) used.length 2 with hfree | htaken
    · exact hfree
    · -- More identifiers would be taken than there are.
      exfalso
      have hnodup : ((List.range (used.length + 1)).map
          fun k => numberedId (sanitizeId base) (2 + k)).Nodup := by
        refine (List.nodup_map_iff fun m n h => ?_).mpr List.nodup_range
        have hnumbers := numberedId_inj h
        omega
      have hsub : (List.range (used.length + 1)).map (fun k => numberedId (sanitizeId base) (2 + k)) ⊆
          used := by
        intro id hid
        obtain ⟨k, hk, rfl⟩ := List.mem_map.mp hid
        exact htaken k (Nat.lt_succ_iff.mp (List.mem_range.mp hk))
      have hlen := (hnodup.subperm hsub).length_le
      rw [List.length_map, List.length_range] at hlen
      omega
  · exact hbase

lemma exists_uniqueId (used : List String) (base : String) :
    ∃ rest, (uniqueId used base).toList = (sanitizeId base).toList ++ rest := by
  have hfree : ∀ fuel suffix, ∃ rest,
      (freeId used (sanitizeId base) fuel suffix).toList = (sanitizeId base).toList ++ rest := by
    intro fuel
    induction fuel with
    | zero => exact fun suffix => ⟨_, by rw [freeId, numberedId, String.append_assoc, String.toList_append]⟩
    | succ fuel ih =>
      intro suffix
      rw [freeId]
      split_ifs
      · exact ih (suffix + 1)
      · exact ⟨_, by rw [numberedId, String.append_assoc, String.toList_append]⟩
  unfold uniqueId
  dsimp only
  split_ifs
  · exact hfree _ _
  · exact ⟨[], (List.append_nil _).symm⟩

/-! ## Two dashes -/

/-- A text has two dashes in a row. -/
def doubleDash : Text → Bool
  | [] => false
  | c :: t => (c == '-' && t.head? == some '-') || doubleDash t

variable {t : Text} {policy : ProjectPolicy}

lemma doubleDash_append_left (h : doubleDash t = true) (rest : Text) : doubleDash (t ++ rest) = true := by
  induction t with
  | nil => exact absurd h (by decide)
  | cons c t ih =>
    rw [doubleDash, Bool.or_eq_true, Bool.and_eq_true] at h
    rw [List.cons_append, doubleDash, Bool.or_eq_true, Bool.and_eq_true]
    rcases h with ⟨hc, ht⟩ | ht
    · refine Or.inl ⟨hc, ?_⟩
      cases t with
      | nil => exact absurd ht (by decide)
      | cons d t => exact ht
    · exact Or.inr (ih ht)

lemma doubleDash_append_right (h : doubleDash t = true) (front : Text) : doubleDash (front ++ t) = true := by
  induction front with
  | nil => exact h
  | cons c front ih => rw [List.cons_append, doubleDash, ih, Bool.or_true]

lemma doubleDash_map {f : Char → Char} (hf : f '-' = '-') (h : doubleDash t = true) :
    doubleDash (t.map f) = true := by
  induction t with
  | nil => exact h
  | cons c t ih =>
    rw [doubleDash, Bool.or_eq_true, Bool.and_eq_true, beq_iff_eq, beq_iff_eq] at h
    rw [List.map_cons, doubleDash, Bool.or_eq_true, Bool.and_eq_true, beq_iff_eq, beq_iff_eq]
    rcases h with ⟨rfl, ht⟩ | ht
    · exact Or.inl ⟨hf, by rw [List.head?_map, ht, Option.map_some, hf]⟩
    · exact Or.inr (ih ht)

lemma doubleDash_of_digits (h : ∀ c ∈ t, c.isDigit = true) : doubleDash t = false := by
  induction t with
  | nil => rfl
  | cons c t ih =>
    have hc : c ≠ '-' := by
      rintro rfl
      exact absurd (h '-' List.mem_cons_self) (by decide)
    rw [doubleDash, ih fun d hd => h d (List.mem_cons_of_mem _ hd), beq_false_of_ne hc]
    rfl

lemma doubleDash_numbered {front : Text} (h : doubleDash (front ++ ['0']) = false) (n : ℕ) :
    doubleDash (front ++ (toString n).toList) = false := by
  have hdigits : ∀ c ∈ (toString n).toList, c.isDigit = true := by
    intro c hc
    rw [Nat.toString_eq_repr, Nat.toList_repr] at hc
    exact Nat.isDigit_of_mem_toDigits (by decide) (by decide) hc
  generalize (toString n).toList = digits at hdigits
  cases digits with
  | nil =>
    rw [List.append_nil]
    by_contra hdash
    rw [Bool.not_eq_false] at hdash
    rw [doubleDash_append_left hdash] at h
    exact absurd h (by decide)
  | cons d digits =>
    induction front with
    | nil => exact doubleDash_of_digits hdigits
    | cons c front ih =>
      rw [List.cons_append, doubleDash, Bool.or_eq_false_iff] at h ⊢
      refine ⟨?_, ih h.2⟩
      cases front with
      | nil =>
        have hd : d ≠ '-' := by
          rintro rfl
          exact absurd (hdigits '-' List.mem_cons_self) (by decide)
        simp [hd]
      | cons e front => exact h.1

/-! ## Cells and skipped candidates -/

/-- How the identifiers of cells look. -/
def IsCellId (id : String) : Prop := doubleDash id.toList = true ∧ id.toList.head? ≠ some 't'

/-- The first characters of the labels. -/
def labelHeads : List Char := ['d', 'n', 'p', 'r']

/-- How the labels of feature sets look. -/
structure IsLabel (label : String) : Prop where
  head : ∃ c ∈ labelHeads, label.toList.head? = some c
  noDash : doubleDash label.toList = false

lemma IsLabel.not_isCellId {label : String} (h : IsLabel label) : ¬ IsCellId label := by
  rintro ⟨hdash, -⟩
  rw [h.noDash] at hdash
  exact absurd hdash (by decide)

lemma isCellId_uniqueId {label : String} (h : ∃ c ∈ labelHeads, label.toList.head? = some c) (used : List String)
    (target toolchain stage : String) : IsCellId (uniqueId used (specId label target toolchain stage)) := by
  obtain ⟨c, hc, hhead⟩ := h
  obtain ⟨tail, hlabel⟩ : ∃ tail, label.toList = c :: tail := by
    cases hlist : label.toList with
    | nil => simp [hlist] at hhead
    | cons d tail =>
      rw [hlist, List.head?_cons] at hhead
      exact ⟨tail, by rw [Option.some.inj hhead]⟩
  have hspec : (specId label target toolchain stage).toList =
      c :: tail ++ ("--".toList ++ (target ++ "--" ++ toolchain ++ "--" ++ stage).toList) := by
    simp only [specId, String.append_assoc, String.toList_append, hlabel]
  have hdash : doubleDash (specId label target toolchain stage).toList = true := by
    rw [hspec]
    exact doubleDash_append_right (doubleDash_append_left (by decide) _) _
  obtain ⟨rest, hid⟩ := exists_uniqueId used (specId label target toolchain stage)
  have hsanitized : (sanitizeId (specId label target toolchain stage)).toList =
      (specId label target toolchain stage).toList.map
        fun c => if c.isAlphanum || c == '-' || c == '_' then c.toLower else '-' := by
    unfold sanitizeId
    dsimp only
    rw [if_neg (by simp [hspec]), String.toList_ofList]
  rw [hsanitized] at hid
  refine ⟨?_, ?_⟩
  · rw [hid]
    exact doubleDash_append_left (doubleDash_map (by decide) hdash) _
  · rw [hid, hspec, List.cons_append, List.map_cons, List.cons_append, List.head?_cons]
    have hlower : ∀ c ∈ labelHeads, (if c.isAlphanum || c == '-' || c == '_' then c.toLower else '-') ≠ 't' := by
      intro c hc
      simp only [labelHeads, List.mem_cons, List.not_mem_nil, or_false] at hc
      rcases hc with rfl | rfl | rfl | rfl <;> decide
    exact fun hsome => hlower c hc (Option.some.inj hsome)

lemma isLabel_numbered {front : String} (hhead : ∃ c ∈ labelHeads, front.toList.head? = some c)
    (hdash : doubleDash (front.toList ++ ['0']) = false) (n : ℕ) : IsLabel (front ++ toString n) := by
  refine ⟨?_, ?_⟩
  · obtain ⟨c, hc, hfront⟩ := hhead
    exact ⟨c, hc, by rw [String.toList_append, List.head?_append, hfront, Option.some_or]⟩
  · rw [String.toList_append]
    exact doubleDash_numbered hdash n

lemma isLabel_of_mem_labelledGroups {required : RequiredConfigurations}
    {labelled : String × List String} (h : labelled ∈ labelledGroups required policy) : IsLabel labelled.1 := by
  rcases List.mem_append.mp h with hpolicy | hrequested
  · split_ifs at hpolicy
    · obtain ⟨entry, -, rfl⟩ := List.mem_map.mp hpolicy
      exact isLabel_numbered ⟨'p', by decide, by decide⟩ (by decide) _
    · exact absurd hpolicy List.not_mem_nil
  · obtain ⟨entry, -, rfl⟩ := List.mem_map.mp hrequested
    exact isLabel_numbered ⟨'r', by decide, by decide⟩ (by decide) _

/-! ## Every plan -/

/-- The identifiers of a plan that is being made. -/
structure Planning.Sound (planning : Planning) : Prop where
  used : ∀ cell ∈ planning.cells, cell.id ∈ planning.usedIds
  nodup : (planning.cells.map fun cell => cell.id).Nodup
  cell_ids : ∀ cell ∈ planning.cells, IsCellId cell.id
  skipped_ids : ∀ skipped ∈ planning.skipped, ¬ IsCellId skipped.id

section

variable {planning : Planning}

lemma Planning.Sound.pushCell (h : planning.Sound) (cell : PlannedCell) {label : String}
    (hlabel : ∃ c ∈ labelHeads, label.toList.head? = some c) (target toolchain stage : String) :
    (planning.pushCell cell (specId label target toolchain stage)).Sound := by
  have hfree := uniqueId_notMem planning.usedIds (specId label target toolchain stage)
  have hid := isCellId_uniqueId hlabel planning.usedIds target toolchain stage
  unfold Planning.pushCell
  dsimp only
  constructor
  · intro other hother
    rcases List.mem_append.mp hother with hold | hnew
    · exact List.mem_cons_of_mem _ (h.used other hold)
    · obtain rfl := List.mem_singleton.mp hnew
      exact List.mem_cons_self
  · rw [List.map_append, List.map_singleton]
    refine List.Nodup.append h.nodup (List.nodup_singleton _) (List.disjoint_singleton.mpr fun hmem => ?_)
    obtain ⟨other, hother, hsame⟩ := List.mem_map.mp hmem
    have hused := h.used other hother
    rw [hsame] at hused
    exact hfree hused
  · intro other hother
    rcases List.mem_append.mp hother with hold | hnew
    · exact h.cell_ids other hold
    · obtain rfl := List.mem_singleton.mp hnew
      exact hid
  · exact h.skipped_ids

lemma Planning.Sound.skip (h : planning.Sound) {skipped : SkippedCell} (hid : ¬ IsCellId skipped.id) :
    (planning.skip skipped).Sound := by
  refine ⟨h.used, h.nodup, h.cell_ids, fun other hother => ?_⟩
  rcases List.mem_append.mp hother with hold | hnew
  · exact h.skipped_ids other hold
  · obtain rfl := List.mem_singleton.mp hnew
    exact hid

lemma not_isCellId_target (rest : String) : ¬ IsCellId ("target-" ++ rest) := by
  rintro ⟨-, hhead⟩
  exact hhead (by rw [String.toList_append]; rfl)

variable {required : RequiredConfigurations} {stages : List VerifyStage} {facts : ToolchainFacts}

lemma sound_planFeatures {sets : List FeatureSet} (h : planning.Sound)
    (hsets : ∀ set ∈ sets, ∃ c ∈ labelHeads, set.label.toList.head? = some c) :
    (planFeatures required stages sets planning).Sound := by
  unfold planFeatures
  induction sets generalizing planning with
  | nil => exact h
  | cons set sets ih =>
    rw [List.foldl_cons]
    refine ih ?_ fun other hother => hsets other (List.mem_cons_of_mem _ hother)
    have hset := hsets set List.mem_cons_self
    clear ih
    induction stages generalizing planning with
    | nil => exact h
    | cons stage stages ih =>
      rw [List.foldl_cons]
      exact ih (h.pushCell _ hset _ _ _)

lemma sound_planTarget {seen : List String}
    (h : planning.Sound) (target : String) : (planTarget facts stages (seen, planning) target).2.Sound := by
  unfold planTarget
  dsimp only
  split_ifs
  · exact h.skip (not_isCellId_target _)
  · exact h
  · split
    · exact h.skip (not_isCellId_target _)
    · exact h.pushCell _ ⟨'d', by decide, by decide⟩ _ _ _

lemma sound_planTargets {policy : ProjectPolicy} (h : planning.Sound) :
    (planTargets required policy facts stages planning).Sound := by
  have hfold : ∀ (targets seen : List String) (planning : Planning), planning.Sound →
      (targets.foldl (planTarget facts stages) (seen, planning)).2.Sound := by
    intro targets
    induction targets with
    | nil => exact fun _ _ h => h
    | cons target targets ih =>
      intro seen planning h
      rw [List.foldl_cons]
      exact ih _ _ (sound_planTarget h target)
  unfold planTargets
  dsimp only
  split_ifs
  · exact (hfold _ _ _ h).skip (not_isCellId_target "non-check-stages")
  · exact hfold _ _ _ h

lemma sound_planMsrv {policy : ProjectPolicy} {snapshot : PlanSnapshot} (h : planning.Sound) :
    (planMsrv required policy facts snapshot planning).Sound := by
  unfold planMsrv
  split
  · exact h
  · next skipped hcandidate =>
    refine h.skip ?_
    have hid : skipped.id = "msrv" := by
      unfold msrvCandidate at hcandidate
      dsimp only at hcandidate
      split_ifs at hcandidate
      have hinner := Option.some.inj hcandidate
      split at hinner
      · exact (Except.error.inj hinner) ▸ rfl
      · split at hinner
        · exact (Except.error.inj hinner) ▸ rfl
        · split_ifs at hinner
          · exact (Except.error.inj hinner) ▸ rfl
          · split at hinner
            · exact (Except.error.inj hinner) ▸ rfl
            · exact absurd hinner (by simp)
    rw [hid]
    exact fun hcell => absurd hcell.1 (by decide)
  · exact h.pushCell _ ⟨'d', by decide, by decide⟩ _ _ _

end

/-- The labels of the sets and of the skipped groups. -/
structure GroupLoop.Sound (loop : GroupLoop) : Prop where
  labels : ∀ set ∈ loop.sets, ∃ c ∈ labelHeads, set.label.toList.head? = some c
  skipped_ids : ∀ skipped ∈ loop.skipped, ¬ IsCellId skipped.id

lemma GroupLoop.Sound.planGroup {features : FeatureMap} {loop : GroupLoop}
    {labelled : String × List String} (h : loop.Sound) (hlabel : IsLabel labelled.1) :
    (Verify.planGroup policy features loop labelled).Sound := by
  have hskip : ∀ seen reason, GroupLoop.Sound { loop with
      seen := seen, skipped := loop.skipped ++ [⟨labelled.1, .unsupportedConfiguration, reason⟩] } := by
    intro seen reason
    refine ⟨h.labels, fun skipped hmem => ?_⟩
    rcases List.mem_append.mp hmem with hold | hnew
    · exact h.skipped_ids skipped hold
    · obtain rfl := List.mem_singleton.mp hnew
      exact hlabel.not_isCellId
  unfold Verify.planGroup
  dsimp only
  split_ifs
  · exact hskip _ _
  · exact h
  · split
    · exact hskip _ _
    · refine ⟨fun set hset => ?_, h.skipped_ids⟩
      rcases List.mem_append.mp hset with hold | hnew
      · exact h.labels set hold
      · obtain rfl := List.mem_singleton.mp hnew
        exact hlabel.head

lemma sound_groupLoop {features : FeatureMap} {groups : List (String × List String)}
    {loop : GroupLoop} (h : loop.Sound) (hgroups : ∀ labelled ∈ groups, IsLabel labelled.1) :
    (groups.foldl (planGroup policy features) loop).Sound := by
  induction groups generalizing loop with
  | nil => exact h
  | cons labelled groups ih =>
    rw [List.foldl_cons]
    exact ih (h.planGroup (hgroups labelled List.mem_cons_self))
      fun other hother => hgroups other (List.mem_cons_of_mem _ hother)

lemma sound_start (required : RequiredConfigurations) :
    GroupLoop.Sound ⟨[], defaultSets required, excessGroups required⟩ := by
  constructor
  · intro set hset
    rcases List.mem_append.mp hset with hdefault | hnoDefault
    · split_ifs at hdefault
      · obtain rfl := List.mem_singleton.mp hdefault
        exact ⟨'d', by decide, by decide⟩
      · exact absurd hdefault List.not_mem_nil
    · split_ifs at hnoDefault
      · obtain rfl := List.mem_singleton.mp hnoDefault
        exact ⟨'n', by decide, by decide⟩
      · exact absurd hnoDefault List.not_mem_nil
  · intro skipped hskipped
    obtain ⟨entry, -, rfl⟩ := List.mem_map.mp hskipped
    exact (isLabel_numbered ⟨'r', by decide, by decide⟩ (by decide) _).not_isCellId

/-- The identifiers of every plan are sound. -/
theorem sound_planning (input : PlanInput) : input.planning.Sound := by
  have hloop : GroupLoop.Sound ((labelledGroups input.required input.policy).foldl
      (planGroup input.policy input.features)
      ⟨[], defaultSets input.required, excessGroups input.required⟩) :=
    sound_groupLoop (sound_start input.required) fun _ h => isLabel_of_mem_labelledGroups h
  unfold PlanInput.planning
  refine sound_planMsrv (sound_planTargets (sound_planFeatures ?_ hloop.labels))
  exact ⟨fun _ h => absurd h List.not_mem_nil, List.nodup_nil, fun _ h => absurd h List.not_mem_nil,
    hloop.skipped_ids⟩

lemma nodup_buildPlan (input : PlanInput) (maxCells : ℕ) :
    ((buildPlan input maxCells).cells.map fun cell => cell.id).Nodup :=
  ((List.take_sublist maxCells input.planning.cells).map _).nodup (sound_planning input).nodup

/-- What is skipped is no cell of the plan. -/
theorem skipped_notMem_cells {input : PlanInput} {maxCells : ℕ} {skipped : SkippedCell}
    (h : skipped ∈ (buildPlan input maxCells).skipped) :
    skipped.id ∉ (buildPlan input maxCells).cells.map fun cell => cell.id := by
  have hsound := sound_planning input
  intro hcell
  rcases List.mem_append.mp h with hrefused | hcut
  · obtain ⟨cell, hmem, hid⟩ := List.mem_map.mp hcell
    exact hsound.skipped_ids skipped hrefused (hid ▸ hsound.cell_ids cell (List.mem_of_mem_take hmem))
  · obtain ⟨cut, hmem, rfl⟩ := List.mem_map.mp hcut
    have hnodup := hsound.nodup
    rw [← List.take_append_drop maxCells input.planning.cells, List.map_append] at hnodup
    exact (List.nodup_append'.mp hnodup).2.2 hcell (List.mem_map.mpr ⟨cut, hmem, rfl⟩)

end AgzRustMcp.Verify
