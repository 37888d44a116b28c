import AgzRustMcp.Foundation.Distinct
import AgzRustMcp.Profile.Comparison

/-!
# What a speed claim rests on

The records of a comparison are filtered twice, compared with the first one of their side, and the first ones
of the sides with each other.  `speed_claim_earned` puts together what a claim says about all of the records
that were kept: `SpeedClaimEarned`.
-/

namespace AgzRustMcp.Profile

open Median

/-- The first record of each id, and of those the complete ones. -/
def kept (records : List ProfileRecord) : List ProfileRecord :=
  (records.foldl (Distinct.insertNew ProfileRecord.evidenceId) []).filter (·.status = "COMPLETE")

lemma foldl_completeTurn (label : String) (records firsts : List ProfileRecord)
    {state : List String × List ProfileRecord × List String}
    (hseen : ∀ id, id ∈ state.1 ↔ id ∈ firsts.map (·.evidenceId))
    (hkept : state.2.1 = firsts.filter (·.status = "COMPLETE")) : (records.foldl (completeTurn label) state).2.1 =
      (records.foldl (Distinct.insertNew ProfileRecord.evidenceId) firsts).filter (·.status = "COMPLETE") := by
  induction records generalizing firsts state with
  | nil => exact hkept
  | cons record records ih =>
    obtain ⟨seen, kept, dropped⟩ := state
    have hlist : kept = firsts.filter (·.status = "COMPLETE") := hkept
    rw [List.foldl_cons, List.foldl_cons, completeTurn]
    have hany : firsts.any (fun other => other.evidenceId == record.evidenceId) = true ↔
        record.evidenceId ∈ firsts.map (·.evidenceId) := Distinct.any_key_iff
    have hgrown : ∀ id, id ∈ record.evidenceId :: seen ↔ id ∈ (firsts ++ [record]).map (·.evidenceId) := by
      intro id
      rw [List.map_append, List.mem_append, List.mem_cons, hseen, or_comm]
      simp
    split_ifs with hmem hstatus
    · rw [Distinct.insertNew, if_pos (hany.mpr ((hseen _).mp hmem))]
      exact ih firsts hseen hkept
    · rw [Distinct.insertNew, if_neg (fun h => hmem ((hseen _).mpr (hany.mp h)))]
      refine ih (firsts ++ [record]) hgrown ?_
      rw [List.filter_append, hlist]
      simp [hstatus]
    · rw [Distinct.insertNew, if_neg (fun h => hmem ((hseen _).mpr (hany.mp h)))]
      refine ih (firsts ++ [record]) hgrown ?_
      rw [not_not] at hstatus
      rw [List.filter_append, hlist]
      simp [hstatus]

theorem completeRecords_eq (records : List ProfileRecord) (label : String) :
    (completeRecords records label).1 = kept records :=
  foldl_completeTurn label records [] (fun _ => Iff.rfl) rfl

lemma kept_kept (records : List ProfileRecord) : kept (kept records) = kept records := by
  have hnodup : ((kept records).map (·.evidenceId)).Nodup :=
    (List.filter_sublist.map _).nodup (Distinct.nodup_foldl_insertNew records List.nodup_nil)
  have hsame : (kept records).foldl (Distinct.insertNew ProfileRecord.evidenceId) [] = kept records :=
    Distinct.foldl_insertNew_of_nodup hnodup
  conv_lhs => rw [kept, hsame]
  exact List.filter_eq_self.mpr fun record hrecord => (List.mem_filter.mp hrecord).2

/-! ## Conditions -/

/-- Two records were measured under the same conditions. -/
structure SameConditions (a b : ProfileRecord) : Prop where
  toolchain : a.conditions.toolchain.summary = b.conditions.toolchain.summary
  hardware : a.conditions.hardware.summary = b.conditions.hardware.summary
  cacheState : a.conditions.cacheState = b.conditions.cacheState

lemma SameConditions.symm {a b : ProfileRecord} (h : SameConditions a b) : SameConditions b a :=
  ⟨h.toolchain.symm, h.hardware.symm, h.cacheState.symm⟩

lemma SameConditions.trans {a b c : ProfileRecord} (hab : SameConditions a b) (hbc : SameConditions b c) :
    SameConditions a c :=
  ⟨hab.toolchain.trans hbc.toolchain, hab.hardware.trans hbc.hardware, hab.cacheState.trans hbc.cacheState⟩

lemma fieldDifference_eq_nil {label field : String} {value : ConditionValue} {summaries : List String}
    (h : fieldDifference label field value summaries = []) :
    value.available = true ∧ ∀ summary ∈ summaries, summary = value.summary := by
  unfold fieldDifference at h
  split_ifs at h with havailable hany
  rw [Bool.not_eq_true, List.any_eq_false] at hany
  refine ⟨havailable, fun summary hsummary => ?_⟩
  simpa using hany summary hsummary

lemma sideDifferences_eq_nil {label : String} {first : ProfileRecord} {rest : List ProfileRecord}
    (h : sideDifferences label (first :: rest) = []) :
    first.conditions.toolchain.available = true ∧ ∀ record ∈ first :: rest, SameConditions record first := by
  rw [sideDifferences, List.append_eq_nil_iff, List.append_eq_nil_iff] at h
  obtain ⟨⟨htoolchain, hhardware⟩, hcache⟩ := h
  obtain ⟨havailable, htoolchains⟩ := fieldDifference_eq_nil htoolchain
  obtain ⟨-, hhardwares⟩ := fieldDifference_eq_nil hhardware
  split_ifs at hcache with hany
  rw [Bool.not_eq_true, List.any_eq_false] at hany
  refine ⟨havailable, fun record hrecord => ⟨?_, ?_, ?_⟩⟩
  · exact htoolchains _ (List.mem_map_of_mem hrecord)
  · exact hhardwares _ (List.mem_map_of_mem hrecord)
  · simpa using hany record hrecord

lemma eq_nil_of_eraseDups {texts : List String} (h : texts.eraseDups = []) : texts = [] := by
  cases texts with
  | nil => rfl
  | cons text texts =>
    rw [List.eraseDups_cons] at h
    exact absurd h (List.cons_ne_nil _ _)

lemma firstDifferences_eq_nil {base cand : ConditionSnapshot} (h : firstDifferences base cand = [])
    (hbase : base.toolchain.available = true) (hcand : cand.toolchain.available = true) :
    base.toolchain.summary = cand.toolchain.summary ∧ base.hardware.summary = cand.hardware.summary ∧
      base.cacheState = cand.cacheState := by
  rw [firstDifferences, List.append_eq_nil_iff, List.append_eq_nil_iff] at h
  obtain ⟨⟨htoolchain, hhardware⟩, hcache⟩ := h
  split_ifs at htoolchain with hne
  split_ifs at hhardware with hhardwareNe
  split_ifs at hcache with hcacheNe
  exact ⟨by_contra fun h => hne ⟨hbase, hcand, h⟩, not_not.mp hhardwareNe, not_not.mp hcacheNe⟩

/-- Without differences all records have the same conditions. -/
theorem sameConditions_of_conditionDifferences {baseline candidate : List ProfileRecord}
    (h : conditionDifferences baseline candidate = []) (hbaseline : baseline ≠ []) (hcandidate : candidate ≠ []) :
    ∀ a ∈ baseline ++ candidate, ∀ b ∈ baseline ++ candidate, SameConditions a b := by
  obtain ⟨base, baseRest, rfl⟩ := List.exists_cons_of_ne_nil hbaseline
  obtain ⟨cand, candRest, rfl⟩ := List.exists_cons_of_ne_nil hcandidate
  have hparts := eq_nil_of_eraseDups h
  rw [List.append_eq_nil_iff, List.append_eq_nil_iff] at hparts
  obtain ⟨⟨hbase, hcand⟩, hfirst⟩ := hparts
  obtain ⟨hbaseAvailable, hbaseSame⟩ := sideDifferences_eq_nil hbase
  obtain ⟨hcandAvailable, hcandSame⟩ := sideDifferences_eq_nil hcand
  obtain ⟨htoolchain, hhardware, hcache⟩ := firstDifferences_eq_nil hfirst hbaseAvailable hcandAvailable
  have hall : ∀ a ∈ (base :: baseRest) ++ (cand :: candRest), SameConditions a base := by
    intro a ha
    rcases List.mem_append.mp ha with ha | ha
    · exact hbaseSame a ha
    · exact (hcandSame a ha).trans ⟨htoolchain.symm, hhardware.symm, hcache.symm⟩
  exact fun a ha b hb => (hall a ha).trans (hall b hb).symm

lemma configuration_of_configurationDifference {baseline candidate : List ProfileRecord}
    (h : (configurationDifference baseline candidate).2 = []) :
    ∀ a ∈ baseline ++ candidate, ∀ b ∈ baseline ++ candidate, a.configuration = b.configuration := by
  have hall : ∀ configuration, (baseline.head?.or candidate.head?).map (·.configuration) = some configuration →
      ∀ a ∈ baseline ++ candidate, a.configuration = configuration := by
    intro configuration hconfiguration a ha
    rw [configurationDifference] at h
    dsimp only at h
    rw [hconfiguration] at h
    dsimp only at h
    split_ifs at h with hany
    rw [Bool.not_eq_true, List.any_eq_false] at hany
    have hmem : a ∈ candidate ++ baseline := by
      rw [List.mem_append] at ha ⊢
      exact ha.symm
    simpa using hany a hmem
  intro a ha b hb
  cases hfirst : (baseline.head?.or candidate.head?).map (·.configuration) with
  | none =>
    cases baseline with
    | cons base rest => simp at hfirst
    | nil =>
      cases candidate with
      | cons cand rest => simp at hfirst
      | nil => exact absurd ha List.not_mem_nil
  | some configuration => rw [hall _ hfirst a ha, hall _ hfirst b hb]

/-- A record belongs to the workspace, the epoch and the change of a request. -/
structure BelongsTo (request : CompareRequest) (record : ProfileRecord) : Prop where
  workspaceRoot : record.workspaceRoot = some request.workspaceRoot
  rootEpoch : record.rootEpoch = request.rootEpoch
  changeId : record.changeId = request.changeId

lemma bindingProblem_eq_none {formats : Formats} {request : CompareRequest} {label : String}
    {inputHash : Option String} {records : List ProfileRecord}
    (h : bindingProblem formats request label inputHash records = none) :
    (∀ record ∈ records, BelongsTo request record) ∧
      ∀ hash ∈ inputHash.or (records.head?.map (·.conditions.inputHash)), ∀ record ∈ records,
        record.conditions.inputHash = hash := by
  induction records generalizing inputHash with
  | nil => exact ⟨fun _ h => absurd h List.not_mem_nil, fun _ _ _ h => absurd h List.not_mem_nil⟩
  | cons record records ih =>
    rw [bindingProblem.eq_def] at h
    dsimp only at h
    split at h
    · exact absurd h (by simp)
    rename_i root hroot
    split_ifs at h with hroots hepoch hchange
    rw [not_not] at hroots hepoch hchange
    have hbelongs : BelongsTo request record := ⟨hroots ▸ hroot, hepoch, hchange⟩
    cases inputHash with
    | none =>
      obtain ⟨hrest, hhashes⟩ := ih h
      refine ⟨List.forall_mem_cons.mpr ⟨hbelongs, hrest⟩, fun hash hhash => ?_⟩
      obtain rfl : record.conditions.inputHash = hash := by simpa using hhash
      exact List.forall_mem_cons.mpr ⟨rfl, hhashes _ rfl⟩
    | some known =>
      dsimp only at h
      split_ifs at h with hknown
      obtain ⟨hrest, hhashes⟩ := ih h
      refine ⟨List.forall_mem_cons.mpr ⟨hbelongs, hrest⟩, fun hash hhash => ?_⟩
      obtain rfl : known = hash := by simpa using hhash
      exact List.forall_mem_cons.mpr ⟨hknown.symm, hhashes _ rfl⟩

/-! ## The verdict -/

lemma compareMeasurements_eq_ok {formats : Formats} {baseline candidate : ComparisonSide} {required : ℕ}
    {changed conditionsMatch : Bool} {claim reason : String}
    (h : compareMeasurements formats baseline candidate required changed conditionsMatch = .ok (some claim, reason)) :
    (2 ≤ required ∧ required ≤ baseline.samples ∧ required ≤ candidate.samples) ∧
      (conditionsMatch = true ∧ changed = true) ∧
      (noisy baseline.cargoMedianMs baseline.cargoMinMs baseline.cargoMaxMs = false ∧
        noisy candidate.cargoMedianMs candidate.cargoMinMs candidate.cargoMaxMs = false ∧
        noisy baseline.wallMedianMs baseline.wallMinMs baseline.wallMaxMs = false ∧
        noisy candidate.wallMedianMs candidate.wallMinMs candidate.wallMaxMs = false) ∧
      ∃ base cand, baseline.cargoMedianMs = some base ∧ candidate.cargoMedianMs = some cand ∧
        (claim = "candidate-faster" ∧ cand < base ∨ claim = "baseline-faster" ∧ base < cand) := by
  unfold compareMeasurements at h
  split_ifs at h with hrequired hsamples hconditions hchanged hcargo hwall
  rw [not_or] at hsamples hcargo hwall
  simp only [not_lt] at hrequired hsamples
  rw [Bool.not_eq_true, Bool.not_eq_true] at hcargo hwall
  refine ⟨⟨hrequired, hsamples⟩, ⟨hconditions, hchanged⟩, ⟨hcargo.1, hcargo.2, hwall⟩, ?_⟩
  split at h
  · rename_i base cand hbase hcand
    refine ⟨base, cand, hbase, hcand, ?_⟩
    split_ifs at h with hzero
    have hpos : (0 : ℚ) < base := Nat.cast_pos.mpr (Nat.pos_of_ne_zero hzero)
    have hclaim := congrArg Prod.fst (Except.ok.inj h)
    rw [classifyRatio] at hclaim
    dsimp only at hclaim
    split_ifs at hclaim with hfaster hslower
    · refine Or.inl ⟨(Option.some.inj hclaim).symm, ?_⟩
      rw [div_le_iff₀ hpos, materialityRatio] at hfaster
      have hless : (cand : ℚ) < base := by linarith
      exact_mod_cast hless
    · refine Or.inr ⟨(Option.some.inj hclaim).symm, ?_⟩
      rw [le_div_iff₀ hpos, materialityRatio] at hslower
      have hmore : (base : ℚ) < cand := by linarith
      exact_mod_cast hmore
  · exact absurd h (by simp)

/-- What both sides have in common where the faster one is named. -/
structure SpeedClaimEarned (request : CompareRequest) (required : ℕ) (base cand : List ProfileRecord)
    (claim : String) : Prop where
  enough : 2 ≤ required ∧ required ≤ base.length ∧ required ≤ cand.length
  configuration : ∀ a ∈ base ++ cand, ∀ b ∈ base ++ cand, a.configuration = b.configuration
  conditions : ∀ a ∈ base ++ cand, ∀ b ∈ base ++ cand, SameConditions a b
  belongs : ∀ a ∈ base ++ cand, BelongsTo request a
  inputs : ∃ baseHash candHash, baseHash ≠ "" ∧ candHash ≠ "" ∧ baseHash ≠ candHash ∧
    (∀ a ∈ base, a.conditions.inputHash = baseHash) ∧ ∀ a ∈ cand, a.conditions.inputHash = candHash
  quiet : ∀ side ∈ [base, cand], ∀ series ∈ [side.filterMap cargoPhaseMs, side.map comparableWallMs],
    ∀ m, median series = some m → 0 < m → ∀ x ∈ series, ∀ y ∈ series, ((x : ℚ) - y) ≤ 1 / 2 * m
  faster : ∃ b c, median (base.filterMap cargoPhaseMs) = some b ∧ median (cand.filterMap cargoPhaseMs) = some c ∧
    (claim = "candidate-faster" ∧ c < b ∨ claim = "baseline-faster" ∧ b < c)

section

variable {records : List ProfileRecord}

lemma samples_side (h : kept records = records) : (side records).samples = records.length := by
  simp only [side, completeRecords_eq, h]

lemma inputHash_side (h : kept records = records) :
    (side records).inputHash = (records.head?.map (·.conditions.inputHash)).getD "" := by
  simp only [side, completeRecords_eq, h]

lemma cargo_side (h : kept records = records) :
    (side records).cargoMedianMs = median (records.filterMap cargoPhaseMs) ∧
      (side records).cargoMinMs = (records.filterMap cargoPhaseMs).min? ∧
      (side records).cargoMaxMs = (records.filterMap cargoPhaseMs).max? := by
  simp only [side, completeRecords_eq, h, and_self]

lemma wall_side (h : kept records = records) : (side records).wallMedianMs = median (records.map comparableWallMs) ∧
      (side records).wallMinMs = (records.map comparableWallMs).min? ∧
      (side records).wallMaxMs = (records.map comparableWallMs).max? := by
  simp only [side, completeRecords_eq, h, and_self]

lemma inputHash_of_sideBindingProblem {formats : Formats} {request : CompareRequest} {label : String}
    (hkept : kept records = records) (h : sideBindingProblem formats records request label = none) :
    ∀ record ∈ records, record.conditions.inputHash = (side records).inputHash := by
  intro record hrecord
  obtain ⟨first, rest, rfl⟩ := List.exists_cons_of_ne_nil (List.ne_nil_of_mem hrecord)
  rw [inputHash_side hkept]
  exact (bindingProblem_eq_none h).2 first.conditions.inputHash rfl record hrecord

lemma quiet_of_not_noisy (hkept : kept records = records)
    (hcargo : noisy (side records).cargoMedianMs (side records).cargoMinMs (side records).cargoMaxMs = false)
    (hwall : noisy (side records).wallMedianMs (side records).wallMinMs (side records).wallMaxMs = false) :
    ∀ series ∈ [records.filterMap cargoPhaseMs, records.map comparableWallMs],
      ∀ m, median series = some m → 0 < m → ∀ x ∈ series, ∀ y ∈ series, ((x : ℚ) - y) ≤ 1 / 2 * m := by
  obtain ⟨hcargoMedian, hcargoMin, hcargoMax⟩ := cargo_side hkept
  obtain ⟨hwallMedian, hwallMin, hwallMax⟩ := wall_side hkept
  rw [hcargoMedian, hcargoMin, hcargoMax] at hcargo
  rw [hwallMedian, hwallMin, hwallMax] at hwall
  intro series hseries m hm hpos x hx y hy
  rcases List.mem_pair.mp hseries with rfl | rfl
  · exact within_of_not_spreadOver hm hpos hcargo hx hy
  · exact within_of_not_spreadOver hm hpos hwall hx hy

end

/-- A comparison that names a faster side has enough records on both, of one configuration and the
same conditions, with one input on each side, without noise, and its Cargo median is smaller. -/
theorem speed_claim_earned (formats : Formats) (request : CompareRequest) (required : ℕ)
    (baseline candidate : List ProfileRecord) (warnings : List String) (claim : String)
    (h : (buildComparison formats request required baseline candidate warnings).speedClaim = some claim) :
    SpeedClaimEarned request required (kept baseline) (kept candidate) claim := by
  have hbaseKept := kept_kept baseline
  have hcandKept := kept_kept candidate
  unfold buildComparison at h
  simp only [completeRecords_eq] at h
  generalize kept baseline = base at h hbaseKept ⊢
  generalize kept candidate = cand at h hcandKept ⊢
  cases hbinding : (sideBindingProblem formats base request "baseline").or
      (sideBindingProblem formats cand request "candidate") with
  | some reason =>
    rw [hbinding] at h
    exact absurd h (by simp)
  | none =>
    rw [hbinding] at h
    dsimp only at h
    obtain ⟨hbaseBinding, hcandBinding⟩ := Option.or_eq_none_iff.mp hbinding
    split at h
    · rename_i claim' reason hverdict
      obtain rfl : claim' = some claim := h
      obtain ⟨⟨htwo, hbaseEnough, hcandEnough⟩, ⟨hmatch, hchanged⟩, ⟨hbaseCargo, hcandCargo, hbaseWall, hcandWall⟩,
        b, c, hb, hc, hfaster⟩ := compareMeasurements_eq_ok hverdict
      rw [samples_side hbaseKept] at hbaseEnough
      rw [samples_side hcandKept] at hcandEnough
      have hdifferences := eq_nil_of_eraseDups (List.isEmpty_iff.mp hmatch)
      rw [List.append_eq_nil_iff, List.append_eq_nil_iff] at hdifferences
      have hbaseNe : base ≠ [] := List.ne_nil_of_length_pos (by omega)
      have hcandNe : cand ≠ [] := List.ne_nil_of_length_pos (by omega)
      simp only [Bool.and_eq_true, decide_eq_true_eq] at hchanged
      refine ⟨⟨htwo, hbaseEnough, hcandEnough⟩, configuration_of_configurationDifference hdifferences.1.2,
        sameConditions_of_conditionDifferences hdifferences.1.1 hbaseNe hcandNe, ?_,
        ⟨(side base).inputHash, (side cand).inputHash, hchanged.1.1, hchanged.1.2, hchanged.2,
          inputHash_of_sideBindingProblem hbaseKept hbaseBinding,
          inputHash_of_sideBindingProblem hcandKept hcandBinding⟩, ?_,
        ⟨b, c, (cargo_side hbaseKept).1 ▸ hb, (cargo_side hcandKept).1 ▸ hc, hfaster⟩⟩
      · intro record hrecord
        rcases List.mem_append.mp hrecord with hrecord | hrecord
        · exact (bindingProblem_eq_none hbaseBinding).1 record hrecord
        · exact (bindingProblem_eq_none hcandBinding).1 record hrecord
      · intro side hside
        rcases List.mem_pair.mp hside with rfl | rfl
        · exact quiet_of_not_noisy hbaseKept hbaseCargo hbaseWall
        · exact quiet_of_not_noisy hcandKept hcandCargo hcandWall
    · exact absurd h (by simp)

def cleanRecord (evidenceId inputHash : String) (cargoMs wallMs : ℕ) : ProfileRecord where
  evidenceId
  status := "COMPLETE"
  reason := ""
  changeId := none
  workspaceRoot := some "/workspace"
  rootEpoch := 0
  configuration := ⟨"check", {}, "cargo", "shared", "standard"⟩
  conditions := ⟨⟨true, "cargo 1.88", ""⟩, ⟨true, "linux/x86_64 cpus=8", ""⟩, "cold", inputHash⟩
  phases := [⟨"mcpAdmission", some 10⟩, ⟨"cargo:check", some cargoMs⟩]
  wallMs

/-- Two clean runs of each side name the candidate. -/
theorem speed_claim_earned_candidate :
    SpeedClaimEarned ⟨0, "/workspace", none⟩ 2
      (kept [cleanRecord "a" "before" 100 150, cleanRecord "b" "before" 104 152])
      (kept [cleanRecord "c" "after" 50 80, cleanRecord "d" "after" 52 82]) "candidate-faster" :=
  speed_claim_earned ⟨fun _ => "", fun _ => ""⟩ _ _ _ _ [] _ (by decide +kernel)

end AgzRustMcp.Profile
