import AgzRustMcp.Repair.Candidate

/-!
# The evidence that a repair starts from

`base_evidence` looks for the newest row that says whether the base change fails, and takes `PASS`
for the status of a clean one.  The validator stores the status of the gate, `FAST_PASS` or
`FULL_PASS`; so an older failing row may decide (`base_evidence_newest_iff`).
-/

namespace AgzRustMcp

/-! ## What the newest row says -/

/-- What is known about a base change. -/
inductive BaseVerdict where
  | failing (row : ChangeEvidenceData)
  | clean
  | unknown

/-- The verdict of `base_evidence`, without its reason. -/
def BaseEvidence.verdict : BaseEvidence → BaseVerdict
  | .fail row => .failing row
  | .clean => .clean
  | .missing _ => .unknown

/-- A row that counts for a revision: fresh, authoritative and of this revision. -/
def ChangeEvidenceData.countsFor (row : ChangeEvidenceData) (revision : ℕ) : Bool :=
  row.revision = revision && row.fresh && row.authoritative

/-- The status of the row is that of a gate that passes. -/
def ChangeEvidenceData.isPass (row : ChangeEvidenceData) : Bool :=
  row.status = GateStatus.fastPass.asStr || row.status = GateStatus.fullPass.asStr

/-- The verdict of one row, which fails with omitted diagnostics. -/
def ChangeEvidenceData.verdict (row : ChangeEvidenceData) : BaseVerdict :=
  if row.isPass then .clean
  else if row.status = GateStatus.fail.asStr ∧ row.diagnosticsOmitted = 0 then .failing row
  else .unknown

/-- The newest row that counts for the current revision. -/
def ChangeData.newestEvidence (data : ChangeData) : Option ChangeEvidenceData :=
  data.evidence.reverse.find? fun row => row.countsFor data.revision

def ChangeData.CarriesEvidence (data : ChangeData) : Prop :=
  data.state = "ready" ∧ data.discarded = false ∧ data.cleanupWarnings = []

instance (data : ChangeData) : Decidable data.CarriesEvidence := inferInstanceAs (Decidable (_ ∧ _))

/-- What the newest row says about a base change. -/
def ChangeData.newestVerdict (data : ChangeData) : BaseVerdict :=
  if data.CarriesEvidence then
    match data.newestEvidence with
    | some row => row.verdict
    | none => .unknown
  else .unknown

/-- The row has the status of a gate, and only a verdict of the gate is fresh. -/
def ChangeEvidenceData.IsValidated (row : ChangeEvidenceData) : Prop :=
  ∃ status : GateStatus, row.status = status.asStr ∧ (row.fresh = true → status.isVerdict = true)

/-! ## The scan of the rows -/

section

variable {revision : ℕ} {row : ChangeEvidenceData} {rows : List ChangeEvidenceData}

lemma baseEvidenceRows_cons_of_not_counts (h : row.countsFor revision = false) :
    baseEvidenceRows revision (row :: rows) = baseEvidenceRows revision rows := by
  have hskip : (row.revision ≠ revision || !row.fresh || !row.authoritative) = true := by
    unfold ChangeEvidenceData.countsFor at h
    revert h
    cases row.fresh <;> cases row.authoritative <;> simp
  rw [baseEvidenceRows, if_pos hskip]

lemma baseEvidenceRows_cons_of_counts (h : row.countsFor revision = true) : baseEvidenceRows revision (row :: rows) =
      if row.status = "FAIL" then
        if row.diagnosticsOmitted > 0 then
          .missing
            "compiler diagnostics were truncated (diagnosticsOmitted > 0); no usable repair evidence"
        else .fail row
      else if row.status = "PASS" then .clean
      else baseEvidenceRows revision rows := by
  have hkeep : ¬ (row.revision ≠ revision || !row.fresh || !row.authoritative) = true := by
    unfold ChangeEvidenceData.countsFor at h
    revert h
    cases row.fresh <;> cases row.authoritative <;> simp
  rw [baseEvidenceRows, if_neg hkeep]

lemma GateStatus.asStr_ne_pass (status : GateStatus) : status.asStr ≠ "PASS" := by
  cases status <;> decide

lemma baseEvidenceRows_ne_clean (hrows : ∀ row ∈ rows, row.IsValidated) :
    (baseEvidenceRows revision rows).verdict ≠ .clean := by
  induction rows with
  | nil => simp [baseEvidenceRows, BaseEvidence.verdict]
  | cons row rows ih =>
    have hrest := ih fun other hother => hrows other (List.mem_cons_of_mem _ hother)
    cases hcounts : row.countsFor revision with
    | false =>
      rw [baseEvidenceRows_cons_of_not_counts hcounts]
      exact hrest
    | true =>
      obtain ⟨status, hstatus, -⟩ := hrows row List.mem_cons_self
      have hpass : row.status ≠ "PASS" := hstatus ▸ status.asStr_ne_pass
      rw [baseEvidenceRows_cons_of_counts hcounts]
      split_ifs
      · simp [BaseEvidence.verdict]
      · simp [BaseEvidence.verdict]
      · exact hrest

lemma baseEvidenceRows_of_none (h : rows.find? (·.countsFor revision) = none) :
    (baseEvidenceRows revision rows).verdict = .unknown := by
  induction rows with
  | nil => rfl
  | cons row rows ih =>
    rw [List.find?_cons] at h
    cases hcounts : row.countsFor revision with
    | false =>
      rw [hcounts] at h
      rw [baseEvidenceRows_cons_of_not_counts hcounts]
      exact ih h
    | true =>
      rw [hcounts] at h
      exact absurd h (by simp)

lemma baseEvidenceRows_of_some (hrows : ∀ row ∈ rows, row.IsValidated)
    (h : rows.find? (·.countsFor revision) = some row) :
    (baseEvidenceRows revision rows).verdict = row.verdict ↔ row.status = "FAIL" := by
  induction rows with
  | nil => simp at h
  | cons other rows ih =>
    have hvalid : ∀ row ∈ rows, row.IsValidated :=
      fun row hrow => hrows row (List.mem_cons_of_mem _ hrow)
    rw [List.find?_cons] at h
    cases hcounts : other.countsFor revision with
    | false =>
      rw [hcounts] at h
      rw [baseEvidenceRows_cons_of_not_counts hcounts]
      exact ih hvalid h
    | true =>
      rw [hcounts] at h
      obtain rfl : other = row := Option.some.inj h
      obtain ⟨status, hstatus, hverdict⟩ := hrows other List.mem_cons_self
      have hfresh : other.fresh = true := by
        simp only [ChangeEvidenceData.countsFor, Bool.and_eq_true] at hcounts
        exact hcounts.1.2
      rw [baseEvidenceRows_cons_of_counts hcounts]
      by_cases hfail : other.status = "FAIL"
      · refine iff_of_true ?_ hfail
        rw [if_pos hfail]
        have hpass : other.isPass = false := by
          simp [ChangeEvidenceData.isPass, hfail, GateStatus.asStr]
        unfold ChangeEvidenceData.verdict
        rw [hpass]
        by_cases homitted : other.diagnosticsOmitted > 0
        · rw [if_pos homitted]
          simp [BaseEvidence.verdict, homitted.ne']
        · rw [if_neg homitted]
          simp [BaseEvidence.verdict, hfail, GateStatus.asStr, Nat.eq_zero_of_not_pos homitted]
      · refine iff_of_false ?_ hfail
        -- The status is a verdict of the gate other than `FAIL`, so the row passes.
        have hpass : other.isPass = true := by
          have hkind := hverdict hfresh
          cases status
          case fastPass => simp [ChangeEvidenceData.isPass, hstatus]
          case fullPass => simp [ChangeEvidenceData.isPass, hstatus]
          case fail => exact absurd hstatus hfail
          all_goals exact absurd hkind (by decide)
        rw [if_neg hfail, if_neg (hstatus ▸ status.asStr_ne_pass)]
        unfold ChangeEvidenceData.verdict
        rw [if_pos hpass]
        exact baseEvidenceRows_ne_clean hvalid

end

/-! ## The newest evidence -/

lemma baseEvidence_of_not_carries {data : ChangeData} (h : ¬ data.CarriesEvidence) :
    (baseEvidence data).verdict = .unknown := by
  unfold baseEvidence
  split_ifs with hstate hdiscarded hwarnings
  · rfl
  · rfl
  · rfl
  · refine absurd ⟨not_not.mp hstate, by simpa using hdiscarded, ?_⟩ h
    simpa using hwarnings

lemma baseEvidence_of_carries {data : ChangeData} (h : data.CarriesEvidence) :
    baseEvidence data = baseEvidenceRows data.revision data.evidence.reverse := by
  obtain ⟨hstate, hdiscarded, hwarnings⟩ := h
  simp [baseEvidence, hstate, hdiscarded, hwarnings]

/-- The newest row that counts decides exactly when it is not a pass. -/
theorem base_evidence_newest_iff (data : ChangeData)
    (hrows : ∀ row ∈ data.evidence, row.IsValidated) :
    (baseEvidence data).verdict = data.newestVerdict ↔
      (data.CarriesEvidence → ∀ row, data.newestEvidence = some row → row.status = "FAIL") := by
  unfold ChangeData.newestVerdict
  by_cases hcarries : data.CarriesEvidence
  · have hvalid : ∀ row ∈ data.evidence.reverse, row.IsValidated :=
      fun row hrow => hrows row (List.mem_reverse.mp hrow)
    rw [if_pos hcarries, baseEvidence_of_carries hcarries]
    cases hnewest : data.newestEvidence with
    | none =>
      refine iff_of_true (baseEvidenceRows_of_none hnewest) ?_
      intro _ row hrow
      exact absurd hrow (by simp)
    | some row =>
      dsimp only
      rw [baseEvidenceRows_of_some hvalid hnewest]
      constructor
      · rintro hfail - other hother
        rwa [← Option.some.inj hother]
      · exact fun h => h hcarries row rfl
  · rw [if_neg hcarries]
    exact iff_of_true (baseEvidence_of_not_carries hcarries) fun h => absurd h hcarries

/-! ## A pass behind a failure -/

/-- A row for the first revision as the validator stores it. -/
def gateRow (status : GateStatus) : ChangeEvidenceData :=
  listedRow 1 (emptyRow 1 true 0 ⟨status, [], none, 0, none⟩)

/-- A ready change at its first revision, with rows of evidence. -/
def changeWithRows (rows : List ChangeEvidenceData) : ChangeData :=
  { ChangeData.absent .validate (some "chg-0-1-0") "" with
    revision := 1
    state := "ready"
    evidence := rows }

/-- The newest row of a change that fails decides. -/
theorem base_evidence_newest_iff_failing :
    (baseEvidence (changeWithRows [gateRow .fastPass, gateRow .fail])).verdict =
        (changeWithRows [gateRow .fastPass, gateRow .fail]).newestVerdict ↔
      ((changeWithRows [gateRow .fastPass, gateRow .fail]).CarriesEvidence → ∀ row,
        (changeWithRows [gateRow .fastPass, gateRow .fail]).newestEvidence = some row → row.status = "FAIL") :=
  base_evidence_newest_iff (changeWithRows [gateRow .fastPass, gateRow .fail]) (by
    intro row hrow
    rcases List.mem_cons.mp hrow with rfl | hrow
    · exact ⟨.fastPass, rfl, fun _ => rfl⟩
    · obtain rfl := List.mem_singleton.mp hrow
      exact ⟨.fail, rfl, fun _ => rfl⟩)

/-- A pass of the gate is passed over, and the failure before it decides. -/
theorem older_failure_overrides_pass :
    ¬ ∀ data : ChangeData, (∀ row ∈ data.evidence, row.IsValidated) →
      (baseEvidence data).verdict = data.newestVerdict := by
  intro h
  have hverdict := h (changeWithRows [gateRow .fail, gateRow .fastPass]) (by
    intro row hrow
    rcases List.mem_cons.mp hrow with rfl | hrow
    · exact ⟨.fail, rfl, fun _ => rfl⟩
    · obtain rfl := List.mem_singleton.mp hrow
      exact ⟨.fastPass, rfl, fun _ => rfl⟩)
  have hfailing : (baseEvidence (changeWithRows [gateRow .fail, gateRow .fastPass])).verdict =
      .failing (gateRow .fail) := by
    simp [baseEvidence, changeWithRows, baseEvidenceRows, gateRow, listedRow, emptyRow,
      GateStatus.asStr, BaseEvidence.verdict, ChangeData.absent]
  have hclean : (changeWithRows [gateRow .fail, gateRow .fastPass]).newestVerdict = .clean := by
    have hcarries : (changeWithRows [gateRow .fail, gateRow .fastPass]).CarriesEvidence :=
      ⟨rfl, rfl, rfl⟩
    unfold ChangeData.newestVerdict
    rw [if_pos hcarries]
    rfl
  rw [hfailing, hclean] at hverdict
  exact absurd hverdict (by simp)

end AgzRustMcp
