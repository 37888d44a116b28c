import AgzRustMcp.Change.History
import AgzRustMcp.Change.Server
import AgzRustMcp.Repair.Candidate

/-!
# What a repair candidate leaves behind

After a successful create, `run_candidate` should discard the change or report that it could not
(`NoLeak`).  But a busy lock answers without a cleanup warning, and the run takes that for a
discard: `candidate_leaves_nothing_iff` says exactly when nothing is left.
-/

namespace AgzRustMcp

/-! ## Statements about one run -/

def CandidateRun.IsCleanupFailure : CandidateRun → Prop
  | .abort _ stopReason _ => stopReason = "cleanupFailure"
  | _ => False

instance : (run : CandidateRun) → Decidable run.IsCleanupFailure
  | .measured _ => .isFalse id
  | .rejected _ => .isFalse id
  | .abort _ stopReason _ => inferInstanceAs (Decidable (stopReason = "cleanupFailure"))

/-- The run is reported as measured or rejected. -/
def CandidateRun.HasResult : CandidateRun → Prop
  | .abort _ _ _ => False
  | _ => True

/-- The change was discarded, or the run is a cleanup failure. -/
def CleanedUp (env : CandidateEnv) (id : String) (finish : CandidateRun × List ChangeRequest) : Prop :=
  ((Repair.discardRequest id ∈ finish.2 ∧ env.discard.status = "DISCARDED") ∨ finish.1.IsCleanupFailure) ∧
    (finish.1.HasResult → Repair.discardRequest id ∈ finish.2 ∧ env.marked = true)

/-- Nothing is left behind by a run with the given end. -/
def NoLeak (env : CandidateEnv) (finish : CandidateRun × List ChangeRequest) : Prop :=
  env.create.status = "CREATED" → ∃ id, env.create.data.changeId = some id ∧ CleanedUp env id finish

/-- The answer carries cleanup warnings. -/
def ChangeOutcome.Warns (outcome : ChangeOutcome) : Prop := outcome.data.cleanupWarnings ≠ []

/-- The answer refuses a stage for a reason other than an interruption. -/
def ChangeOutcome.RefusesStage (outcome : ChangeOutcome) : Prop :=
  outcome.status ≠ "STAGED" ∧ isInterrupted outcome.status = false

section Conditions

variable (base : ChangeData) (basePatches : List PatchInput) (baseNewFiles : List NewFileInput) (env : CandidateEnv)

/-- There is nothing to replay, or the replay was staged. -/
def Replayed : Prop :=
  (basePatches = [] ∧ baseNewFiles = []) ∨ env.baseStage.status = "STAGED"

/-- A stage is refused with warnings, or a later step has some. -/
def MeetsWarning : Prop :=
  (¬ (basePatches = [] ∧ baseNewFiles = []) ∧ env.baseStage.RefusesStage ∧ env.baseStage.Warns) ∨
    Replayed basePatches baseNewFiles env ∧ ((env.stage.RefusesStage ∧ env.stage.Warns) ∨
        env.stage.status = "STAGED" ∧ (env.validate.Warns ∨ env.discard.Warns))

/-- The validation produced a complete fresh row and nobody cancelled. -/
def Measures : Prop :=
  env.cancelled = false ∧ ∃ row, freshRow env.validate.data = some row ∧ row.diagnosticsOmitted = 0

/-- The candidate is refused at its stage, or staged and measured. -/
def EndsInResult : Prop :=
  Replayed basePatches baseNewFiles env ∧ (env.stage.RefusesStage ∨ env.stage.status = "STAGED" ∧ Measures env)

/-- The create answers with an id and a proper base, and unless a warning ends the run the discard
is accepted and, under a result, has its effect. -/
def DiscardsInTime : Prop :=
  env.create.data.changeId.isSome = true ∧ env.create.data.baseIdentity.isSome = true ∧
    if base.baseIdentity = env.create.data.baseIdentity then
      MeetsWarning basePatches baseNewFiles env ∨ env.discard.status = "DISCARDED" ∧
          (EndsInResult basePatches baseNewFiles env → env.marked = true)
    else env.discard.status = "DISCARDED"

end Conditions

/-! ## The parts of a run -/

section Run

variable {guards : Guards} {base : ChangeData} {basePatches : List PatchInput}
  {baseNewFiles : List NewFileInput} {target : String} {env : CandidateEnv}
  {result : RepairCandidateData} {id baseIdentity : String} {revision : ℕ} {issued : List ChangeRequest}

@[simp] lemma issue_bind {α : Type} (request : ChangeRequest) (answer : ChangeOutcome)
    (next : ChangeOutcome → CandidateM α) (issued : List ChangeRequest) :
    (issue request answer >>= next) issued = next answer (issued ++ [request]) := rfl

@[simp] lemma discardCandidate_bind {α : Type} (env : CandidateEnv) (id : String)
    (next : Bool → CandidateM α) (issued : List ChangeRequest) : (discardCandidate env id >>= next) issued =
      next env.discard.data.cleanupWarnings.isEmpty (issued ++ [Repair.discardRequest id]) := rfl

@[simp] lemma pure_candidate {α : Type} (a : α) (issued : List ChangeRequest) :
    (pure a : CandidateM α) issued = (a, issued) := rfl

@[simp] lemma ite_candidate {α : Type} (p : Prop) [Decidable p] (t e : CandidateM α)
    (issued : List ChangeRequest) : (if p then t else e) issued = if p then t issued else e issued := by
  split <;> rfl

lemma cleanedUp_discarded {run : CandidateRun} (h : ¬ run.IsCleanupFailure) :
    CleanedUp env id (run, issued ++ [Repair.discardRequest id]) ↔
      env.discard.status = "DISCARDED" ∧ (run.HasResult → env.marked = true) := by
  simp [CleanedUp, h]

lemma cleanedUp_cleanupFailure (reason : String) : CleanedUp env id (cleanupFailure reason, issued) :=
  ⟨Or.inr rfl, fun h => h.elim⟩

lemma interruptedRun_spec (status reason : String) :
    ¬ (interruptedRun status reason).IsCleanupFailure ∧ ¬ (interruptedRun status reason).HasResult := by
  refine ⟨?_, id⟩
  simp only [interruptedRun, CandidateRun.IsCleanupFailure]
  split <;> decide

lemma noEvidenceRun_spec (validate : ChangeOutcome) :
    ¬ (noEvidenceRun validate).IsCleanupFailure ∧ ¬ (noEvidenceRun validate).HasResult := by
  refine ⟨?_, id⟩
  simp only [noEvidenceRun, CandidateRun.IsCleanupFailure]
  split_ifs <;> decide

lemma cleanedUp_validateCandidate : CleanedUp env id
        (validateCandidate guards base basePatches target env result id baseIdentity revision
          issued) ↔ (env.validate.Warns ∨ env.discard.Warns) ∨
        env.discard.status = "DISCARDED" ∧ (Measures env → env.marked = true) := by
  simp only [validateCandidate, issue_bind]
  by_cases hvalidate : env.validate.data.cleanupWarnings = []
  case neg => simp [hvalidate, ChangeOutcome.Warns, cleanedUp_cleanupFailure]
  by_cases hdiscard : env.discard.data.cleanupWarnings = []
  case neg => simp [hvalidate, hdiscard, ChangeOutcome.Warns, cleanedUp_cleanupFailure]
  have hwarns : ¬ (env.validate.Warns ∨ env.discard.Warns) := by
    simp [ChangeOutcome.Warns, hvalidate, hdiscard]
  rw [or_iff_right hwarns]
  simp only [hvalidate, hdiscard, List.isEmpty_nil, Bool.not_true, Bool.false_eq_true, if_false,
    discardCandidate_bind]
  -- The discard was issued; what is left decides under which name the run ends.
  by_cases hcancelled : env.cancelled = true
  · rw [if_pos hcancelled, pure_candidate, cleanedUp_discarded (by simp [CandidateRun.IsCleanupFailure])]
    simp [CandidateRun.HasResult, Measures, hcancelled]
  rw [if_neg hcancelled]
  cases hrow : freshRow env.validate.data with
  | none =>
    simp only [pure_candidate]
    rw [cleanedUp_discarded (noEvidenceRun_spec _).1]
    simp [(noEvidenceRun_spec env.validate).2, Measures, hrow]
  | some row =>
    by_cases homitted : row.diagnosticsOmitted > 0
    · simp only [if_pos homitted, pure_candidate]
      rw [cleanedUp_discarded (by simp [CandidateRun.IsCleanupFailure])]
      simp [CandidateRun.HasResult, Measures, hrow, homitted.ne']
    · simp only [if_neg homitted, pure_candidate]
      rw [cleanedUp_discarded (by simp [CandidateRun.IsCleanupFailure])]
      simp [CandidateRun.HasResult, Measures, hrow, hcancelled, Nat.eq_zero_of_not_pos homitted]

lemma cleanedUp_stageCandidate : CleanedUp env id
        (stageCandidate guards base basePatches target env result id baseIdentity revision
          issued) ↔ ((env.stage.RefusesStage ∧ env.stage.Warns) ∨
          env.stage.status = "STAGED" ∧ (env.validate.Warns ∨ env.discard.Warns)) ∨
        env.discard.status = "DISCARDED" ∧
          ((env.stage.RefusesStage ∨ env.stage.status = "STAGED" ∧ Measures env) → env.marked = true) := by
  simp only [stageCandidate, issue_bind]
  by_cases hstaged : env.stage.status = "STAGED"
  · simp only [hstaged, ne_eq, not_true_eq_false, if_false]
    rw [cleanedUp_validateCandidate]
    simp [ChangeOutcome.RefusesStage, hstaged]
  rw [if_pos hstaged]
  cases hinterrupted : isInterrupted env.stage.status with
  | true =>
    simp only [if_true, discardCandidate_bind, pure_candidate]
    rw [cleanedUp_discarded (interruptedRun_spec _ _).1]
    simp [(interruptedRun_spec _ _).2, ChangeOutcome.RefusesStage, hstaged, hinterrupted]
  | false =>
    have hrefuses : env.stage.RefusesStage := ⟨hstaged, hinterrupted⟩
    by_cases hwarns : env.stage.data.cleanupWarnings = []
    · simp only [hwarns, List.isEmpty_nil, Bool.not_true, Bool.false_eq_true, if_false,
        discardCandidate_bind, pure_candidate]
      rw [cleanedUp_discarded (by simp [CandidateRun.IsCleanupFailure])]
      simp [CandidateRun.HasResult, hrefuses, hstaged, ChangeOutcome.Warns, hwarns]
    · simp [hwarns, ChangeOutcome.Warns, cleanedUp_cleanupFailure, hrefuses]

lemma cleanedUp_replayBase : CleanedUp env id
        (replayBase guards base basePatches baseNewFiles target env result id baseIdentity
          issued) ↔ MeetsWarning basePatches baseNewFiles env ∨ env.discard.status = "DISCARDED" ∧
          (EndsInResult basePatches baseNewFiles env → env.marked = true) := by
  simp only [replayBase]
  by_cases hnothing : basePatches = [] ∧ baseNewFiles = []
  · obtain ⟨rfl, rfl⟩ := hnothing
    simp only [List.isEmpty_nil, Bool.and_self, if_true]
    rw [cleanedUp_stageCandidate]
    simp [MeetsWarning, EndsInResult, Replayed]
  have hsome : ¬ (basePatches.isEmpty && baseNewFiles.isEmpty) = true := by simpa using hnothing
  simp only [if_neg hsome, issue_bind]
  by_cases hstaged : env.baseStage.status = "STAGED"
  · simp only [hstaged, ne_eq, not_true_eq_false, if_false]
    rw [cleanedUp_stageCandidate]
    simp [MeetsWarning, EndsInResult, Replayed, hstaged, ChangeOutcome.RefusesStage]
  rw [if_pos hstaged]
  have hreplayed : ¬ Replayed basePatches baseNewFiles env := fun h => h.elim hnothing hstaged
  cases hinterrupted : isInterrupted env.baseStage.status with
  | true =>
    simp only [if_true, discardCandidate_bind, pure_candidate]
    rw [cleanedUp_discarded (interruptedRun_spec _ _).1]
    simp [(interruptedRun_spec _ _).2, MeetsWarning, EndsInResult, hreplayed,
      ChangeOutcome.RefusesStage, hinterrupted]
  | false =>
    have hrefuses : env.baseStage.RefusesStage := ⟨hstaged, hinterrupted⟩
    by_cases hwarns : env.baseStage.data.cleanupWarnings = []
    · simp only [hwarns, List.isEmpty_nil, Bool.not_true, Bool.false_eq_true, if_false,
        discardCandidate_bind, pure_candidate]
      rw [cleanedUp_discarded (by simp [CandidateRun.IsCleanupFailure])]
      simp [CandidateRun.HasResult, MeetsWarning, EndsInResult, hreplayed, ChangeOutcome.Warns, hwarns]
    · simp [hwarns, ChangeOutcome.Warns, cleanedUp_cleanupFailure, MeetsWarning, hrefuses, hnothing]

lemma ChangeOutcome.cleanupWarnings_of_not_warns {outcome : ChangeOutcome} (h : ¬ outcome.Warns) :
    outcome.data.cleanupWarnings = [] := by
  simpa [ChangeOutcome.Warns] using h

lemma warns_of_validateCandidate
    (h : (validateCandidate guards base basePatches target env result id baseIdentity revision
      issued).1.IsCleanupFailure) : env.validate.Warns ∨ env.discard.Warns := by
  by_contra hwarns
  obtain ⟨hvalidate, hdiscard⟩ := not_or.mp hwarns
  simp only [validateCandidate, issue_bind, ChangeOutcome.cleanupWarnings_of_not_warns hvalidate,
    ChangeOutcome.cleanupWarnings_of_not_warns hdiscard, List.isEmpty_nil, Bool.not_true,
    Bool.false_eq_true, if_false, discardCandidate_bind] at h
  by_cases hcancelled : env.cancelled = true
  · simp [hcancelled, CandidateRun.IsCleanupFailure] at h
  rw [if_neg hcancelled] at h
  cases hrow : freshRow env.validate.data with
  | none =>
    rw [hrow] at h
    exact (noEvidenceRun_spec _).1 h
  | some row =>
    by_cases homitted : row.diagnosticsOmitted > 0 <;>
      simp [hrow, homitted, CandidateRun.IsCleanupFailure] at h

lemma warns_of_stageCandidate (h : (stageCandidate guards base basePatches target env result id baseIdentity revision
      issued).1.IsCleanupFailure) : env.stage.Warns ∨ env.validate.Warns ∨ env.discard.Warns := by
  simp only [stageCandidate, issue_bind] at h
  by_cases hstaged : env.stage.status = "STAGED"
  · simp only [hstaged, ne_eq, not_true_eq_false, if_false] at h
    exact Or.inr (warns_of_validateCandidate h)
  rw [if_pos hstaged] at h
  by_contra hwarns
  have hquiet := ChangeOutcome.cleanupWarnings_of_not_warns (not_or.mp hwarns).1
  cases hinterrupted : isInterrupted env.stage.status with
  | true =>
    simp only [hinterrupted, if_true, discardCandidate_bind, pure_candidate] at h
    exact (interruptedRun_spec _ _).1 h
  | false => simp [hinterrupted, hquiet, CandidateRun.IsCleanupFailure] at h

lemma warns_of_replayBase (h : (replayBase guards base basePatches baseNewFiles target env result id baseIdentity
      issued).1.IsCleanupFailure) :
    env.baseStage.Warns ∨ env.stage.Warns ∨ env.validate.Warns ∨ env.discard.Warns := by
  simp only [replayBase] at h
  by_cases hnothing : (basePatches.isEmpty && baseNewFiles.isEmpty) = true
  · simp only [if_pos hnothing] at h
    exact Or.inr (warns_of_stageCandidate h)
  simp only [if_neg hnothing, issue_bind] at h
  by_cases hstaged : env.baseStage.status = "STAGED"
  · simp only [hstaged, ne_eq, not_true_eq_false, if_false] at h
    exact Or.inr (warns_of_stageCandidate h)
  rw [if_pos hstaged] at h
  by_contra hwarns
  have hquiet := ChangeOutcome.cleanupWarnings_of_not_warns (not_or.mp hwarns).1
  cases hinterrupted : isInterrupted env.baseStage.status with
  | true =>
    simp only [hinterrupted, if_true, discardCandidate_bind, pure_candidate] at h
    exact (interruptedRun_spec _ _).1 h
  | false => simp [hinterrupted, hquiet, CandidateRun.IsCleanupFailure] at h

lemma warns_of_cleanupFailure {candidate : RepairCandidateData}
    (h : ((runCandidate guards base basePatches baseNewFiles target env candidate).run []).1.IsCleanupFailure) :
    env.baseStage.Warns ∨ env.stage.Warns ∨ env.validate.Warns ∨ env.discard.Warns := by
  change (runCandidate guards base basePatches baseNewFiles target env candidate
    []).1.IsCleanupFailure at h
  simp only [runCandidate, issue_bind] at h
  by_cases hcreated : env.create.status = "CREATED"
  case neg =>
    rw [if_pos hcreated] at h
    cases hinterrupted : isInterrupted env.create.status with
    | true =>
      simp only [hinterrupted, if_true, pure_candidate] at h
      exact absurd h (interruptedRun_spec _ _).1
    | false => simp [hinterrupted, CandidateRun.IsCleanupFailure] at h
  simp only [hcreated, ne_eq, not_true_eq_false, if_false] at h
  cases hid : env.create.data.changeId with
  | none => simp [hid, CandidateRun.IsCleanupFailure] at h
  | some id =>
    cases hidentity : env.create.data.baseIdentity with
    | none => simp [hid, hidentity, CandidateRun.IsCleanupFailure] at h
    | some baseIdentity =>
      simp only [hid, hidentity] at h
      by_cases hsame : base.baseIdentity = some baseIdentity
      · simp only [hsame, not_true_eq_false, if_false] at h
        exact warns_of_replayBase h
      · simp [hsame, CandidateRun.IsCleanupFailure] at h

/-! ## The whole run -/

/-- A run leaves nothing behind exactly when its discard comes in time. -/
theorem candidate_leaves_nothing_iff (candidate : RepairCandidateData) :
    NoLeak env ((runCandidate guards base basePatches baseNewFiles target env candidate).run []) ↔
      (env.create.status = "CREATED" → DiscardsInTime base basePatches baseNewFiles env) := by
  unfold NoLeak
  refine imp_congr_right fun hcreated => ?_
  change (∃ id, _ ∧ CleanedUp env id
    (runCandidate guards base basePatches baseNewFiles target env candidate [])) ↔ _
  simp only [runCandidate, issue_bind, hcreated, ne_eq, not_true_eq_false, if_false]
  cases hid : env.create.data.changeId with
  | none => simp [DiscardsInTime, hid]
  | some id =>
    simp only [Option.some.injEq, exists_eq_left']
    cases hidentity : env.create.data.baseIdentity with
    | none =>
      simp [DiscardsInTime, hidentity, CleanedUp, CandidateRun.IsCleanupFailure,
        Repair.createRequest, Repair.discardRequest]
    | some baseIdentity =>
      simp only [DiscardsInTime, hid, hidentity, Option.isSome_some, true_and]
      by_cases hsame : base.baseIdentity = some baseIdentity
      · simp only [hsame, not_true_eq_false, if_false, if_true]
        exact cleanedUp_replayBase
      · simp only [hsame, not_false_eq_true, if_true, if_false, discardCandidate_bind, pure_candidate]
        rw [cleanedUp_discarded (by simp [CandidateRun.IsCleanupFailure])]
        simp [CandidateRun.HasResult]

end Run

/-- A create that captures a workspace with one file. -/
def oneFileCreate (id : String) : ChangeOp := .create { CreateEnv.quiet oneFileSource with id } ""

/-- The surroundings of a discard in which nothing fails. -/
def DiscardEnv.quiet : DiscardEnv := ⟨none, .acquired, [], ∅, none, 0⟩

/-- The answer of a service that holds one change to an action. -/
def oneFileAnswer (op : ChangeOp) : ChangeOutcome :=
  ((ChangeServer.new.perform Sha256.sha256Hex .default (oneFileCreate "chg-0-1-1")).1.perform
    Sha256.sha256Hex .default op).2

def candidateCreated : ChangeOutcome :=
  (ChangeServer.new.perform Sha256.sha256Hex .default (oneFileCreate "chg-0-1-1")).2

/-- The candidate does not apply, and the change is locked at its discard. -/
def refusedDiscard : CandidateEnv where
  create := candidateCreated
  baseStage := candidateCreated
  stage := oneFileAnswer (.stage "chg-0-1-1" .quiet
    ⟨some 0, candidateCreated.data.baseIdentity, [⟨"lib.rs", "two", "three"⟩], []⟩ "")
  validate := candidateCreated
  discard := oneFileAnswer (.discard "chg-0-1-1" { DiscardEnv.quiet with lock := .busy })
  marked := false
  stats := ⟨none, none⟩
  cancelled := false

def refusedDiscardRun : CandidateRun × List ChangeRequest :=
  (runCandidate ⟨fun _ => (0, 0), fun _ => ([], []), fun _ _ => ([], [])⟩ candidateCreated.data [] []
    "check" refusedDiscard
    { id := "c1", source := "host", hash := "", patches := [⟨"lib.rs", "two", "three"⟩] }).run []

theorem refused_discard_leaves_candidate :
    refusedDiscard.stage.status = "PATCH_REJECTED" ∧ refusedDiscard.discard.status = "CHANGE_BUSY" ∧
      ¬ NoLeak refusedDiscard refusedDiscardRun := by
  refine ⟨by decide +kernel, by decide +kernel, fun h => ?_⟩
  obtain ⟨id, -, hdone, -⟩ := h (by decide +kernel)
  rcases hdone with ⟨-, hstatus⟩ | hfailure
  · exact absurd hstatus (by decide +kernel)
  · exact absurd hfailure (by decide +kernel)

end AgzRustMcp
