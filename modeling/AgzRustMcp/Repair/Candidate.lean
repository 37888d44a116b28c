import AgzRustMcp.Change.Service
import AgzRustMcp.Repair.Predicate
import AgzRustMcp.Work.Service

/-!
# One repair candidate

`run_candidate` of `repair/service.rs` creates a change of its own, replays the base change in it,
stages the candidate, validates it and discards the change again.  The answers of the change service
and the cancellation are inputs, and the requests that are issued are kept.  `discard` looks at the
cleanup warnings of an answer, not at its status.
-/

namespace AgzRustMcp

open Std (ExtTreeMap)

namespace Repair

/-- `create_request` of `repair/service.rs`. -/
def createRequest : ChangeRequest := ⟨.create, none, none, none, [], [], "check"⟩

/-- `stage_request` of `repair/service.rs`. -/
def stageRequest (id baseIdentity : String) (expectedRevision : ℕ) (patches : List PatchInput)
    (newFiles : List NewFileInput) : ChangeRequest :=
  ⟨.stage, some id, some expectedRevision, some baseIdentity, patches, newFiles, "check"⟩

/-- `validate_request` of `repair/service.rs`. -/
def validateRequest (id baseIdentity : String) (expectedRevision : ℕ) (target : String) : ChangeRequest :=
  ⟨.validate, some id, some expectedRevision, some baseIdentity, [], [], target⟩

/-- The request of `discard`. -/
def discardRequest (id : String) : ChangeRequest := ⟨.discard, some id, none, none, [], [], "check"⟩

end Repair

/-! ## Results -/

structure RepairGateData where
  target : String
  status : String
  exitCode : Option ℤ
  totalMs : ℕ
  testsExecuted : Option ℕ
  buildSuccess : Option Bool

structure RepairDeltaData where
  beforeErrors : ℕ
  afterErrors : ℕ
  fixedCodes : List String
  remainingCodes : List String
  newCodes : List String

structure RepairChangedData where
  files : List String
  linesAdded : ℕ
  linesRemoved : ℕ
  publicApiAdded : List String
  publicApiRemoved : List String

structure RepairImpactData where
  kind : String
  category : String
  detail : String
  origin : String

structure RepairCandidateData where
  id : String
  source : String
  hash : String
  status : String := "candidate"
  patches : List PatchInput
  changeId : Option String := none
  revision : Option ℕ := none
  compile : Option String := none
  gate : Option RepairGateData := none
  diagnostics : List ChangeDiagnosticData := []
  diagnosticsTotal : ℕ := 0
  diagnosticsOmitted : ℕ := 0
  delta : Option RepairDeltaData := none
  changed : Option RepairChangedData := none
  impacts : List RepairImpactData := []
  inheritedImpacts : List RepairImpactData := []
  reason : String := ""

inductive CandidateRun where
  | measured (result : RepairCandidateData)
  | rejected (result : RepairCandidateData)
  | abort (status stopReason reason : String)

inductive BaseEvidence where
  | fail (row : ChangeEvidenceData)
  | clean
  | missing (reason : String)

/-- The rows of `base_evidence`, newest first. -/
def baseEvidenceRows (revision : ℕ) : List ChangeEvidenceData → BaseEvidence
  | [] => .missing "no fresh authoritative FAIL evidence exists for the current revision"
  | row :: rows =>
    if row.revision ≠ revision || !row.fresh || !row.authoritative then
      baseEvidenceRows revision rows
    else if row.status = "FAIL" then
      if row.diagnosticsOmitted > 0 then
        .missing
          "compiler diagnostics were truncated (diagnosticsOmitted > 0); no usable repair evidence"
      else .fail row
    else if row.status = "PASS" then .clean
    else baseEvidenceRows revision rows

def baseEvidence (data : ChangeData) : BaseEvidence :=
  if data.state ≠ "ready" then .missing ("the change is " ++ data.state)
  else if data.discarded then .missing "the change was discarded"
  else if !data.cleanupWarnings.isEmpty then
    .missing "the change record has cleanup warnings; no usable repair evidence"
  else baseEvidenceRows data.revision data.evidence.reverse

def baseFailDiagnostics (data : ChangeData) : List ChangeDiagnosticData :=
  match baseEvidence data with
  | .fail row => row.diagnostics
  | _ => []

def errorCounts (diagnostics : List ChangeDiagnosticData) : ExtTreeMap String ℕ :=
  diagnostics.foldl
    (fun counts diagnostic =>
      if diagnostic.level ≠ "error" then counts
      else
        let code := diagnostic.code.getD "uncoded"
        counts.insert code ((counts[code]?).getD 0 + 1)) ∅

def diagnosticDelta (before after : List ChangeDiagnosticData) : RepairDeltaData :=
  let beforeCounts := (errorCounts before).toList
  let afterCounts := errorCounts after
  let remains := fun entry : String × ℕ => decide (∃ n ∈ afterCounts[entry.1]?, n ≥ entry.2)
  { beforeErrors := (beforeCounts.map Prod.snd).sum
    afterErrors := (afterCounts.toList.map Prod.snd).sum
    fixedCodes := (beforeCounts.filter fun entry => !remains entry).map Prod.fst
    remainingCodes := (beforeCounts.filter remains).map Prod.fst
    newCodes := (afterCounts.toList.map Prod.fst).filter fun code =>
      ((errorCounts before)[code]?).isNone }

/-- The lexical scans of `repair/guards.rs`. -/
structure Guards where
  lineDelta : List PatchInput → ℕ × ℕ
  publicApiDelta : List PatchInput → List String × List String
  /-- The impacts that the patches add to those of the base, and the inherited ones. -/
  scan : List PatchInput → List PatchInput → List RepairImpactData × List RepairImpactData

def changedSummary (guards : Guards) (patches : List PatchInput) : RepairChangedData where
  files := (patches.foldl (fun files patch => files.insert patch.file ())
    (∅ : ExtTreeMap String Unit)).toList.map Prod.fst
  linesAdded := (guards.lineDelta patches).1
  linesRemoved := (guards.lineDelta patches).2
  publicApiAdded := (guards.publicApiDelta patches).1
  publicApiRemoved := (guards.publicApiDelta patches).2

def maxCandidateDiagnostics : ℕ := 32

/-! ## The run -/

/-- The counters of a gate result that `RepairGateData` repeats. -/
structure GateStats where
  testsExecuted : Option ℕ
  buildSuccess : Option Bool

/-- What one run meets: the answers of the change service, whether the change is marked discarded,
the counters of the fresh row and the token after the discard. -/
structure CandidateEnv where
  create : ChangeOutcome
  baseStage : ChangeOutcome
  stage : ChangeOutcome
  validate : ChangeOutcome
  discard : ChangeOutcome
  marked : Bool
  stats : GateStats
  cancelled : Bool

/-- A run with the requests that it has issued. -/
abbrev CandidateM := StateM (List ChangeRequest)

/-- Asks the change service. -/
def issue (request : ChangeRequest) (answer : ChangeOutcome) : CandidateM ChangeOutcome :=
  fun issued => (answer, issued ++ [request])

/-- `discard` of the repair service: whether the answer has no cleanup warnings. -/
def discardCandidate (env : CandidateEnv) (id : String) : CandidateM Bool := do
  let outcome ← issue (Repair.discardRequest id) env.discard
  return outcome.data.cleanupWarnings.isEmpty

/-- `matches!(status, "CANCELLED" | "TIMEOUT")`. -/
def isInterrupted (status : String) : Bool := status = "CANCELLED" || status = "TIMEOUT"

/-- The end of a run whose operation was interrupted. -/
def interruptedRun (status reason : String) : CandidateRun :=
  .abort status (if status = "CANCELLED" then "cancelled" else "timeout") reason

/-- The end of a run that could not clean up. -/
def cleanupFailure (reason : String) : CandidateRun :=
  .abort "INCONCLUSIVE" "cleanupFailure" reason

section Run

variable (guards : Guards) (base : ChangeData) (basePatches : List PatchInput)
  (baseNewFiles : List NewFileInput) (target : String) (env : CandidateEnv)

/-- The newest row that is fresh and authoritative for the validated revision. -/
def freshRow (data : ChangeData) : Option ChangeEvidenceData :=
  data.evidence.reverse.find? fun row =>
    row.revision == data.revision && row.fresh && row.authoritative

def measuredResult (result : RepairCandidateData) (row : ChangeEvidenceData) : RepairCandidateData :=
  let combined := basePatches ++ result.patches
  { result with
    status := "measured"
    compile := env.stats.buildSuccess.map fun success => if success then "compiled" else "failed"
    gate := some ⟨row.target, row.status, row.exitCode, row.totalMs, env.stats.testsExecuted, env.stats.buildSuccess⟩
    diagnostics := row.diagnostics.take maxCandidateDiagnostics
    diagnosticsTotal := row.diagnosticsTotal
    diagnosticsOmitted := row.diagnosticsOmitted
    delta := some (diagnosticDelta (baseFailDiagnostics base) row.diagnostics)
    changed := some (changedSummary guards result.patches)
    impacts := (guards.scan basePatches combined).1
    inheritedImpacts := (guards.scan basePatches combined).2
    reason := s!"measured {row.status} at revision {row.revision} with a fresh {row.target} gate result" }

/-- The end of a run without fresh evidence. -/
def noEvidenceRun (validate : ChangeOutcome) : CandidateRun :=
  let status :=
    if validate.status = "CANCELLED" then "CANCELLED"
    else if validate.status = "TIMEOUT" then "TIMEOUT"
    else "INCONCLUSIVE"
  .abort status
    (if status = "CANCELLED" then "cancelled"
      else if status = "TIMEOUT" then "timeout" else "incompleteDiagnostics")
    ("candidate validation did not produce clean fresh evidence: " ++ truncate validate.data.reason 256)

/-- `run_candidate` from the validation on. -/
def validateCandidate (result : RepairCandidateData) (id baseIdentity : String) (revision : ℕ) :
    CandidateM CandidateRun := do
  let validate ← issue (Repair.validateRequest id baseIdentity revision target) env.validate
  if !validate.data.cleanupWarnings.isEmpty then
    let _ ← discardCandidate env id
    return cleanupFailure
      "candidate validation left cleanup warnings; no repair evidence is usable"
  let discarded ← discardCandidate env id
  if !discarded then
    return cleanupFailure
      "candidate scratch cleanup did not complete; no repair evidence is usable"
  if env.cancelled then
    return .abort "CANCELLED" "cancelled" "repair was cancelled during candidate validation"
  match freshRow validate.data with
  | none => return noEvidenceRun validate
  | some row =>
    if row.diagnosticsOmitted > 0 then
      return .abort "INCONCLUSIVE" "incompleteDiagnostics"
        "candidate diagnostics were truncated; no usable repair evidence"
    return .measured (measuredResult guards base basePatches env result row)

/-- `run_candidate` from the stage of the candidate on. -/
def stageCandidate (result : RepairCandidateData) (id baseIdentity : String) (revision : ℕ) :
    CandidateM CandidateRun := do
  let stage ← issue (Repair.stageRequest id baseIdentity revision result.patches []) env.stage
  if stage.status ≠ "STAGED" then
    if isInterrupted stage.status then
      let _ ← discardCandidate env id
      return interruptedRun stage.status ("candidate stage did not complete: " ++ stage.data.reason)
    if !stage.data.cleanupWarnings.isEmpty then
      return cleanupFailure "candidate staging left cleanup warnings; no repair evidence is usable"
    let _ ← discardCandidate env id
    return .rejected { result with
      status := "rejected"
      reason := truncate
        ("the candidate was not applied as a whole: " ++ stage.data.reason) 320 }
  validateCandidate guards base basePatches target env
    { result with revision := some stage.data.revision } id baseIdentity stage.data.revision

/-- `run_candidate` from the replay of the base change on. -/
def replayBase (result : RepairCandidateData) (id baseIdentity : String) : CandidateM CandidateRun := do
  if basePatches.isEmpty && baseNewFiles.isEmpty then
    stageCandidate guards base basePatches target env result id baseIdentity 0
  else
    let baseStage ←
      issue (Repair.stageRequest id baseIdentity 0 basePatches baseNewFiles) env.baseStage
    if baseStage.status ≠ "STAGED" then
      if isInterrupted baseStage.status then
        let _ ← discardCandidate env id
        return interruptedRun baseStage.status
          ("base patch replay did not complete: " ++ baseStage.data.reason)
      if !baseStage.data.cleanupWarnings.isEmpty then
        return cleanupFailure
          "base patch replay left cleanup warnings; no repair evidence is usable"
      let _ ← discardCandidate env id
      return .abort "STALE" "baseMismatch"
        ("the base change could not be replayed against the captured base: " ++ truncate baseStage.data.reason 256)
    stageCandidate guards base basePatches target env result id baseIdentity
      baseStage.data.revision

def runCandidate (candidate : RepairCandidateData) : CandidateM CandidateRun := do
  let create ← issue Repair.createRequest env.create
  if create.status ≠ "CREATED" then
    if isInterrupted create.status then
      return interruptedRun create.status
        ("candidate create did not complete: " ++ create.data.reason)
    return .rejected { candidate with
      status := "unavailable"
      reason := truncate create.data.reason 320 }
  let some id := create.data.changeId
    | return .rejected { candidate with
        status := "unavailable"
        reason := "the candidate change did not publish an id" }
  let some baseIdentity := create.data.baseIdentity
    | return .abort "INCONCLUSIVE" "inconclusive"
        "the candidate change did not publish a base identity"
  if base.baseIdentity ≠ some baseIdentity then
    let _ ← discardCandidate env id
    return .abort "STALE" "baseMismatch"
      "the workspace base no longer matches the base the failure evidence was produced for; stale candidates were not tried"
  replayBase guards base basePatches baseNewFiles target env
    { candidate with changeId := some id } id baseIdentity

end Run

end AgzRustMcp
