import AgzRustMcp.Change.Evidence

/-!
# Work records and their parts

The data of `work/model.rs` and the in-memory record of `work/service.rs`.  Left out are the JSON
schema of a handoff, which is a constant, and the cancellation token of a record: all copies share
one token, so the store keeps the set of cancelled sessions.
-/

namespace AgzRustMcp

/-! ## Limits -/

def workIdPrefix : String := "wk-"

def maxScopePaths : ℕ := 64

def maxScopePathChars : ℕ := 512

def maxContractChars : ℕ := 4096

def maxStopConditionChars : ℕ := 1024

def maxAcceptanceGates : ℕ := 8

def maxRequiredTools : ℕ := 8

def maxListedWorkEvidence : ℕ := 32

def maxListedHandoffDiagnostics : ℕ := 24

def maxUnresolvedObligations : ℕ := 16

def maxWorkRecords : ℕ := 256

def maxCandidatePatches : ℕ := 512

def maxCandidateNewFiles : ℕ := 512

/-- `LOCK_STRIPES` of `work/service.rs`. -/
def workLockStripes : ℕ := 64

def maxRecordWarnings : ℕ := 16

def maxObligationChars : ℕ := 256

/-- The part of `WorkConfig` that the service reads. -/
structure WorkConfig where
  maxActive : ℕ
  continuationTtlMs : ℕ
  deriving DecidableEq

/-- The switches of `ToolConfig` that a work item can require. -/
structure ToolConfig where
  audit : Bool
  crateLookup : Bool
  docs : Bool
  lsp : Bool
  change : Bool
  deriving DecidableEq

/-! ## Requests -/

inductive WorkAction where
  | start | resume | inspect | cancel
  deriving DecidableEq

def WorkAction.asStr : WorkAction → String
  | .start => "start"
  | .resume => "resume"
  | .inspect => "inspect"
  | .cancel => "cancel"

inductive WorkTemplate where
  | implementWithContract | repairCompileFailure | refactorAndVerify
  deriving DecidableEq

def WorkTemplate.asStr : WorkTemplate → String
  | .implementWithContract => "implement_with_contract"
  | .repairCompileFailure => "repair_compile_failure"
  | .refactorAndVerify => "refactor_and_verify"

inductive WorkGate where
  | check | clippy | test | doc | fmt | all
  deriving DecidableEq

/-- `WorkGate::as_str`; `WorkGate::target` is the gate target of the same name. -/
def WorkGate.asStr : WorkGate → String
  | .check => "check"
  | .clippy => "clippy"
  | .test => "test"
  | .doc => "doc"
  | .fmt => "fmt"
  | .all => "all"

inductive WorkTool where
  | change | check | docs | lsp | audit | crateLookup
  deriving DecidableEq

def WorkTool.asStr : WorkTool → String
  | .change => "change"
  | .check => "check"
  | .docs => "docs"
  | .lsp => "lsp"
  | .audit => "audit"
  | .crateLookup => "crate_lookup"

structure WorkChangeBudget where
  maxPatches : ℕ
  maxNewFiles : ℕ
  deriving DecidableEq

structure WorkIntent where
  template : WorkTemplate
  scopePaths : List String
  contract : String
  stopCondition : String
  acceptanceGates : List WorkGate
  changeBudget : WorkChangeBudget
  deriving DecidableEq

structure WorkConstraints where
  offline : Bool
  requiredTools : List WorkTool
  deriving DecidableEq

/-- `WorkConstraints::default`. -/
def WorkConstraints.none : WorkConstraints := ⟨false, []⟩

structure WorkBudget where
  maxCompiles : ℕ
  maxCandidates : ℕ
  maxHandoffs : ℕ
  wallTimeMs : ℕ
  deriving DecidableEq

structure WorkRequest where
  action : WorkAction
  workId : Option String
  continuationToken : Option String
  changeId : Option String
  intent : Option WorkIntent
  patches : List PatchInput
  newFiles : List NewFileInput
  constraints : WorkConstraints
  budget : WorkBudget
  deriving DecidableEq

/-- The root and the authorization epoch of a `WorkspaceRoot`. -/
structure Workspace where
  root : String
  epoch : ℕ
  deriving DecidableEq

/-! ## The record -/

inductive WorkState where
  | planned | collecting | staging | validating | needsModel | ready | blocked | failed | cancelled
  deriving DecidableEq

def WorkState.asStr : WorkState → String
  | .planned => "planned"
  | .collecting => "collecting"
  | .staging => "staging"
  | .validating => "validating"
  | .needsModel => "needs_model"
  | .ready => "ready"
  | .blocked => "blocked"
  | .failed => "failed"
  | .cancelled => "cancelled"

lemma WorkState.asStr_inj {state state' : WorkState} (h : state.asStr = state'.asStr) : state = state' := by
  cases state <;> cases state' <;> first | rfl | exact absurd h (by decide)

def WorkState.isTerminal : WorkState → Bool
  | .ready | .blocked | .failed | .cancelled => true
  | _ => false

/-- `HandoffToken`: of the token only its hash is kept. -/
structure HandoffToken where
  tokenHash : String
  changeId : String
  revision : ℕ
  patchHash : String
  expiresAtMs : ℕ
  used : Bool
  deriving DecidableEq

structure WorkHandoffData where
  continuationToken : String
  expiresAtMs : ℕ
  failureKind : String
  diagnostics : List ChangeDiagnosticData
  diagnosticsTotal : ℕ
  diagnosticsOmitted : ℕ
  suggestionPackage : Option ChangeSuggestionPackageData
  unresolvedObligations : List String
  deriving DecidableEq

structure WorkEvidenceData where
  revision : ℕ
  gate : String
  status : String
  fresh : Bool
  exitCode : Option ℤ
  totalMs : ℕ
  diagnosticsTotal : ℕ
  deriving DecidableEq

structure WorkRecord where
  id : String
  createdAtMs : ℕ
  updatedAtMs : ℕ
  workspaceRoot : String
  workspaceEpoch : ℕ
  state : WorkState
  intent : WorkIntent
  budget : WorkBudget
  changeId : Option String
  baseIdentity : Option String
  revision : ℕ
  patchHash : Option String
  candidates : ℕ
  compiles : ℕ
  handoffs : ℕ
  triedFingerprints : List String
  lastFailureFingerprint : Option String
  token : Option HandoffToken
  handoff : Option WorkHandoffData
  evidence : List WorkEvidenceData
  reason : String
  warnings : List String
  deriving DecidableEq

def WorkRecord.block (record : WorkRecord) (reason : String) : WorkRecord :=
  { record with state := .blocked, reason }

def WorkRecord.fail (record : WorkRecord) (reason : String) : WorkRecord :=
  { record with state := .failed, reason }

/-- The assignments with which a call marks its copy as cancelled. -/
def WorkRecord.cancel (record : WorkRecord) (reason : String) : WorkRecord :=
  { record with state := .cancelled, reason }

def WorkRecord.pushWarning (record : WorkRecord) (warning : String) : WorkRecord :=
  if warning = "" ∨ warning ∈ record.warnings then record
  else if record.warnings.length ≥ maxRecordWarnings then
    { record with warnings := record.warnings.tail ++ [warning] }
  else { record with warnings := record.warnings ++ [warning] }

/-- `record.warnings.extend(..)`. -/
def WorkRecord.extendWarnings (record : WorkRecord) (warnings : List String) : WorkRecord :=
  { record with warnings := record.warnings ++ warnings }

def WorkRecord.pushEvidence (record : WorkRecord) (row : WorkEvidenceData) : WorkRecord :=
  let evidence := record.evidence ++ [row]
  { record with
    evidence := if evidence.length > maxListedWorkEvidence then evidence.tail else evidence }

def WorkRecord.deadlineMs (record : WorkRecord) : ℕ :=
  saturatingAdd record.createdAtMs record.budget.wallTimeMs

/-- The record belongs to another workspace or authorization epoch. -/
def WorkRecord.foreignTo (record : WorkRecord) (workspace : Workspace) : Bool :=
  record.workspaceRoot != workspace.root || record.workspaceEpoch != workspace.epoch

/-- Marks the continuation token of a record as used. -/
def WorkRecord.consumeToken (record : WorkRecord) : WorkRecord :=
  { record with token := record.token.map fun stored => { stored with used := true } }

/-! ## Results -/

structure WorkBudgetUsedData where
  candidates : ℕ
  compiles : ℕ
  handoffs : ℕ
  elapsedMs : ℕ
  deriving DecidableEq

structure WorkData where
  action : String
  workId : Option String
  state : String
  template : Option String
  changeId : Option String
  revision : ℕ
  patchHash : Option String
  acceptanceGates : List String
  scopePaths : List String
  budget : WorkBudget
  used : WorkBudgetUsedData
  handoff : Option WorkHandoffData
  evidence : List WorkEvidenceData
  evidenceTotal : ℕ
  reason : String
  warnings : List String
  deriving DecidableEq

structure WorkOutcome where
  status : String
  summary : String
  isError : Bool
  data : WorkData
  deriving DecidableEq

def uniqueGates (intent : WorkIntent) : List WorkGate :=
  intent.acceptanceGates.foldl (fun gates gate => if gate ∈ gates then gates else gates ++ [gate]) []

/-- `data_for_record`, at the time `now`. -/
def workDataForRecord (action : String) (record : WorkRecord) (now : ℕ) : WorkData where
  action := action
  workId := some record.id
  state := record.state.asStr
  template := some record.intent.template.asStr
  changeId := record.changeId
  revision := record.revision
  patchHash := record.patchHash
  acceptanceGates := (uniqueGates record.intent).map WorkGate.asStr
  scopePaths := record.intent.scopePaths
  budget := record.budget
  used := ⟨record.candidates, record.compiles, record.handoffs, now - record.createdAtMs⟩
  handoff := if record.state = .needsModel then record.handoff else none
  evidence := (record.evidence.reverse.take maxListedWorkEvidence).reverse
  evidenceTotal := record.evidence.length
  reason := record.reason
  warnings := record.warnings

/-- `refuse`: a refusal without a record. -/
def workRefuse (action : WorkAction) (status summary reason : String) (workId : Option String) : WorkOutcome where
  status := status
  summary := summary
  isError := true
  data :=
    { action := action.asStr
      workId
      state := "absent"
      template := none
      changeId := none
      revision := 0
      patchHash := none
      acceptanceGates := []
      scopePaths := []
      budget := ⟨0, 0, 0, 0⟩
      used := ⟨0, 0, 0, 0⟩
      handoff := none
      evidence := []
      evidenceTotal := 0
      reason
      warnings := [] }

@[simp] lemma mem_uniqueGates {intent : WorkIntent} {gate : WorkGate} :
    gate ∈ uniqueGates intent ↔ gate ∈ intent.acceptanceGates := by
  have hfold : ∀ (gates acc : List WorkGate),
      gate ∈ gates.foldl (fun gates gate => if gate ∈ gates then gates else gates ++ [gate]) acc ↔
        gate ∈ acc ∨ gate ∈ gates := by
    intro gates
    induction gates with
    | nil => simp
    | cons g gates ih =>
      intro acc
      rw [List.foldl_cons, ih]
      by_cases hg : g ∈ acc
      · rw [if_pos hg, List.mem_cons]
        constructor
        · rintro (h | h)
          · exact Or.inl h
          · exact Or.inr (Or.inr h)
        · rintro (h | rfl | h)
          · exact Or.inl h
          · exact Or.inl hg
          · exact Or.inr h
      · rw [if_neg hg, List.mem_append, List.mem_singleton, List.mem_cons, or_assoc]
  simpa [uniqueGates] using hfold intent.acceptanceGates []

end AgzRustMcp
