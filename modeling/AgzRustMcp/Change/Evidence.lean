import AgzRustMcp.Change.Create

/-!
# Evidence and results

What a validation records and what an action reports, from `change/service.rs`.  A row is fresh when
the gate came to a verdict, cleaned up every step and was not cancelled.  `data_for_record` reports
a record with a fresh pass as verified, whatever its state is; `refused_data` never does.
-/

namespace AgzRustMcp

/-! ## What the gate returns -/

inductive GateStatus where
  | fastPass | fullPass | fail | pending | timeout | stale | superseded | cancelled | unavailable
  | inconclusive | resourceBlocked
  deriving DecidableEq

def GateStatus.asStr : GateStatus → String
  | .fastPass => "FAST_PASS"
  | .fullPass => "FULL_PASS"
  | .fail => "FAIL"
  | .pending => "PENDING"
  | .timeout => "TIMEOUT"
  | .stale => "STALE"
  | .superseded => "SUPERSEDED"
  | .cancelled => "CANCELLED"
  | .unavailable => "UNAVAILABLE"
  | .inconclusive => "INCONCLUSIVE"
  | .resourceBlocked => "RESOURCE_BLOCKED"

def GateStatus.isVerdict : GateStatus → Bool
  | .fastPass => true
  | .fullPass => true
  | .fail => true
  | _ => false

/-- A machine-applicable suggestion package, and what it could not hold. -/
structure SuggestionPackage where
  patches : List PatchInput
  skipped : List String
  unsupported : ℕ

structure GateStep where
  target : String
  command : String
  exitCode : ℤ
  firstDiagnosticMs : Option ℕ
  durationMs : ℕ
  drainComplete : Bool
  cleanupComplete : Bool
  cancelled : Bool
  timedOut : Bool
  diagnostics : List ChangeDiagnosticData
  diagnosticsOmitted : ℕ
  suggestionPackage : Option SuggestionPackage

/-- The part of `GateEvidence` that a validation reads. -/
structure GateEvidence where
  status : GateStatus
  steps : List GateStep
  firstDiagnosticMs : Option ℕ
  responseMs : ℕ
  message : Option String

/-! ## Evidence rows -/

def evidenceFreshness (evidence : GateEvidence) (cancelled : Bool) : Bool :=
  evidence.status.isVerdict && evidence.steps.all (fun step =>
      step.drainComplete && step.cleanupComplete && !step.cancelled && !step.timedOut) &&
    !cancelled

def maxCommandChars : ℕ := 4096

/-- `MAX_LISTED_SUGGESTION_PATCHES` and `MAX_LISTED_SUGGESTION_SKIPPED`. -/
def maxListedSuggestions : ℕ := 32

def maxSuggestionPatchBytes : ℕ := 65536

def maxSuggestionSkippedChars : ℕ := 256

/-- The loop of `bounded_suggestion_package`; behind an oversized patch others may fit. -/
def fittingPatches : ℕ → List PatchInput → List PatchInput
  | _, [] => []
  | used, patch :: patches =>
    let size := patch.oldString.utf8ByteSize + patch.newString.utf8ByteSize
    if used + size > maxSuggestionPatchBytes then fittingPatches used patches
    else patch :: fittingPatches (used + size) patches

def boundedSuggestionPackage (package : SuggestionPackage) : ChangeSuggestionPackageData :=
  let patches := fittingPatches 0 (package.patches.take maxListedSuggestions)
  let skipped := (package.skipped.take maxListedSuggestions).map
    (truncate · maxSuggestionSkippedChars)
  { patches
    skipped
    unsupported := package.unsupported
    patchesTotal := package.patches.length
    skippedTotal := package.skipped.length
    truncated := patches.length < package.patches.length || skipped.length < package.skipped.length }

def stepRow (revision : ℕ) (fresh : Bool) (status : GateStatus) (recordedAtMs : ℕ)
    (step : GateStep) : StoredEvidence where
  revision := revision
  target := step.target
  command := truncate step.command maxCommandChars
  status := status.asStr
  exitCode := some step.exitCode
  firstDiagnosticMs := step.firstDiagnosticMs
  totalMs := step.durationMs
  fresh := fresh
  authoritative := fresh && status.isVerdict
  recordedAtMs := recordedAtMs
  diagnostics := if fresh then step.diagnostics else []
  diagnosticsTotal :=
    if fresh then saturatingAdd step.diagnostics.length step.diagnosticsOmitted else 0
  diagnosticsOmitted := if fresh then step.diagnosticsOmitted else 0
  suggestionPackage :=
    if fresh && status == .fail then step.suggestionPackage.map boundedSuggestionPackage else none

def emptyRow (revision : ℕ) (fresh : Bool) (recordedAtMs : ℕ) (evidence : GateEvidence) : StoredEvidence where
  revision := revision
  target := evidence.status.asStr
  command := ""
  status := evidence.status.asStr
  exitCode := none
  firstDiagnosticMs := evidence.firstDiagnosticMs
  totalMs := evidence.responseMs
  fresh := fresh
  authoritative := fresh
  recordedAtMs := recordedAtMs
  diagnostics := []
  diagnosticsTotal := 0
  diagnosticsOmitted := 0
  suggestionPackage := none

def evidenceRows (revision : ℕ) (fresh : Bool) (recordedAtMs : ℕ) (evidence : GateEvidence) : List StoredEvidence :=
  if evidence.steps.isEmpty then [emptyRow revision fresh recordedAtMs evidence]
  else (evidence.steps.take 16).map (stepRow revision fresh evidence.status recordedAtMs)

lemma revision_of_mem_evidenceRows {revision recordedAtMs : ℕ} {fresh : Bool}
    {evidence : GateEvidence} {row : StoredEvidence}
    (h : row ∈ evidenceRows revision fresh recordedAtMs evidence) : row.revision = revision := by
  unfold evidenceRows at h
  split_ifs at h
  · obtain rfl := List.mem_singleton.mp h
    rfl
  · obtain ⟨step, -, rfl⟩ := List.mem_map.mp h
    rfl

/-! ## Results -/

structure ChangeEvidenceData where
  revision : ℕ
  target : String
  command : String
  status : String
  exitCode : Option ℤ
  firstDiagnosticMs : Option ℕ
  totalMs : ℕ
  fresh : Bool
  authoritative : Bool
  diagnostics : List ChangeDiagnosticData
  diagnosticsTotal : ℕ
  diagnosticsOmitted : ℕ
  suggestionPackage : Option ChangeSuggestionPackageData
  deriving DecidableEq

structure ChangeNewFileData where
  file : String
  sha256 : String
  bytes : ℕ
  content : Option String
  deriving DecidableEq

structure ChangeData where
  action : String
  changeId : Option String
  baseIdentity : Option String
  revision : ℕ
  patchHash : Option String
  state : String
  verified : Bool
  discarded : Bool
  changedFiles : List String
  changedFilesTotal : ℕ
  sourceHashes : List (String × StoredHash)
  sourceHashesTotal : ℕ
  evidence : List ChangeEvidenceData
  evidenceTotal : ℕ
  capture : Option CaptureSummary
  patches : List StoredPatch
  patchesTotal : ℕ
  newFiles : List ChangeNewFileData
  newFilesTotal : ℕ
  newFilesContentOmitted : Bool
  cleanupWarnings : List String
  reason : String
  deriving DecidableEq

/-- `ChangeData::default`, with the fields that results without a record set. -/
def ChangeData.absent (action : ChangeAction) (changeId : Option String) (reason : String) : ChangeData where
  action := action.asStr
  changeId := changeId
  baseIdentity := none
  revision := 0
  patchHash := none
  state := "absent"
  verified := false
  discarded := false
  changedFiles := []
  changedFilesTotal := 0
  sourceHashes := []
  sourceHashesTotal := 0
  evidence := []
  evidenceTotal := 0
  capture := none
  patches := []
  patchesTotal := 0
  newFiles := []
  newFilesTotal := 0
  newFilesContentOmitted := false
  cleanupWarnings := []
  reason := reason

def maxListedChangedFiles : ℕ := 1024

def maxListedHashes : ℕ := 512

def maxListedEvidence : ℕ := 64

/-- One row as listed; only a fresh one of the current revision has feedback. -/
def listedRow (revision : ℕ) (row : StoredEvidence) : ChangeEvidenceData :=
  let current := row.fresh && row.revision == revision
  { revision := row.revision
    target := row.target
    command := row.command
    status := row.status
    exitCode := row.exitCode
    firstDiagnosticMs := row.firstDiagnosticMs
    totalMs := row.totalMs
    fresh := row.fresh
    authoritative := row.authoritative
    diagnostics := if current then row.diagnostics else []
    diagnosticsTotal := if current then row.diagnosticsTotal else 0
    diagnosticsOmitted := if current then row.diagnosticsOmitted else 0
    suggestionPackage := if current then row.suggestionPackage else none }

/-- The listed new files, with their contents while the budget lasts. -/
def listNewFiles (budget : Option ℕ) : ℕ → List StoredNewFile → List ChangeNewFileData × Bool
  | _, [] => ([], false)
  | used, file :: files =>
    let size := file.content.utf8ByteSize
    match budget with
    | none =>
      let (listed, omitted) := listNewFiles budget used files
      (⟨file.file, file.sha256, file.bytes, none⟩ :: listed, omitted)
    | some limit =>
      if saturatingAdd used size ≤ limit then
        let (listed, omitted) := listNewFiles budget (saturatingAdd used size) files
        (⟨file.file, file.sha256, file.bytes, some file.content⟩ :: listed, omitted)
      else
        let (listed, _) := listNewFiles budget used files
        (⟨file.file, file.sha256, file.bytes, none⟩ :: listed, true)

def dataForRecord (action : ChangeAction) (record : ChangeRecord) (contentBudget : Option ℕ) : ChangeData :=
  let (newFiles, omitted) := listNewFiles contentBudget 0 (record.newFiles.take maxListedHashes)
  { action := action.asStr
    changeId := some record.id
    baseIdentity := some record.baseIdentity
    revision := record.revision
    patchHash := some record.patchHash
    state := record.state.asStr
    verified := record.currentRevisionFreshPass
    discarded := record.state == .discarded
    changedFiles := record.changedFiles.take maxListedChangedFiles
    changedFilesTotal := record.changedFiles.length
    sourceHashes := record.sourceHashes.toList.take maxListedHashes
    sourceHashesTotal := record.sourceHashes.size
    evidence := ((record.evidence.reverse.take maxListedEvidence).map
      (listedRow record.revision)).reverse
    evidenceTotal := record.evidence.length
    capture := some record.capture
    patches := record.patches.take maxListedHashes
    patchesTotal := record.patches.length
    newFiles
    newFilesTotal := record.newFiles.length
    newFilesContentOmitted := omitted || record.newFiles.length > maxListedHashes
    cleanupWarnings := record.cleanupWarnings
    reason := "" }

/-- `refused_data`: nothing in it claims a fresh verification. -/
def refusedData (action : ChangeAction) (record : ChangeRecord) (reason : String) : ChangeData :=
  let data := dataForRecord action record none
  { data with
    verified := false
    evidence := data.evidence.map fun row =>
      { row with
        fresh := false
        authoritative := false
        diagnostics := []
        diagnosticsTotal := 0
        diagnosticsOmitted := 0
        suggestionPackage := none }
    reason }

structure ChangeOutcome where
  status : String
  summary : String
  isError : Bool
  data : ChangeData
  deriving DecidableEq

def errorOutcome (action : ChangeAction) (status summary reason : String)
    (changeId : Option String) : ChangeOutcome :=
  ⟨status, summary, true, .absent action changeId reason⟩

end AgzRustMcp
