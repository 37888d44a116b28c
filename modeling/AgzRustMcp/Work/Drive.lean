import AgzRustMcp.Work.Service

/-!
# Handoffs, candidates and the four actions

`drive` runs one host candidate: it stages the candidate and then runs every acceptance gate in
order.  A failed gate issues a handoff with a fresh continuation token.  `executeWork` chooses
between the actions.
-/

namespace AgzRustMcp

open Tasks

/-! ## Tokens and fingerprints -/

/-- Digits of a number in lower-case hexadecimal, as `{:x}` prints them. -/
def lowerHex (n : ℕ) : String := String.ofList (Nat.toDigits 16 n)

/-- The text that `generate_token` hashes. -/
def tokenText (workId : String) (revision : ℕ) (patchHash : String) (sequence issuedAtMs : ℕ) : String :=
  "agz-rust-mcp-work-token\x00" ++ workId ++ "\x00" ++ toString revision ++ "\x00" ++ patchHash ++
    "\x00" ++ toString sequence ++ "\x00" ++ toString issuedAtMs

def generateToken (sha : ByteArray → String) (workId : String) (revision : ℕ) (patchHash : String)
    (sequence issuedAtMs : ℕ) : String :=
  sha (tokenText workId revision patchHash sequence issuedAtMs).toUTF8

def nextWorkId (processId now sequence : ℕ) : String :=
  workIdPrefix ++ lowerHex now ++ "-" ++ lowerHex processId ++ "-" ++ lowerHex sequence

def isValidWorkId (id : String) : Bool :=
  id != "" && id.utf8ByteSize ≤ 64 && workIdPrefix.toList.isPrefixOf id.toList &&
    id.toList.all fun c => c.isLower || c.isDigit || c == '-'

/-- Sorts tuples of texts, as `sort` does. -/
def sortTexts (rows : List (List String)) : List (List String) :=
  rows.insertionSort fun a b => a ≤ b

/-- Texts, each followed by a zero byte. -/
def zeroTerminated (texts : List String) : String := String.join (texts.map (· ++ "\x00"))

def candidateFingerprint (sha : ByteArray → String) (patches : List PatchInput)
    (newFiles : List NewFileInput) : String :=
  let entries := sortTexts (patches.map fun patch => [patch.file, patch.oldString, patch.newString])
  let files := sortTexts (newFiles.map fun file => [file.file, sha file.content.toUTF8])
  sha (zeroTerminated ("agz-rust-mcp-work-candidate" :: (entries ++ files).flatten)).toUTF8

def failureFingerprint (sha : ByteArray → String) (diagnostics : List ChangeDiagnosticData)
    (diagnosticsTotal : ℕ) : Option String :=
  if diagnostics = [] ∧ diagnosticsTotal = 0 then none
  else
    some (sha (zeroTerminated ("agz-rust-mcp-work-failure" :: toString diagnosticsTotal ::
      diagnostics.flatMap fun diagnostic =>
        [diagnostic.code.getD "", diagnostic.file.getD "", toString (diagnostic.line.getD 0),
          diagnostic.message])).toUTF8)

/-! ## Handoffs -/

/-- The obligations of the gates, with the bound behind each. -/
def gateObligations (revision : ℕ) : List WorkGate → List String → List String × Bool
  | [], obligations => (obligations, false)
  | gate :: gates, obligations =>
    let obligations :=
      obligations ++ [s!"gate {gate.asStr} has no fresh pass on revision {revision}"]
    if obligations.length ≥ maxUnresolvedObligations then (obligations, true)
    else gateObligations revision gates obligations

def unresolvedObligations (record : WorkRecord) (package : Option ChangeSuggestionPackageData) : List String :=
  let first :=
    [s!"contract: {truncate record.intent.contract maxObligationChars}",
      s!"stopCondition: {truncate record.intent.stopCondition maxObligationChars}"]
  match gateObligations record.revision (uniqueGates record.intent) first, package with
  | (obligations, true), _ => obligations
  | (obligations, false), none => obligations
  | (obligations, false), some package =>
    let skipped := (package.skipped.take 4).map fun text =>
      s!"suggestion skipped: {truncate text maxObligationChars}"
    obligations ++ skipped.take (maxUnresolvedObligations - obligations.length)

structure HandoffFailure where
  kind : String
  diagnostics : List ChangeDiagnosticData
  diagnosticsTotal : ℕ
  diagnosticsOmitted : ℕ
  suggestionPackage : Option ChangeSuggestionPackageData

def HandoffFailure.ofRow (kind : String) (row : ChangeEvidenceData) : HandoffFailure :=
  ⟨kind, row.diagnostics, row.diagnosticsTotal, row.diagnosticsOmitted, row.suggestionPackage⟩

/-- The handoff of a session without a candidate. -/
def HandoffFailure.noCandidate : HandoffFailure := ⟨"no_candidate", [], 0, 0, none⟩

/-- The record and the handoff that `issue_token` makes. -/
def withToken (service : WorkService) (record : WorkRecord) (failure : HandoffFailure)
    (sequence issuedAtMs : ℕ) : WorkRecord × WorkHandoffData :=
  let patchHash := record.patchHash.getD ""
  let expiresAtMs := saturatingAdd issuedAtMs service.work.continuationTtlMs
  let token := generateToken service.sha record.id record.revision patchHash sequence issuedAtMs
  ({ record with
      token := some
        { tokenHash := service.sha token.toUTF8
          changeId := record.changeId.getD ""
          revision := record.revision
          patchHash
          expiresAtMs
          used := false } },
    { continuationToken := token
      expiresAtMs
      failureKind := failure.kind
      diagnostics := failure.diagnostics.take maxListedHandoffDiagnostics
      diagnosticsTotal := failure.diagnosticsTotal
      diagnosticsOmitted := failure.diagnosticsOmitted
      suggestionPackage := failure.suggestionPackage
      unresolvedObligations := unresolvedObligations record failure.suggestionPackage })

def issueToken (service : WorkService) (record : WorkRecord) (failure : HandoffFailure) :
    WorkTask (WorkRecord × WorkHandoffData) := do
  let issuedAtMs ← clock
  let sequence ← fetchSequence
  let patchHash := record.patchHash.getD ""
  Task.look (.digest (tokenText record.id record.revision patchHash sequence issuedAtMs).toUTF8)
    fun _ _ => ()
  Task.look (.digest (generateToken service.sha record.id record.revision patchHash sequence
    issuedAtMs).toUTF8) fun _ _ => ()
  return withToken service record failure sequence issuedAtMs

/-- The common end of `handoff_from_current` and `handoff_after_failure`. -/
def handOff (service : WorkService) (record : WorkRecord) (failure : HandoffFailure)
    (reason : String) : WorkTask WorkRecord := do
  match ← stopBeforeHandoff record with
  | some stop => return record.block stop
  | none =>
    let counted := { record with handoffs := saturatingAdd record.handoffs 1 }
    let (issued, handoff) ← issueToken service counted failure
    return { issued with state := .needsModel, reason, handoff := some handoff }

def handoffFromCurrent (service : WorkService) (record : WorkRecord) (current : Option ChangeData) :
    WorkTask WorkRecord :=
  let failure := current.bind fun data => data.evidence.reverse.find? fun row =>
    row.revision == data.revision && row.fresh && row.status == "FAIL"
  let adopted := match current with
    | none => record
    | some data =>
      { record with
        revision := data.revision
        patchHash := data.patchHash
        baseIdentity := data.baseIdentity.orElse fun _ => record.baseIdentity }
  match failure with
  | some row => handOff service adopted (.ofRow "compile" row)
      "the current revision has a fresh compile failure; a bounded repair handoff was issued"
  | none => handOff service adopted .noCandidate
      "the intent declares a contract but no host candidate was provided; a bounded candidate handoff was issued"

def handoffAfterFailure (service : WorkService) (record : WorkRecord) (gate : WorkGate)
    (row : ChangeEvidenceData) : WorkTask WorkRecord :=
  let fingerprint := failureFingerprint service.sha row.diagnostics row.diagnosticsTotal
  if fingerprint.isSome ∧ record.lastFailureFingerprint = fingerprint then
    return record.block "no progress: the new candidate failed with the same diagnostics as the previous handoff"
  else
    let remembered :=
      { record with
        lastFailureFingerprint := fingerprint.orElse fun _ => record.lastFailureFingerprint }
    handOff service remembered (.ofRow (if gate = .test then "test" else "compile") row)
      s!"gate {gate.asStr} failed on revision {record.revision}; a bounded decision package was issued"

/-! ## `drive` -/

def selectRow (data : ChangeData) (gate : WorkGate) : Option ChangeEvidenceData :=
  data.evidence.reverse.find? fun row =>
    row.revision == data.revision && row.fresh && (gate == .all || row.target == gate.asStr)

/-- `evidence_row`. -/
def workEvidenceRow (gate : WorkGate) (row : ChangeEvidenceData) : WorkEvidenceData where
  revision := row.revision
  gate := gate.asStr
  status :=
    if row.status = "FAST_PASS" ∨ row.status = "FULL_PASS" ∨ row.status = "PASS" then "PASS"
    else row.status
  fresh := row.fresh
  exitCode := row.exitCode
  totalMs := row.totalMs
  diagnosticsTotal := row.diagnosticsTotal

/-- The record after the answer of one gate, before its status is looked at. -/
def withGateAnswer (record : WorkRecord) (gate : WorkGate) (outcome : ChangeOutcome) : WorkRecord :=
  let warned := record.extendWarnings outcome.data.cleanupWarnings
  match selectRow outcome.data gate with
  | none => warned
  | some row => warned.pushEvidence (workEvidenceRow gate row)

/-- The record of a session whose gates all passed. -/
def WorkRecord.succeed (record : WorkRecord) : WorkRecord :=
  { record with
    state := .ready
    reason := s!"all {record.intent.acceptanceGates.length} requested acceptance gate(s) passed on revision {record.revision}; this is requested-gate evidence on the current revision, not behavior proof" }

/-- The loop of `drive` over the gates that are still to run. -/
def runGates (service : WorkService) (changeId : String) : List WorkGate → WorkRecord → WorkTask WorkRecord
  | [], record => return record.succeed
  | gate :: gates, record => do
    if ← isCancelled then
      return record.cancel "work was cancelled during gate validation"
    match ← stopBeforeCompile record with
    | some stop => return record.block stop
    | none =>
      let counted := { record with compiles := saturatingAdd record.compiles 1 }
      let outcome ← executeChange
        (validateRequest changeId counted.revision (counted.baseIdentity.getD "") gate)
      let answered := withGateAnswer counted gate outcome
      if outcome.status = "PASS" then
        runGates service changeId gates answered
      else if outcome.status = "FAIL" then
        match selectRow outcome.data gate with
        | none => return answered.fail s!"gate {gate.asStr} failed without a fresh evidence row"
        | some row => handoffAfterFailure service answered gate row
      else if outcome.status = "CANCELLED" then
        return answered.cancel "work was cancelled during gate validation"
      else if outcome.status = "TIMEOUT" then
        return answered.block s!"gate {gate.asStr} timed out before producing usable evidence"
      else
        return answered.fail s!"gate {gate.asStr} returned {outcome.status}: {outcome.data.reason}"

/-- The record after an accepted stage call. -/
def withStaged (record : WorkRecord) (fingerprint : String) (data : ChangeData) : WorkRecord :=
  { record with
    triedFingerprints := record.triedFingerprints ++ [fingerprint]
    candidates := saturatingAdd record.candidates 1
    revision := data.revision
    patchHash := data.patchHash
    baseIdentity := data.baseIdentity.orElse fun _ => record.baseIdentity }

/-- `drive` after its checks: stage the candidate and run the gates. -/
def stageAndValidate (service : WorkService) (record : WorkRecord) (changeId fingerprint : String)
    (patches : List PatchInput) (newFiles : List NewFileInput) : WorkTask WorkRecord := do
  setState record.id .staging
  let outcome ← executeChange (stageRequest changeId record.revision
    (record.baseIdentity.getD "") patches newFiles)
  let warned := { record with state := .staging }.extendWarnings outcome.data.cleanupWarnings
  if outcome.status = "STAGED" then
    let staged := { withStaged warned fingerprint outcome.data with state := .validating }
    setState staged.id .validating
    runGates service changeId (uniqueGates staged.intent) staged
  else if outcome.status = "CANCELLED" then
    return warned.cancel "work was cancelled during candidate staging"
  else
    return warned.fail
      s!"candidate staging failed with status {outcome.status}: {outcome.data.reason}"

def drive (service : WorkService) (record : WorkRecord) (current : Option ChangeData)
    (patches : List PatchInput) (newFiles : List NewFileInput) : WorkTask WorkRecord := do
  if patches = [] ∧ newFiles = [] then
    handoffFromCurrent service record current
  else
    match candidateScopeError record.intent patches newFiles with
    | some reason => return record.block reason
    | none =>
      match ← stopBeforeCandidate record with
      | some stop => return record.block stop
      | none =>
        let fingerprint := candidateFingerprint service.sha patches newFiles
        if fingerprint ∈ record.triedFingerprints then
          return record.block "no progress: the host candidate is byte-identical to an earlier candidate"
        else
          match record.changeId with
          | none => return record.fail "the work has no bound change to stage into"
          | some changeId =>
            stageAndValidate service record changeId fingerprint patches newFiles

end AgzRustMcp
