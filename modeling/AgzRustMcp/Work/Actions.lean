import AgzRustMcp.Work.Drive

/-!
# The actions of the work tool

`start`, `resume`, `inspect` and `cancel` of `work/service.rs`, and `executeWork`, which chooses
between them.  A call is a request with the workspace it is authorized for; the task of call `i`
takes stripes under the number `i`.
-/

namespace AgzRustMcp

open Tasks

/-! ## `start` -/

/-- The tools that `check_constraints` asks for. -/
def WorkService.enabled (service : WorkService) : WorkTool → Bool
  | .change => service.change && service.tools.change
  | .check => true
  | .docs => service.tools.docs
  | .lsp => service.tools.lsp
  | .audit => service.tools.audit
  | .crateLookup => service.tools.crateLookup

def checkConstraints (service : WorkService) (constraints : WorkConstraints) : Except String Unit :=
  if constraints.requiredTools.length > maxRequiredTools then
    .error s!"requiredTools accepts at most {maxRequiredTools} entries"
  else
    constraints.requiredTools.forM fun tool =>
      if !service.enabled tool then
        .error s!"required tool '{tool.asStr}' is not enabled; work failed closed"
      else if constraints.offline && (tool == .docs || tool == .crateLookup) then
        .error s!"offline constraint conflicts with required network tool '{tool.asStr}'"
      else .ok ()

/-- The record with which a session starts. -/
def WorkRecord.initial (id : String) (now : ℕ) (workspace : Workspace) (intent : WorkIntent)
    (budget : WorkBudget) : WorkRecord where
  id := id
  createdAtMs := now
  updatedAtMs := now
  workspaceRoot := workspace.root
  workspaceEpoch := workspace.epoch
  state := .planned
  intent := intent
  budget := budget
  changeId := none
  baseIdentity := none
  revision := 0
  patchHash := none
  candidates := 0
  compiles := 0
  handoffs := 0
  triedFingerprints := []
  lastFailureFingerprint := none
  token := none
  handoff := none
  evidence := []
  reason := ""
  warnings := []

/-- The record after the inspection of an adopted change, when it can be extended. -/
def adoptChange (record : WorkRecord) (changeId : String) (inspected : ChangeOutcome) :
    WorkRecord × Option ChangeData :=
  if inspected.status = "INSPECTED" then
    if inspected.data.state = "ready" then
      ({ record with
          changeId := some changeId
          revision := inspected.data.revision
          baseIdentity := inspected.data.baseIdentity
          patchHash := inspected.data.patchHash }, some inspected.data)
    else
      (record.fail s!"the provided changeId is in state {inspected.data.state} and cannot be extended", none)
  else
    (record.fail s!"the provided changeId could not be adopted: {inspected.status} ({inspected.data.reason})", none)

/-- The record after the answer to the creation of a change. -/
def bindCreated (record : WorkRecord) (created : ChangeOutcome) : WorkRecord :=
  let warned := record.extendWarnings created.data.cleanupWarnings
  if created.status = "CREATED" then
    { warned with
      changeId := created.data.changeId
      baseIdentity := created.data.baseIdentity
      patchHash := created.data.patchHash }
  else if created.status = "RESOURCE_BLOCKED" then warned.block created.data.reason
  else if created.status = "CANCELLED" then
    warned.cancel "work was cancelled during change capture"
  else warned.fail s!"change capture failed with status {created.status}: {created.data.reason}"

/-- The change of a new session: an adopted one, or a new one. -/
def collectChange (record : WorkRecord) (changeId : Option String) : WorkTask (WorkRecord × Option ChangeData) := do
  let collecting := { record with state := .collecting }
  setState record.id .collecting
  match changeId with
  | some changeId =>
    let inspected ← executeChange (inspectRequest changeId)
    return adoptChange collecting changeId inspected
  | none =>
    let created ← executeChange createRequest
    return (bindCreated collecting created, none)

/-- The call of `drive` in `start`, unless the session has already ended. -/
def driveBound (service : WorkService) (request : WorkRequest) (bound : WorkRecord)
    (current : Option ChangeData) : WorkTask WorkRecord :=
  if bound.state = .failed ∨ bound.state = .blocked ∨ bound.state = .cancelled then pure bound
  else drive service bound current request.patches request.newFiles

/-- `start` after its checks. -/
def startSession (service : WorkService) (request : WorkRequest) (workspace : Workspace)
    (intent : WorkIntent) : WorkTask WorkOutcome := do
  let sequence ← fetchSequence
  let now ← clock
  let record :=
    WorkRecord.initial (nextWorkId service.processId now sequence) now workspace intent
      request.budget
  insertWork record
  let (bound, current) ← collectChange record request.changeId
  let driven ← driveBound service request bound current
  let final ← finalizeWork record driven
  outcomeForRecord final .start

def start (service : WorkService) (request : WorkRequest) (workspace : Workspace) : WorkTask WorkOutcome := do
  if !service.change then
    return workRefuse .start "BLOCKED" "The work executor cannot start."
      "required tool 'change' is not enabled; no plan node is executed and the workspace is untouched"
      none
  else if request.workId.isSome || request.continuationToken.isSome then
    return workRefuse .start "INVALID"
      "action=start does not accept workId or continuationToken."
      "workId and continuationToken apply only to resume/inspect/cancel" none
  else
    match request.intent with
    | none =>
      return workRefuse .start "INVALID" "action=start requires intent."
        "intent is required for action=start" none
    | some intent =>
      match validateIntent intent, candidateScopeError intent request.patches request.newFiles,
          checkConstraints service request.constraints with
      | .error reason, _, _ =>
        return workRefuse .start "INVALID" "The work intent is invalid." reason none
      | .ok (), some reason, _ =>
        return workRefuse .start "BLOCKED"
          "The host candidate is outside the declared intent scope." reason none
      | .ok (), none, .error reason =>
        return workRefuse .start "BLOCKED" "The work constraints cannot be satisfied." reason none
      | .ok (), none, .ok () =>
        if (← activeCount) ≥ service.work.maxActive then
          return workRefuse .start "RESOURCE_BLOCKED" "The active work limit was reached."
            s!"at most {service.work.maxActive} active work items are allowed; wait for a handoff or cancel one"
            none
        else if ← isCancelled then
          return workRefuse .start "CANCELLED"
            "The work start was cancelled before any change was created."
            "request cancellation arrived before the plan started" none
        else startSession service request workspace intent

/-! ## `resume` -/

/-- The bound change is still the one that the handoff was issued for. -/
def bindingCurrent (record : WorkRecord) (stored : HandoffToken) (inspected : ChangeOutcome) : Bool :=
  inspected.status == "INSPECTED" && inspected.data.revision == stored.revision &&
    inspected.data.patchHash == some stored.patchHash && record.changeId == some stored.changeId

/-- The caller sent an intent or constraints with a resume. -/
def WorkRequest.sendsIntent (request : WorkRequest) : Bool :=
  request.intent.isSome || !request.constraints.requiredTools.isEmpty || request.constraints.offline

/-- The record with the warning that values sent with a resume were ignored. -/
def noteIgnored (request : WorkRequest) (record : WorkRecord) : WorkRecord :=
  if request.sendsIntent then
    record.pushWarning
      "resume uses the recorded intent and constraints; the provided values were ignored"
  else record

/-- `resume` with a bound change that did not move. -/
def resumeBound (service : WorkService) (request : WorkRequest) (read record : WorkRecord)
    (current : ChangeData) : WorkTask WorkOutcome := do
  if request.patches = [] ∧ request.newFiles = [] then
    let blocked := record.block
      "a resume must provide at least one candidate patch or new file; the token was consumed"
    commitWork read blocked
    outcomeForRecord blocked .resume
  else
    match ← stopBeforeCandidate record with
    | some stop =>
      commitWork read (record.block stop)
      outcomeForRecord (record.block stop) .resume
    | none =>
      let driven ← drive service record (some current) request.patches request.newFiles
      let final ← finalizeWork read driven
      outcomeForRecord final .resume

/-- `resume` after its token was consumed; `read` is the record as it was loaded. -/
def resumeConsumed (service : WorkService) (request : WorkRequest) (read : WorkRecord)
    (stored : HandoffToken) : WorkTask WorkOutcome := do
  let consumed := read.consumeToken
  let inspected ← executeChange (inspectRequest stored.changeId)
  if !bindingCurrent consumed stored inspected then
    finishError read consumed .resume "STALE" "The bound change moved since the handoff was issued."
      "the continuation token is revision-bound; the change revision no longer matches"
  else resumeBound service request read (noteIgnored request consumed) inspected.data

/-- `resume` while it holds the stripe of the work id. -/
def resumeLocked (service : WorkService) (request : WorkRequest) (workspace : Workspace)
    (workId token : String) : WorkTask WorkOutcome := do
  match ← loadWork workId with
  | none =>
    return workRefuse .resume "NOT_FOUND" "The work id is unknown."
      "no in-memory work record exists (records are not persisted across restarts)" (some workId)
  | some record =>
    if record.foreignTo workspace then
      finishError record record .resume "STALE"
        "The work belongs to a different workspace or authorization epoch."
        "workspace identity or root epoch changed; the work was not resumed"
    else if record.state ≠ .needsModel then
      finishError record record .resume "STALE" "The work has no active handoff."
        "the continuation token was already consumed or superseded"
    else
      match record.token with
      | none =>
        finishError record record .resume "STALE" "The work has no active continuation token."
          "no handoff token is recorded for this work"
      | some stored =>
        if stored.used then
          rejectWork record .resume "STALE" "The continuation token was already used."
            "continuation tokens are single-use; run action=inspect for the current state"
        else do
          Task.look (.digest token.toUTF8) fun _ _ => ()
          if service.sha token.toUTF8 ≠ stored.tokenHash then
            rejectWork record .resume "STALE" "The continuation token is not valid for this work."
              "the continuation token does not match the recorded handoff"
          else if (← clock) > stored.expiresAtMs then
            let expired := record.consumeToken.block
              "the continuation token expired before a candidate was provided"
            commitWork record expired
            outcomeForRecord expired .resume
          else resumeConsumed service request record stored

def resume (service : WorkService) (self : ℕ) (request : WorkRequest) (workspace : Workspace) :
    WorkTask WorkOutcome := do
  if !service.change then
    return workRefuse .resume "BLOCKED" "The work executor cannot resume."
      "required tool 'change' is not enabled; the continuation token was not consumed"
      request.workId
  else
    match request.workId, request.continuationToken with
    | none, _ =>
      return workRefuse .resume "INVALID" "action=resume requires workId."
        "workId is required for action=resume" none
    | some workId, continuationToken =>
      if !isValidWorkId workId then
        return workRefuse .resume "INVALID" "The work id is not valid."
          "workId is not a valid server-issued id" (some workId)
      else
        match continuationToken with
        | none =>
          return workRefuse .resume "INVALID" "action=resume requires continuationToken."
            "continuationToken is required for action=resume" (some workId)
        | some token =>
          lockStripe self (stripeOf workId)
          let outcome ← resumeLocked service request workspace workId token
          unlockStripe (stripeOf workId)
          return outcome

/-! ## `inspect` and `cancel` -/

/-- The record that `inspect` finds by the id of its change. -/
def findByChange (changeId : String) : WorkTask (Option WorkRecord) :=
  Task.look .load fun _ store =>
    (maxByKey (fun entry : String × WorkRecord => entry.2.updatedAtMs)
      (store.records.toList.filter fun entry => entry.2.changeId == some changeId)).map Prod.snd

/-- `inspect` once it has looked for the record. -/
def inspectFound (record : WorkRecord) (workspace : Workspace) : WorkTask WorkOutcome := do
  if record.foreignTo workspace then
    finishError record record .inspect "STALE"
      "The work belongs to a different workspace or authorization epoch."
      "workspace identity or root epoch changed; the record was not returned"
  else
    return ⟨"INSPECTED", "Returned the bounded work record.", false, ← dataOf .inspect record⟩

/-- `inspect`. -/
def inspectWork (request : WorkRequest) (workspace : Workspace) : WorkTask WorkOutcome := do
  match request.workId.filter (· ≠ ""), request.changeId.filter (· ≠ "") with
  | some id, _ =>
    match ← loadWork id with
    | some record => inspectFound record workspace
    | none =>
      return workRefuse .inspect "NOT_FOUND" "The work id is unknown."
        "no in-memory work record exists" (some id)
  | none, some changeId =>
    match ← findByChange changeId with
    | some record => inspectFound record workspace
    | none =>
      return workRefuse .inspect "NOT_FOUND" "No work is bound to the change id."
        "no in-memory work record references this changeId" none
  | none, none =>
    return workRefuse .inspect "INVALID" "action=inspect requires workId or changeId."
      "workId or changeId is required" none

/-- The outcome of an accepted `cancel`. -/
def cancelOutcome (record : WorkRecord) : WorkTask WorkOutcome := do
  return ⟨"CANCELLED", "The work was cancelled.", false, ← dataOf .cancel record⟩

/-- `cancel` once it has a copy of the record. -/
def cancelFound (record : WorkRecord) (workspace : Workspace) : WorkTask WorkOutcome := do
  if record.foreignTo workspace then
    finishError record record .cancel "STALE"
      "The work belongs to a different workspace or authorization epoch."
      "workspace identity or root epoch changed; cancel was refused"
  else if record.state.isTerminal then
    let final :=
      if record.reason = "" then
        { record with reason := "the work was already terminal; cancel is idempotent" }
      else record
    commitWork record final
    cancelOutcome final
  else do
    Task.modify (.cancelToken record.id) fun _ store =>
      { store with cancelledTokens := record.id :: store.cancelledTokens }
    let final := record.cancel
      "work cancelled by the host; the bound change validation was cancelled and its scratch is left for TTL cleanup"
    commitWork record final
    cancelOutcome final

/-- `cancel`. -/
def cancelWork (request : WorkRequest) (workspace : Workspace) : WorkTask WorkOutcome := do
  match request.workId with
  | none =>
    return workRefuse .cancel "INVALID" "action=cancel requires workId."
      "workId is required for action=cancel" none
  | some workId =>
    match ← loadWork workId with
    | none =>
      return workRefuse .cancel "NOT_FOUND" "The work id is unknown."
        "no in-memory work record exists" (some workId)
    | some record => cancelFound record workspace

structure WorkCall where
  request : WorkRequest
  workspace : Workspace
  deriving DecidableEq

/-- `execute`, as call number `self`. -/
def executeWork (service : WorkService) (self : ℕ) (call : WorkCall) : WorkTask WorkOutcome :=
  match call.request.action with
  | .start => start service call.request call.workspace
  | .resume => resume service self call.request call.workspace
  | .inspect => inspectWork call.request call.workspace
  | .cancel => cancelWork call.request call.workspace

def workPool (service : WorkService) (calls : List WorkCall) : Pool WorkStore WorkInput WorkLabel WorkOutcome :=
  .start .empty (calls.mapIdx (executeWork service))

end AgzRustMcp
