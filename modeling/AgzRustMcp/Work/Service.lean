import AgzRustMcp.Foundation.Tasks
import AgzRustMcp.Work.Intent

/-!
# The work executor

The actions of `work/service.rs` as tasks over the map of records, the sequence counter, the
cancellation tokens and the stripe locks.  Every access to one of them and every read of the clock
is a step of its own, and a call of the change service is two, the request and the answer, which is
an input.

`resume` holds the stripe of its work id to the end; `start`, `inspect` and `cancel` hold none.
-/

namespace AgzRustMcp

open Tasks
open Std (ExtTreeMap)

/-- The part of a `ChangeRequest` that the work executor fills in. -/
structure ChangeRequest where
  action : ChangeAction
  changeId : Option String
  expectedRevision : Option ℕ
  baseIdentity : Option String
  patches : List PatchInput
  newFiles : List NewFileInput
  target : String
  deriving DecidableEq

def createRequest : ChangeRequest := ⟨.create, none, none, none, [], [], "check"⟩

def inspectRequest (changeId : String) : ChangeRequest :=
  { createRequest with action := .inspect, changeId := some changeId }

def stageRequest (changeId : String) (revision : ℕ) (baseIdentity : String)
    (patches : List PatchInput) (newFiles : List NewFileInput) : ChangeRequest :=
  { createRequest with
    action := .stage
    changeId := some changeId
    expectedRevision := some revision
    baseIdentity := some baseIdentity
    patches
    newFiles }

def validateRequest (changeId : String) (revision : ℕ) (baseIdentity : String) (gate : WorkGate) : ChangeRequest :=
  { createRequest with
    action := .validate
    changeId := some changeId
    expectedRevision := some revision
    baseIdentity := some baseIdentity
    target := gate.asStr }

/-! ## The shared state -/

/-- The configuration of a `WorkService`; `sha`: the digest. -/
structure WorkService where
  sha : ByteArray → String
  work : WorkConfig
  tools : ToolConfig
  change : Bool
  processId : ℕ

/-- What the calls of one service share. -/
structure WorkStore where
  records : ExtTreeMap String WorkRecord
  sequence : ℕ
  cancelledTokens : List String
  stripes : ℕ → Option ℕ

/-- The store of a new service. -/
def WorkStore.empty : WorkStore := ⟨∅, 0, [], fun _ => none⟩

/-- What a step receives: the clock, the token, and the answer. -/
structure WorkInput where
  now : ℕ
  cancelled : Bool
  outcome : ChangeOutcome

/-- What a step of a call is about. -/
inductive WorkLabel where
  /-- The clock is read. -/
  | clock
  /-- A cancellation token is polled. -/
  | poll
  /-- The sequence counter is read and increased. -/
  | fetchSequence
  /-- A digest of these bytes is computed. -/
  | digest (bytes : ByteArray)
  /-- The records are read. -/
  | load
  /-- A new record is inserted. -/
  | insert (record : WorkRecord)
  /-- `set_state` publishes a state. -/
  | setState (id : String) (state : WorkState)
  /-- `commit` writes `record` back; `read` is the copy from the store. -/
  | commit (read record : WorkRecord)
  /-- The cancellation token of a session is cancelled. -/
  | cancelToken (id : String)
  /-- A stripe is locked. -/
  | lock (stripe : ℕ)
  /-- A stripe is released. -/
  | unlock (stripe : ℕ)
  /-- The change service receives a request. -/
  | call (request : ChangeRequest)
  /-- The change service answers a request. -/
  | answer (request : ChangeRequest)
  deriving DecidableEq

/-- A call of the work executor. -/
abbrev WorkTask := Task WorkStore WorkInput WorkLabel

/-- `now_ms`. -/
def clock : WorkTask ℕ := Task.look .clock fun input _ => input.now

/-- `CancellationToken::is_cancelled` of a request token or of a bridged one. -/
def isCancelled : WorkTask Bool := Task.look .poll fun input _ => input.cancelled

/-- `CancellationToken::is_cancelled` of the token of a session. -/
def workTokenCancelled (id : String) : WorkTask Bool :=
  Task.look .poll fun _ store => id ∈ store.cancelledTokens

/-- `sequence.fetch_add(1, ..)`. -/
def fetchSequence : WorkTask ℕ :=
  .step .fetchSequence (fun _ => true) (fun _ store => { store with sequence := store.sequence + 1 })
    fun _ store => .done store.sequence

/-- `ChangeService::execute`. -/
def executeChange (request : ChangeRequest) : WorkTask ChangeOutcome := do
  Task.look (.call request) fun _ _ => ()
  Task.look (.answer request) fun input _ => input.outcome

/-- `stripe`: the index of the lock of a work id, a 64-bit FNV hash. -/
def stripeOf (id : String) : ℕ :=
  (id.toUTF8.toList.foldl
    (fun hash byte => (hash ^^^ byte.toNat) * 0x100000001b3 % 2 ^ 64) 0xcbf29ce484222325) %
    workLockStripes

/-- Waits for a stripe and takes it. -/
def lockStripe (self stripe : ℕ) : WorkTask Unit :=
  .step (.lock stripe) (fun store => (store.stripes stripe).isNone)
    (fun _ store => { store with stripes := Function.update store.stripes stripe (some self) })
    fun _ _ => .done ()

def unlockStripe (stripe : ℕ) : WorkTask Unit :=
  Task.modify (.unlock stripe) fun _ store =>
    { store with stripes := Function.update store.stripes stripe none }

/-! ## The records -/

/-- `load_record`. -/
def loadWork (id : String) : WorkTask (Option WorkRecord) :=
  Task.look .load fun _ store => store.records[id]?

def activeCount : WorkTask ℕ :=
  Task.look .load fun _ store =>
    (store.records.toList.filter fun entry => !entry.2.state.isTerminal).length

/-- `min_by_key`: the first entry with the least key. -/
def minByKey {α : Type} (key : α → ℕ) : List α → Option α
  | [] => none
  | a :: rest =>
    match minByKey key rest with
    | none => some a
    | some b => if key a ≤ key b then some a else some b

/-- `max_by_key`: the last entry with the greatest key. -/
def maxByKey {α : Type} (key : α → ℕ) : List α → Option α
  | [] => none
  | a :: rest =>
    match maxByKey key rest with
    | none => some a
    | some b => if key b < key a then some a else some b

/-- The records after a full map gave up its oldest finished one. -/
def evict (records : ExtTreeMap String WorkRecord) : ExtTreeMap String WorkRecord :=
  if records.size ≥ maxWorkRecords then
    match minByKey (fun entry : String × WorkRecord => entry.2.updatedAtMs)
        (records.toList.filter fun entry => entry.2.state.isTerminal) with
    | some victim => records.erase victim.1
    | none => records
  else records

/-- `insert`. -/
def insertWork (record : WorkRecord) : WorkTask Unit :=
  Task.modify (.insert record) fun _ store =>
    { store with records := (evict store.records).insert record.id record }

/-- What `set_state` does to the store. -/
def WorkStore.setState (store : WorkStore) (id : String) (state : WorkState) (now : ℕ) : WorkStore :=
  match store.records[id]? with
  | none => store
  | some current =>
    if current.state = .cancelled then store
    else { store with records := store.records.insert id { current with state, updatedAtMs := now } }

def setState (id : String) (state : WorkState) : WorkTask Unit :=
  Task.modify (.setState id state) fun input store => store.setState id state input.now

/-- What `commit` does to the store. -/
def WorkStore.commit (store : WorkStore) (record : WorkRecord) (now : ℕ) : WorkStore :=
  match store.records[record.id]? with
  | none => store
  | some current =>
    if current.state = .cancelled then store
    else { store with records := store.records.insert record.id { record with updatedAtMs := now } }

/-- `commit`. -/
def commitWork (read record : WorkRecord) : WorkTask Unit :=
  Task.modify (.commit read record) fun input store => store.commit record input.now

/-! ## Results -/

/-- `data_for_record`. -/
def dataOf (action : WorkAction) (record : WorkRecord) : WorkTask WorkData := do
  return workDataForRecord action.asStr record (← clock)

def outcomeForRecord (record : WorkRecord) (action : WorkAction) : WorkTask WorkOutcome := do
  let data ← dataOf action record
  return match record.state with
    | .needsModel => ⟨"NEEDS_MODEL",
        "A bounded host decision package was issued for the current revision.", false, data⟩
    | .ready => ⟨"READY",
        "All requested acceptance gates passed for the current revision; this is requested-gate evidence, not behavior proof.",
        false, data⟩
    | .blocked => ⟨"BLOCKED", "The work stopped under its explicit policy or budget.", true, data⟩
    | .cancelled => ⟨"CANCELLED", "The work was cancelled; no further plan nodes were executed.", true, data⟩
    | _ => ⟨"FAILED", "The work could not produce usable evidence.", true, data⟩

/-- The record that `finish_error` writes back. -/
def WorkRecord.finished (record : WorkRecord) (status reason : String) : WorkRecord :=
  { record with
    state :=
      if record.state.isTerminal then record.state
      else if status = "BLOCKED" then .blocked else .failed
    reason }

def finishError (read record : WorkRecord) (action : WorkAction) (status summary reason : String) :
    WorkTask WorkOutcome := do
  commitWork read (record.finished status reason)
  return ⟨status, summary, true, ← dataOf action (record.finished status reason)⟩

/-- `reject`. -/
def rejectWork (record : WorkRecord) (action : WorkAction) (status summary reason : String) :
    WorkTask WorkOutcome := do
  return ⟨status, summary, true, { ← dataOf action record with reason }⟩

/-- `finalize`. -/
def finalizeWork (read record : WorkRecord) : WorkTask WorkRecord := do
  let cancelled ← workTokenCancelled record.id
  let final :=
    if cancelled ∧ record.state ≠ .cancelled then
      record.cancel "work was cancelled; no further plan nodes were executed"
    else record
  commitWork read final
  return final

def stopBeforeCandidate (record : WorkRecord) : WorkTask (Option String) := do
  let now ← clock
  return if now ≥ record.deadlineMs then
    some s!"wall time budget exhausted (wallTimeMs={record.budget.wallTimeMs}) before a candidate could be staged"
  else if record.candidates ≥ record.budget.maxCandidates then
    some s!"candidate budget exhausted (maxCandidates={record.budget.maxCandidates}); stop condition: {truncate record.intent.stopCondition maxObligationChars}"
  else if record.compiles ≥ record.budget.maxCompiles then
    some s!"compile budget exhausted (maxCompiles={record.budget.maxCompiles}); stop condition: {truncate record.intent.stopCondition maxObligationChars}"
  else none

def stopBeforeCompile (record : WorkRecord) : WorkTask (Option String) := do
  let now ← clock
  return if now ≥ record.deadlineMs then
    some s!"wall time budget exhausted (wallTimeMs={record.budget.wallTimeMs}) before gate validation"
  else if record.compiles ≥ record.budget.maxCompiles then
    some s!"compile budget exhausted (maxCompiles={record.budget.maxCompiles}); stop condition: {truncate record.intent.stopCondition maxObligationChars}"
  else none

def stopBeforeHandoff (record : WorkRecord) : WorkTask (Option String) := do
  let now ← clock
  return if record.handoffs ≥ record.budget.maxHandoffs then
    some s!"handoff budget exhausted (maxHandoffs={record.budget.maxHandoffs}); stop condition: {truncate record.intent.stopCondition maxObligationChars}"
  else if record.candidates ≥ record.budget.maxCandidates then
    some s!"candidate budget exhausted (maxCandidates={record.budget.maxCandidates}); no host candidate can be staged"
  else if record.compiles ≥ record.budget.maxCompiles then
    some s!"compile budget exhausted (maxCompiles={record.budget.maxCompiles}); no gate could be run for a new candidate"
  else if now ≥ record.deadlineMs then
    some s!"wall time budget exhausted (wallTimeMs={record.budget.wallTimeMs}); no further handoff was issued"
  else none

end AgzRustMcp
