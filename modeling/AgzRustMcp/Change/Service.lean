import AgzRustMcp.Change.Evidence
import AgzRustMcp.Change.Verify

/-!
# Inspect, validate, export, discard and recovery

The remaining actions of `change/service.rs` on the directory of one change, and the recovery of
`change/store.rs`.  The environment of an action says which of its reads, saves and removals fail.
The warnings of the service itself are left out.
-/

namespace AgzRustMcp

open Std (ExtTreeMap)

/-! ## Shared parts -/

/-- `ChangeStore::save`, which leaves the stored record alone when it fails. -/
def ChangeDir.save (dir : ChangeDir) (fault : Option String) (now : ℕ) (record : ChangeRecord) : ChangeDir :=
  if fault.isSome then dir else { dir with record := some (record.savedAt now) }

/-- `load` before an action; the record may be missing or unreadable. -/
def loadRecord (action : ChangeAction) (id : String) (fault : Option String)
    (stored : Option ChangeRecord) : Except ChangeOutcome ChangeRecord :=
  match fault, stored with
  | some reason, _ =>
    .error (errorOutcome action "INVALID" "The change record could not be read." reason (some id))
  | none, none =>
    .error (errorOutcome action "NOT_FOUND" "The change id has no server-owned scratch."
      "no change record exists" (some id))
  | none, some record => .ok record

/-- The record is still the one that was read before the lock. -/
def ChangeRecord.Pinned (record pinned : ChangeRecord) : Prop :=
  record.revision = pinned.revision ∧ record.state = pinned.state ∧
    record.baseIdentity = pinned.baseIdentity ∧ record.workspaceEpoch = pinned.workspaceEpoch ∧
    record.applyingRevision = pinned.applyingRevision

instance (record pinned : ChangeRecord) : Decidable (record.Pinned pinned) :=
  inferInstanceAs (Decidable (_ ∧ _))

/-- The status of a record that moved before it was locked. -/
def movedStatus : RecordState → String
  | .failedInconsistent => "FAILED_INCONSISTENT"
  | .discarded => "DISCARDED"
  | .applying => "FAILED_INCONSISTENT"
  | .capturing => "FAILED_INCONSISTENT"
  | .ready => "STALE"

def reloadPinnedRecord (action : ChangeAction) (id : String) (fault : Option String)
    (stored : Option ChangeRecord) (pinned : ChangeRecord) : Except ChangeOutcome ChangeRecord := do
  let record ← loadRecord action id fault stored
  if record.Pinned pinned then return record
  else
    .error ⟨movedStatus record.state, "The change changed before verification; no evidence was recorded.", true,
      refusedData action record ("the change moved from " ++ pinned.state.asStr ++ " revision " ++
        toString pinned.revision ++ " to " ++ record.state.asStr ++ " revision " ++
        toString record.revision ++ " before its bytes could be verified")⟩

/-- The texts in which validate and export differ when they refuse a state. -/
structure StateTexts where
  failed : String
  failedReason : String
  unrecorded : String

/-- The match on the state with which validate and export begin. -/
def requireReady (action : ChangeAction) (texts : StateTexts) (record : ChangeRecord) : Except ChangeOutcome Unit :=
  match record.state with
  | .failedInconsistent =>
    .error ⟨"FAILED_INCONSISTENT", texts.failed, true, refusedData action record texts.failedReason⟩
  | .discarded =>
    .error ⟨"DISCARDED", "The change scratch was discarded.", true,
      refusedData action record "the candidate copy was discarded"⟩
  | .ready => .ok ()
  | state =>
    .error ⟨"FAILED_INCONSISTENT", texts.unrecorded, true,
      refusedData action record ("the change is still " ++ state.asStr ++ "; no completed revision was recorded")⟩

/-- The outcome of an action that found the lock taken. -/
def busyOutcome (data : ChangeData) : ChangeOutcome :=
  ⟨"CHANGE_BUSY", "The change scratch is locked by another process.", true, data⟩

/-- The outcome of an action that could not open the lock. -/
def lockFault (action : ChangeAction) (id reason : String) : ChangeOutcome :=
  errorOutcome action "UNAVAILABLE" "The change lock could not be opened." reason (some id)

/-- The reason with which validate and export refuse to work without the lock. -/
def lockReason : String := "another server process holds this change lock"

/-- The record after its candidate was found to differ from it. -/
def failVerification (record : ChangeRecord) (reason : String) : ChangeRecord :=
  { record with
    state := .failedInconsistent
    applyingRevision := none
    evidence := record.evidence.map StoredEvidence.supersede
    cleanupWarnings := pushWarning record.cleanupWarnings (truncate reason 512) }

def inspect (id : String) (loadFault : Option String) (dir : ChangeDir) : ChangeOutcome :=
  match loadRecord .inspect id loadFault dir.record with
  | .error outcome => outcome
  | .ok record =>
    ⟨"INSPECTED", "Returned the bounded change record.", false, dataForRecord .inspect record none⟩

/-! ## Validate -/

/-- The fields of a validate request that decide whether it runs. -/
structure ValidateRequest where
  changeId : String
  expectedRevision : Option ℕ
  baseIdentity : Option String

/-- What a validation meets outside the change directory. -/
structure ValidateEnv where
  loadFault : Option String
  workspaceEpoch : ℕ
  cancelledBefore : Bool
  lock : LockOutcome
  reloadFault : Option String
  candidateIsSymlink : Bool
  saveActivity : Option String
  activityMs : ℕ
  saveFailed : Option String
  failedMs : ℕ
  /-- An external path dependency that is no directory any more. -/
  missingDependency : Option String
  guardFault : Option String
  gate : GateEvidence
  cancelledAfter : Bool
  loadAfterFault : Option String
  epochAfter : ℕ
  recordedAtMs : ℕ
  saveEvidence : Option String
  evidenceMs : ℕ

/-- The checks of `validate` between the first read and the lock. -/
def admitValidate (env : ValidateEnv) (request : ValidateRequest) (record : ChangeRecord) :
    Except ChangeOutcome Unit := do
  requireReady .validate
    ⟨"A failed partial apply cannot be validated.", "the candidate may be partially applied; validation is refused",
      "An unrecorded candidate state cannot be validated."⟩ record
  match request.expectedRevision, request.baseIdentity with
  | none, _ =>
    .error (errorOutcome .validate "INVALID" "action=validate requires expectedRevision."
      "expectedRevision is required" (some request.changeId))
  | some expectedRevision, identity =>
    if expectedRevision ≠ record.revision then
      .error ⟨"STALE", "The requested revision is not current; no fresh evidence was recorded.",
        true, refusedData .validate record ("expectedRevision " ++ toString expectedRevision ++
          " does not match current revision " ++ toString record.revision)⟩
    else
      match identity with
      | none =>
        .error (errorOutcome .validate "INVALID" "action=validate requires baseIdentity."
          "baseIdentity is required" (some request.changeId))
      | some identity =>
        if identity ≠ record.baseIdentity then
          .error ⟨"STALE", "The requested base identity is stale; no fresh evidence was recorded.", true,
            refusedData .validate record "baseIdentity does not match the captured base"⟩
        else if record.workspaceEpoch ≠ env.workspaceEpoch then
          .error ⟨"STALE", "The authorization epoch changed; evidence is not usable.", true,
            refusedData .validate record ("authorization root epoch changed from " ++
              toString record.workspaceEpoch ++ " to " ++ toString env.workspaceEpoch ++
              "; no fresh evidence was recorded")⟩
        else if env.cancelledBefore then
          .error ⟨"CANCELLED", "Validation was cancelled before any Cargo process started.", true,
            refusedData .validate record
              "the validation request was cancelled before it started"⟩
        else .ok ()

/-- The record that gets the evidence: the stored one at the validated revision. -/
def evidenceBase (env : ValidateEnv) (record : ChangeRecord) (stored : Option ChangeRecord) : ChangeRecord :=
  let stale := { record with evidence := record.evidence.map StoredEvidence.supersede }
  match env.loadAfterFault, stored with
  | none, some updated => if updated.revision = record.revision then updated else stale
  | _, _ => stale

/-- The evidence of the gate is fresh for the record. -/
def ValidateEnv.freshFor (env : ValidateEnv) (record updated : ChangeRecord) : Bool :=
  evidenceFreshness env.gate env.cancelledAfter && updated.revision == record.revision &&
    env.epochAfter == record.workspaceEpoch

/-- The record with the rows of a validation, of which the oldest are dropped. -/
def withEvidence (record : ChangeRecord) (rows : List StoredEvidence) : ChangeRecord :=
  let evidence := record.evidence ++ rows
  { record with evidence := evidence.drop (evidence.length - maxRecordedEvidence) }

@[simp] lemma withEvidence_state (record : ChangeRecord) (rows : List StoredEvidence) :
    (withEvidence record rows).state = record.state := by
  simp only [withEvidence]

@[simp] lemma withEvidence_revision (record : ChangeRecord) (rows : List StoredEvidence) :
    (withEvidence record rows).revision = record.revision := by
  simp only [withEvidence]

lemma mem_or_mem_of_mem_withEvidence (record : ChangeRecord) (rows : List StoredEvidence)
    {row : StoredEvidence} (h : row ∈ (withEvidence record rows).evidence) : row ∈ record.evidence ∨ row ∈ rows := by
  simp only [withEvidence] at h
  exact List.mem_append.mp (List.mem_of_mem_drop h)

/-- The status of a validation that ran the gate. -/
def validateStatus (fresh : Bool) (status : GateStatus) : String :=
  match fresh, status with
  | true, .fastPass => "PASS"
  | true, .fullPass => "PASS"
  | true, .fail => "FAIL"
  | true, other => other.asStr
  | false, .cancelled => "CANCELLED"
  | false, .timeout => "TIMEOUT"
  | false, _ => "INCONCLUSIVE"

/-- The reason of a validation that ran the gate. -/
def validateReason (saveError : Option String) (fresh : Bool) (status : String) (message : Option String) : String :=
  let detail := (message.map fun text => String.ofList (trim text.toList)).filter (· ≠ "")
  match saveError, fresh, detail with
  | some error, _, _ => "evidence could not be persisted: " ++ error
  | none, true, some detail =>
    status ++ " with fresh candidate evidence: " ++ truncate detail 256
  | none, true, none => status ++ " with fresh candidate evidence"
  | none, false, some detail =>
    "evidence is not usable for the current revision: " ++ truncate detail 256
  | none, false, none => "evidence is not usable for the current revision"

/-- The end of `validate`, after the gate has run. -/
def recordEvidence (env : ValidateEnv) (record : ChangeRecord) (dir : ChangeDir) : ChangeDir × ChangeOutcome :=
  let base := evidenceBase env record dir.record
  let fresh := env.freshFor record base
  let updated := withEvidence base (evidenceRows record.revision fresh env.recordedAtMs env.gate)
  let status := validateStatus fresh env.gate.status
  (dir.save env.saveEvidence env.evidenceMs updated,
    ⟨status, "Candidate validation finished against the isolated copy.", status ≠ "PASS" && status ≠ "FAIL",
      { dataForRecord .validate updated none with
        reason := validateReason env.saveEvidence fresh status env.gate.message }⟩)

/-- The part of `validate` under the lock. -/
def validateLocked (sha : ByteArray → String) (env : ValidateEnv) (id : String)
    (record : ChangeRecord) (dir : ChangeDir) : ChangeDir × ChangeOutcome :=
  if env.candidateIsSymlink then
    (dir, errorOutcome .validate "FAILED_INCONSISTENT"
      "The candidate copy is a symlink and will not be compiled."
      "candidate copy was replaced by a symlink" (some id))
  else if record.applyingRevision.isSome then
    (dir, ⟨"FAILED_INCONSISTENT", "An interrupted stage cannot be validated.", true,
      refusedData .validate record "an interrupted stage left the candidate state unrecorded"⟩)
  else
    let active := dir.save env.saveActivity env.activityMs record
    match verifyCandidateBytes sha dir.candidate record with
    | .error reason =>
      (active.save env.saveFailed env.failedMs (failVerification record reason), ⟨"FAILED_INCONSISTENT",
          "The candidate bytes do not match the recorded revision; no evidence was recorded.", true,
          refusedData .validate (failVerification record reason) reason⟩)
    | .ok _ =>
      match env.missingDependency, env.guardFault with
      | some path, _ =>
        (active, errorOutcome .validate "UNVERIFIABLE_DEPENDENCY"
          "An authorized external path dependency disappeared."
          ("external path dependency " ++ path ++ " is no longer an existing directory") (some id))
      | none, some error =>
        (active, errorOutcome .validate "UNVERIFIABLE_DEPENDENCY"
          "External path dependencies could not be authorized for the candidate."
          ("candidate root guard failed: " ++ error) (some id))
      | none, none => recordEvidence env record active

def validate (sha : ByteArray → String) (env : ValidateEnv) (request : ValidateRequest)
    (dir : ChangeDir) : ChangeDir × ChangeOutcome :=
  match loadRecord .validate request.changeId env.loadFault dir.record with
  | .error outcome => (dir, outcome)
  | .ok pinned =>
    match admitValidate env request pinned with
    | .error outcome => (dir, outcome)
    | .ok _ =>
      match env.lock with
      | .busy => (dir, busyOutcome (refusedData .validate pinned lockReason))
      | .unavailable reason => (dir, lockFault .validate request.changeId reason)
      | .acquired =>
        match reloadPinnedRecord .validate request.changeId env.reloadFault dir.record pinned with
        | .error outcome => (dir, outcome)
        | .ok record => validateLocked sha env request.changeId record dir

/-- What an export meets outside the change directory. -/
structure ExportEnv where
  loadFault : Option String
  workspaceEpoch : ℕ
  lock : LockOutcome
  reloadFault : Option String
  saveFailed : Option String
  failedMs : ℕ
  toolOutputBytes : ℕ

/-- The part of `export` under the lock. -/
def exportLocked (sha : ByteArray → String) (env : ExportEnv) (record : ChangeRecord)
    (dir : ChangeDir) : ChangeDir × ChangeOutcome :=
  if record.applyingRevision.isSome then
    (dir, ⟨"FAILED_INCONSISTENT", "An interrupted stage cannot be exported.", true,
      refusedData .export record "an interrupted stage left the candidate state unrecorded"⟩)
  else
    match verifyCandidateBytes sha dir.candidate record with
    | .error reason =>
      (dir.save env.saveFailed env.failedMs (failVerification record reason), ⟨"FAILED_INCONSISTENT",
          "The candidate bytes do not match the recorded revision; export is refused.", true,
          refusedData .export (failVerification record reason) reason⟩)
    | .ok _ =>
      (dir, ⟨if record.currentRevisionFreshPass then "EXPORTED" else "EXPORTED_UNVERIFIED",
        "Returned a revision-bound change package without writing the workspace.", false,
        dataForRecord .export record (some (env.toolOutputBytes / 2))⟩)

/-- `export`. -/
def exportChange (sha : ByteArray → String) (env : ExportEnv) (id : String) (dir : ChangeDir) :
    ChangeDir × ChangeOutcome :=
  match loadRecord .export id env.loadFault dir.record with
  | .error outcome => (dir, outcome)
  | .ok pinned =>
    match requireReady .export
        ⟨"A failed partial apply cannot be exported as a verified package.",
          "the candidate may be partially applied; export is refused",
          "An unrecorded candidate state cannot be exported."⟩ pinned with
    | .error outcome => (dir, outcome)
    | .ok _ =>
      if pinned.workspaceEpoch ≠ env.workspaceEpoch then
        (dir, ⟨"STALE", "The authorization epoch changed; the change record is not exportable.",
          true, refusedData .export pinned ("authorization root epoch changed from " ++
            toString pinned.workspaceEpoch ++ " to " ++ toString env.workspaceEpoch ++
            "; the recorded candidate is stale")⟩)
      else
        match env.lock with
        | .busy => (dir, busyOutcome (refusedData .export pinned lockReason))
        | .unavailable reason => (dir, lockFault .export id reason)
        | .acquired =>
          match reloadPinnedRecord .export id env.reloadFault dir.record pinned with
          | .error outcome => (dir, outcome)
          | .ok record => exportLocked sha env record dir

/-- What a discard meets outside the change directory. -/
structure DiscardEnv where
  loadFault : Option String
  lock : LockOutcome
  /-- The warnings of `discard_worktree` and what is left of the copy. -/
  worktreeWarnings : List String
  worktreeLeft : Tree
  saveFault : Option String
  savedMs : ℕ

def discardedRecord (warnings : List String) (record : ChangeRecord) : ChangeRecord :=
  { record with
    state := .discarded
    evidence := record.evidence.map StoredEvidence.supersede
    cleanupWarnings := warnings.foldl pushWarning record.cleanupWarnings }

/-- The part of `discard` under the lock. -/
def discardLocked (env : DiscardEnv) (record : ChangeRecord) (dir : ChangeDir) : ChangeDir × ChangeOutcome :=
  let discarded := discardedRecord env.worktreeWarnings record
  (({ dir with candidate := env.worktreeLeft } : ChangeDir).save env.saveFault env.savedMs discarded,
    ⟨"DISCARDED", "The candidate copy was removed and the record was marked discarded.", false,
      { dataForRecord .discard discarded none with
        discarded := true
        reason := if env.worktreeWarnings.isEmpty then "server-owned scratch removed"
          else "server-owned scratch removal was incomplete; see cleanupWarnings" }⟩)

def discard (env : DiscardEnv) (id : String) (dir : ChangeDir) : ChangeDir × ChangeOutcome :=
  match env.loadFault, dir.record with
  | none, some record =>
    if record.state = .discarded then
      (dir, ⟨"DISCARDED", "The change scratch was already discarded.", false, dataForRecord .discard record none⟩)
    else
      match env.lock with
      | .busy =>
        (dir, busyOutcome { dataForRecord .discard record none with reason := lockReason })
      | .unavailable reason => (dir, lockFault .discard id reason)
      | .acquired => discardLocked env record dir
  | _, _ =>
    (dir, ⟨"DISCARDED", "The change scratch is already absent.", false,
      { ChangeData.absent .discard (some id) "no scratch exists; discard is already complete" with
        discarded := true
        state := "discarded" }⟩)

/-! ## Restart -/

/-- What removing a change directory leaves. -/
inductive Removal where
  | complete
  | stopped (keepsRecord keepsManifest : Bool) (candidate : Tree)

/-- The directory after a removal. -/
def Removal.apply (dir : ChangeDir) : Removal → ChangeDir
  | .complete => .absent
  | .stopped keepsRecord keepsManifest candidate =>
    ⟨if keepsRecord then dir.record else none, if keepsManifest then dir.manifest else none, candidate⟩

/-- What a starting server meets. -/
structure RestartEnv where
  now : ℕ
  staleDirectory : Bool
  sweepLock : LockOutcome
  sweepLoadFault : Option String
  sweepRemoval : Removal
  recoverLock : LockOutcome
  recoverLoadFault : Option String
  saveFault : Option String
  savedMs : ℕ
  recoverRemoval : Removal

/-- The turn of `sweep` for one change directory. -/
def sweep (config : ChangeConfig) (env : RestartEnv) (dir : ChangeDir) : ChangeDir :=
  match env.sweepLock, env.sweepLoadFault with
  | .acquired, none =>
    let expired : Bool := match dir.record with
      | some record => saturatingAdd record.updatedAtMs config.ttlMs ≤ env.now
      | none => env.staleDirectory
    if expired then env.sweepRemoval.apply dir else dir
  | _, _ => dir

/-- The record of an interrupted stage; its rows keep their feedback. -/
def recoveredRecord (record : ChangeRecord) : ChangeRecord :=
  let target := (record.applyingRevision.map toString).getD "unknown"
  { record with
    state := .failedInconsistent
    applyingRevision := none
    evidence := record.evidence.map fun row => { row with fresh := false, authoritative := false }
    cleanupWarnings := pushWarning record.cleanupWarnings
      ("an interrupted stage (target revision " ++ target ++ ") was recovered as failed_inconsistent") }

/-- The turn of `recover_interrupted` for one change directory. -/
def recoverInterrupted (env : RestartEnv) (dir : ChangeDir) : ChangeDir :=
  match env.recoverLock, env.recoverLoadFault, dir.record with
  | .acquired, none, some record =>
    match record.state with
    | .applying => dir.save env.saveFault env.savedMs (recoveredRecord record)
    | .capturing => env.recoverRemoval.apply dir
    | _ => dir
  | _, _, _ => dir

/-- A server starts: it sweeps and then recovers. -/
def restart (config : ChangeConfig) (env : RestartEnv) (dir : ChangeDir) : ChangeDir :=
  recoverInterrupted env (sweep config env dir)

/-! ## What the actions can do -/

section Actions

variable {sha : ByteArray → String} {action : ChangeAction} {id : String} {fault : Option String}
  {stored : Option ChangeRecord} {record pinned : ChangeRecord} {outcome : ChangeOutcome} {dir : ChangeDir}

lemma loadRecord_eq_ok (h : loadRecord action id fault stored = .ok record) : stored = some record := by
  unfold loadRecord at h
  split at h
  · simp at h
  · simp at h
  · rw [Except.ok.inj h]

lemma verified_of_loadRecord (h : loadRecord action id fault stored = .error outcome) :
    outcome.data.verified = false := by
  unfold loadRecord at h
  split at h
  · rw [← Except.error.inj h]
    rfl
  · rw [← Except.error.inj h]
    rfl
  · simp at h

lemma requireReady_eq_ok {texts : StateTexts} (h : requireReady action texts record = .ok ()) :
    record.state = .ready := by
  unfold requireReady at h
  split at h
  · simp at h
  · simp at h
  · assumption
  · simp at h

lemma verified_of_requireReady {texts : StateTexts}
    (h : requireReady action texts record = .error outcome) : outcome.data.verified = false := by
  unfold requireReady at h
  split at h
  · rw [← Except.error.inj h]
    rfl
  · rw [← Except.error.inj h]
    rfl
  · simp at h
  · rw [← Except.error.inj h]
    rfl

lemma reloadPinnedRecord_eq_ok (h : reloadPinnedRecord action id fault stored pinned = .ok record) :
    stored = some record ∧ record.Pinned pinned := by
  unfold reloadPinnedRecord at h
  rw [Checked.bind_eq_ok_iff] at h
  obtain ⟨loaded, hload, h⟩ := h
  split_ifs at h with hpinned
  obtain rfl := Except.ok.inj h
  exact ⟨loadRecord_eq_ok hload, hpinned⟩

lemma verified_of_reloadPinnedRecord (h : reloadPinnedRecord action id fault stored pinned = .error outcome) :
    outcome.data.verified = false := by
  unfold reloadPinnedRecord at h
  cases hload : loadRecord action id fault stored with
  | error refused =>
    rw [hload] at h
    obtain rfl := Except.error.inj h
    exact verified_of_loadRecord hload
  | ok loaded =>
    rw [hload] at h
    simp only [bind, Except.bind] at h
    split_ifs at h
    · cases h
    · rw [← Except.error.inj h]
      rfl

/-- The records that a validation of a ready record can leave in its place. -/
inductive ValidateStores (sha : ByteArray → String) (env : ValidateEnv) (candidate : Tree)
    (record : ChangeRecord) : ChangeRecord → Prop
  | active : ValidateStores sha env candidate record (record.savedAt env.activityMs)
  | failed {reason : String} : verifyCandidateBytes sha candidate record = .error reason →
      ValidateStores sha env candidate record
        ((failVerification record reason).savedAt env.failedMs)
  | evidence {base : ChangeRecord} : verifyCandidateBytes sha candidate record = .ok () →
      base = record ∨ base = record.savedAt env.activityMs ∨
        base = { record with evidence := record.evidence.map StoredEvidence.supersede } →
      ValidateStores sha env candidate record
        ((withEvidence base (evidenceRows record.revision (env.freshFor record base)
          env.recordedAtMs env.gate)).savedAt env.evidenceMs)

/-- A validation keeps the directory, or replaces the record of a ready change. -/
inductive ValidateResult (sha : ByteArray → String) (env : ValidateEnv) (dir : ChangeDir) :
    ChangeDir → Prop
  | kept : ValidateResult sha env dir dir
  | stored {record after : ChangeRecord} : dir.record = some record → record.state = .ready →
      ValidateStores sha env dir.candidate record after →
      ValidateResult sha env dir { dir with record := some after }

lemma validateResult_validateLocked (env : ValidateEnv) (id : String)
    (hrecord : dir.record = some record) (hready : record.state = .ready) :
    ValidateResult sha env dir (validateLocked sha env id record dir).1 := by
  have hactive : dir.save env.saveActivity env.activityMs record = dir ∨
      dir.save env.saveActivity env.activityMs record =
        { dir with record := some (record.savedAt env.activityMs) } := by
    unfold ChangeDir.save
    split_ifs
    · exact Or.inl rfl
    · exact Or.inr rfl
  unfold validateLocked
  split
  · exact .kept
  split
  · exact .kept
  dsimp only
  generalize dir.save env.saveActivity env.activityMs record = active at hactive
  have hkept : ValidateResult sha env dir active := by
    rcases hactive with rfl | rfl
    · exact .kept
    · exact .stored hrecord hready .active
  have hsave : ∀ after, ValidateStores sha env dir.candidate record after →
      ValidateResult sha env dir { active with record := some after } := by
    intro after hafter
    rcases hactive with rfl | rfl
    · exact .stored hrecord hready hafter
    · exact .stored hrecord hready hafter
  cases hverify : verifyCandidateBytes sha dir.candidate record with
  | error reason =>
    dsimp only [ChangeDir.save]
    split
    · exact hkept
    · exact hsave _ (.failed hverify)
  | ok _ =>
    dsimp only
    split
    · exact hkept
    · exact hkept
    dsimp only [recordEvidence, ChangeDir.save]
    split
    · exact hkept
    · refine hsave _ (.evidence hverify ?_)
      have hstored : active.record = some record ∨ active.record = some (record.savedAt env.activityMs) := by
        rcases hactive with rfl | rfl
        · exact Or.inl hrecord
        · exact Or.inr rfl
      unfold evidenceBase
      dsimp only
      split
      · rename_i updated _ hupdated
        split
        · rcases hstored with hstored | hstored
          · exact Or.inl (Option.some.inj (hupdated.symm.trans hstored))
          · exact Or.inr (Or.inl (Option.some.inj (hupdated.symm.trans hstored)))
        · exact Or.inr (Or.inr rfl)
      · exact Or.inr (Or.inr rfl)

lemma validateResult_validate (sha : ByteArray → String) (env : ValidateEnv)
    (request : ValidateRequest) (dir : ChangeDir) : ValidateResult sha env dir (validate sha env request dir).1 := by
  unfold validate
  cases hload : loadRecord .validate request.changeId env.loadFault dir.record with
  | error outcome => exact .kept
  | ok pinned =>
    dsimp only
    cases hadmit : admitValidate env request pinned with
    | error outcome => exact .kept
    | ok _ =>
      have hready : pinned.state = .ready := by
        unfold admitValidate at hadmit
        obtain ⟨_, hrequire, -⟩ := Checked.bind_eq_ok_iff.mp hadmit
        exact requireReady_eq_ok hrequire
      dsimp only
      cases env.lock with
      | busy => exact .kept
      | unavailable reason => exact .kept
      | acquired =>
        dsimp only
        cases hreload : reloadPinnedRecord .validate request.changeId env.reloadFault dir.record
            pinned with
        | error outcome => exact .kept
        | ok record =>
          obtain ⟨hrecord, hpinned⟩ := reloadPinnedRecord_eq_ok hreload
          exact validateResult_validateLocked env request.changeId hrecord
            (hpinned.2.1.trans hready)

/-- An export refuses, fails a change whose bytes differ, or reports what it read. -/
inductive ExportResult (sha : ByteArray → String) (env : ExportEnv) (dir : ChangeDir) :
    ChangeDir × ChangeOutcome → Prop
  | refused {outcome : ChangeOutcome} : outcome.data.verified = false → ExportResult sha env dir (dir, outcome)
  | failed {record : ChangeRecord} {reason : String} {outcome : ChangeOutcome} :
      dir.record = some record → verifyCandidateBytes sha dir.candidate record = .error reason →
      outcome.data.verified = false →
      ExportResult sha env dir
        ({ dir with record := some ((failVerification record reason).savedAt env.failedMs) }, outcome)
  | exported {record : ChangeRecord} {outcome : ChangeOutcome} :
      dir.record = some record → record.state = .ready →
      verifyCandidateBytes sha dir.candidate record = .ok () →
      outcome.data = dataForRecord .export record (some (env.toolOutputBytes / 2)) →
      ExportResult sha env dir (dir, outcome)

lemma exportResult_exportChange (sha : ByteArray → String) (env : ExportEnv) (id : String)
    (dir : ChangeDir) : ExportResult sha env dir (exportChange sha env id dir) := by
  unfold exportChange
  cases hload : loadRecord .export id env.loadFault dir.record with
  | error outcome => exact .refused (verified_of_loadRecord hload)
  | ok pinned =>
    dsimp only
    split
    · rename_i hrequire
      exact .refused (verified_of_requireReady hrequire)
    next hrequire =>
    have hready := requireReady_eq_ok hrequire
    split
    · exact .refused rfl
    cases env.lock with
    | busy => exact .refused rfl
    | unavailable reason => exact .refused rfl
    | acquired =>
      dsimp only
      cases hreload : reloadPinnedRecord .export id env.reloadFault dir.record pinned with
      | error outcome => exact .refused (verified_of_reloadPinnedRecord hreload)
      | ok record =>
        obtain ⟨hrecord, hpinned⟩ := reloadPinnedRecord_eq_ok hreload
        have hstate : record.state = .ready := hpinned.2.1.trans hready
        dsimp only [exportLocked]
        split
        · exact .refused rfl
        cases hverify : verifyCandidateBytes sha dir.candidate record with
        | error reason =>
          dsimp only [ChangeDir.save]
          split
          · exact .refused rfl
          · exact .failed hrecord hverify rfl
        | ok _ => exact .exported hrecord hstate hverify rfl

end Actions

end AgzRustMcp
