import AgzRustMcp.Foundation.OrderedMap
import AgzRustMcp.Change.Plan
import AgzRustMcp.Change.Create

/-!
# Staging a revision

`stage_blocking` and `stage_locked` of `change/service.rs`: a stage is planned in memory, then a
marker is published, the plan is applied, read back and hashed, and the new revision is published.
Each of these can fail, and the process may die while the plan is applied.
-/

namespace AgzRustMcp

open Checked
open Std (ExtTreeMap)

structure StageRequest where
  expectedRevision : Option ℕ
  baseIdentity : Option String
  patches : List PatchInput
  newFiles : List NewFileInput
  deriving DecidableEq

/-- What a stage meets: the epoch, the lock, the clock, and what fails. -/
structure StageEnv where
  workspaceEpoch : ℕ
  lock : LockOutcome
  loadFault : Option String
  cancelledBefore : Bool
  cancelledAfterPlan : Bool
  markerMs : ℕ
  publishMs : ℕ
  saveMarker : Option String
  /-- The process dies while it applies the plan, and leaves this copy. -/
  crash : Option Tree
  apply : RelPath → Option ApplyFault
  readBack : RelPath → Option String
  savePublish : Option String
  saveFailed : Option String

/-- The surroundings of a stage in which nothing fails. -/
def StageEnv.quiet : StageEnv where
  workspaceEpoch := 1
  lock := .acquired
  loadFault := none
  cancelledBefore := false
  cancelledAfterPlan := false
  markerMs := 0
  publishMs := 0
  saveMarker := none
  crash := none
  apply := fun _ => none
  readBack := fun _ => none
  savePublish := none
  saveFailed := none

/-- The limits of a plan, from the record and the configuration. -/
def candidateLimits (config : ChangeConfig) (record : ChangeRecord) : CandidateLimits :=
  ⟨record.candidateFiles, record.candidateBytes, config.maxFiles, config.maxBytes⟩

/-- The part of `stage_locked` before the marker is published. -/
def admitPlan (config : ChangeConfig) (env : StageEnv) (request : StageRequest)
    (record : ChangeRecord) (candidate : Tree) : Except ChangeFailure PatchPlan :=
  match request.expectedRevision with
  | none => .error (.new "INVALID" "expectedRevision is required")
  | some expectedRevision =>
    if expectedRevision ≠ record.revision then
      .error (.new "STALE" ("expectedRevision " ++ toString expectedRevision ++
        " does not match current revision " ++ toString record.revision))
    else
      match request.baseIdentity with
      | none => .error (.new "INVALID" "baseIdentity is required")
      | some identity =>
        if identity ≠ record.baseIdentity then
          .error (.new "STALE" "baseIdentity does not match the captured base")
        else if env.cancelledBefore then .error (.new "CANCELLED" "stage was cancelled")
        else if saturatingAdd record.revision 1 > config.maxRevisions then
          .error (.new "REVISION_LIMIT" ("the change reached the configured revision limit " ++
            toString config.maxRevisions))
        else
          match planPatches candidate request.patches request.newFiles
              (candidateLimits config record) with
          | .error reason => .error (.new "PATCH_REJECTED" reason)
          | .ok plan =>
            if env.cancelledAfterPlan then .error (.new "CANCELLED" "stage was cancelled")
            else .ok plan

/-! ## After the marker -/

/-- The marker that is published before the first candidate write. -/
def applyingMarker (env : StageEnv) (record : ChangeRecord) : ChangeRecord :=
  { record with
    state := .applying
    applyingRevision := some (saturatingAdd record.revision 1)
    updatedAtMs := env.markerMs }

/-- The record of a stage that failed after its marker. -/
def failInconsistent (record : ChangeRecord) (warning : String) : ChangeRecord :=
  { record with
    state := .failedInconsistent
    applyingRevision := none
    cleanupWarnings := pushWarning record.cleanupWarnings warning }

/-- The loop that reads the written files back, to the recorded hashes or the failure. -/
def readBackFiles (sha : ByteArray → String) (env : StageEnv) (tree : Tree) :
    List PlannedFile → Except (String × String) (List (String × StoredHash))
  | [] => .ok []
  | file :: files =>
    let relative := relativePathString file.relative
    let unreadable := "candidate file " ++ relative ++ " could not be re-read after apply"
    match env.readBack file.relative, fileAt tree file.relative with
    | some error, _ => .error (unreadable ++ ": " ++ error, unreadable)
    | none, none => .error (unreadable ++ ": " ++ notFoundText, unreadable)
    | none, some bytes =>
      if bytes ≠ file.contents then
        let mismatch := "candidate file " ++ relative ++ " does not match the planned bytes"
        .error (mismatch, mismatch)
      else
        (readBackFiles sha env tree files).map ((relative, ⟨sha bytes, bytes.size⟩) :: ·)

def storedPatch (patch : PatchInput) : StoredPatch :=
  ⟨normalizePatchFile patch.file, patch.oldString, patch.newString⟩

def storedNewFile (sha : ByteArray → String) (file : PlannedNewFile) : StoredNewFile :=
  ⟨relativePathString file.relative, file.content, sha file.content.toByteArray, textBytes file.content⟩

def computePatchHash (sha : ByteArray → String) (revision : ℕ) (patches : List StoredPatch)
    (newFiles : List StoredNewFile) : String :=
  let patchText (patch : StoredPatch) : String :=
    patch.file ++ "\x00" ++ patch.oldString ++ "\x00" ++ patch.newString ++ "\x00"
  let fileText (file : StoredNewFile) : String :=
    file.file ++ "\x00" ++ file.sha256 ++ "\x00" ++ toString file.bytes ++ "\x00"
  sha ("agz-rust-mcp-change-patches\x00" ++ toString revision ++ "\x00" ++
    String.join (patches.map patchText) ++ String.join (newFiles.map fileText)).toByteArray

/-- `BTreeMap::extend` with the hashes of a stage. -/
def extendHashes (hashes : ExtTreeMap String StoredHash) (applied : List (String × StoredHash)) :
    ExtTreeMap String StoredHash :=
  OrderedMap.insertAll hashes applied

/-- The list of changed files with those of a plan. -/
def extendChangedFiles (changed : List String) (files : List PlannedFile) : List String :=
  (files.foldl (fun list file =>
    let relative := relativePathString file.relative
    if list.contains relative then list else list ++ [relative]) changed).take
      maxChangedFilesInRecord

/-- The bytes of the candidate after a plan, as an exact number. -/
def appliedBytes (record : ChangeRecord) (files : List PlannedFile) : ℤ :=
  files.foldl (fun bytes file => bytes - file.previousBytes + file.contents.size)
    record.candidateBytes

/-- The record of the new revision. -/
def commitRecord (sha : ByteArray → String) (env : StageEnv) (record : ChangeRecord)
    (plan : PatchPlan) (hashes : List (String × StoredHash)) : ChangeRecord :=
  let revision := saturatingAdd record.revision 1
  let patches := record.patches ++ plan.patches.map storedPatch
  let newFiles := record.newFiles ++ plan.newFiles.map (storedNewFile sha)
  { record with
    sourceHashes := extendHashes record.sourceHashes hashes
    candidateFiles := saturatingAdd record.candidateFiles plan.newFiles.length
    candidateBytes := min (appliedBytes record plan.files).toNat u64Max
    revision := revision
    patches := patches
    newFiles := newFiles
    changedFiles := extendChangedFiles record.changedFiles plan.files
    patchHash := computePatchHash sha revision patches newFiles
    evidence := record.evidence.map StoredEvidence.supersede
    state := .ready
    applyingRevision := none
    updatedAtMs := env.publishMs }

/-- The failure exits after the marker: the failed record is published when it can be. -/
def publishFailed (env : StageEnv) (dir : ChangeDir) (tree : Tree) (record : ChangeRecord)
    (warning reason : String) : ChangeDir × Reply :=
  let failed := (failInconsistent record warning).savedAt env.publishMs
  ({ dir with
      record := if env.saveFailed.isSome then dir.record else some failed
      candidate := tree },
    .failed (.new "FAILED_INCONSISTENT" reason))

/-- The part of `stage_locked` from the marker on. -/
def applyStage (sha : ByteArray → String) (env : StageEnv) (record : ChangeRecord)
    (plan : PatchPlan) (dir : ChangeDir) : ChangeDir × Reply :=
  match env.saveMarker with
  | some reason =>
    (dir, .failed (.new "UNAVAILABLE"
      ("the applying marker could not be published; no candidate byte was written: " ++ reason)))
  | none =>
    let marked := applyingMarker env record
    let markedDir := { dir with record := some marked }
    match env.crash with
    | some tree => ({ markedDir with candidate := tree }, .crashed)
    | none =>
      match applyPlan env.apply dir.candidate plan.files with
      | (tree, some error) =>
        publishFailed env markedDir tree marked (truncate error 512)
          ("a candidate write failed after validation: " ++ error)
      | (tree, none) =>
        match readBackFiles sha env tree plan.files with
        | .error (warning, reason) => publishFailed env markedDir tree marked warning reason
        | .ok hashes =>
          if appliedBytes record plan.files < 0 then
            publishFailed env markedDir tree marked
              "candidate byte accounting became negative after applying patches"
              "candidate byte accounting failed after apply"
          else
            let committed := commitRecord sha env record plan hashes
            match env.savePublish with
            | some reason =>
              publishFailed env markedDir tree committed (truncate reason 512)
                ("the change record could not be published: " ++ reason)
            | none =>
              ({ dir with record := some committed, candidate := tree }, .done committed)

def stageLocked (sha : ByteArray → String) (config : ChangeConfig) (env : StageEnv)
    (request : StageRequest) (record : ChangeRecord) (dir : ChangeDir) : ChangeDir × Reply :=
  match admitPlan config env request record dir.candidate with
  | .error failure => (dir, .failed failure)
  | .ok plan => applyStage sha env record plan dir

def notReadyStatus : RecordState → String
  | .failedInconsistent => "FAILED_INCONSISTENT"
  | .discarded => "DISCARDED"
  | .capturing => "FAILED_INCONSISTENT"
  | .applying => "FAILED_INCONSISTENT"
  | .ready => "INVALID"

def stageBlocking (sha : ByteArray → String) (config : ChangeConfig) (env : StageEnv)
    (request : StageRequest) (dir : ChangeDir) : ChangeDir × Reply :=
  match env.lock with
  | .unavailable reason => (dir, .failed (.new "UNAVAILABLE" reason))
  | .busy => (dir, .failed (.new "CHANGE_BUSY" "another server process holds this change lock"))
  | .acquired =>
    match env.loadFault, dir.record with
    | some reason, _ => (dir, .failed (.new "INVALID" reason))
    | none, none =>
      (dir, .failed (.new "NOT_FOUND" "no change record exists for this change id"))
    | none, some record =>
      if record.state ≠ .ready then
        (dir, .failed (.new (notReadyStatus record.state)
          ("change state is " ++ record.state.asStr)))
      else if record.workspaceEpoch ≠ env.workspaceEpoch then
        (dir, .failed (.new "STALE" ("authorization root epoch changed from " ++
          toString record.workspaceEpoch ++ " to " ++ toString env.workspaceEpoch ++
          "; the change is stale")))
      else stageLocked sha config env request record dir

/-! ## What a stage can do -/

lemma admitPlan_eq_ok {config : ChangeConfig} {env : StageEnv} {request : StageRequest}
    {record : ChangeRecord} {candidate : Tree} {plan : PatchPlan}
    (h : admitPlan config env request record candidate = .ok plan) :
    request.expectedRevision = some record.revision ∧ request.baseIdentity = some record.baseIdentity ∧
      saturatingAdd record.revision 1 ≤ config.maxRevisions ∧
      planPatches candidate request.patches request.newFiles (candidateLimits config record) = .ok plan := by
  unfold admitPlan at h
  split at h
  · simp at h
  next revision hrevision =>
  split at h
  · simp at h
  next hsame =>
  split at h
  · simp at h
  next identity hidentity =>
  split at h
  · simp at h
  next hbase =>
  split at h
  · simp at h
  split at h
  · simp at h
  next hlimit =>
  split at h
  · simp at h
  next plan' hplan =>
  split at h
  · simp at h
  obtain rfl := Except.ok.inj h
  exact ⟨by rw [hrevision, not_not.mp hsame], by rw [hidentity, not_not.mp hbase], not_lt.mp hlimit, hplan⟩

/-- The hash that a stage records for a planned file. -/
def plannedHash (sha : ByteArray → String) (file : PlannedFile) : String × StoredHash :=
  (relativePathString file.relative, ⟨sha file.contents, file.contents.size⟩)

lemma readBackFiles_eq_ok {sha : ByteArray → String} {env : StageEnv} {tree : Tree}
    {files : List PlannedFile} {hashes : List (String × StoredHash)}
    (h : readBackFiles sha env tree files = .ok hashes) : hashes = files.map (plannedHash sha) := by
  induction files generalizing hashes with
  | nil =>
    obtain rfl := Except.ok.inj h
    rfl
  | cons file files ih =>
    unfold readBackFiles at h
    dsimp only at h
    split at h
    · simp at h
    · simp at h
    next bytes _ _ =>
    split at h
    · simp at h
    next hbytes =>
    obtain rfl : bytes = file.contents := not_not.mp hbytes
    cases hrest : readBackFiles sha env tree files with
    | error e => simp [hrest, Except.map] at h
    | ok rest =>
      rw [hrest] at h
      obtain rfl := Except.ok.inj h
      rw [List.map_cons, ih hrest]
      rfl

/-- What a stage can leave unfinished: the marker, or a failed record. -/
inductive StageLeftover (sha : ByteArray → String) (env : StageEnv) (record : ChangeRecord)
    (plan : PatchPlan) : ChangeRecord → Prop
  | marker : StageLeftover sha env record plan (applyingMarker env record)
  | failed (warning : String) : StageLeftover sha env record plan
      ((failInconsistent (applyingMarker env record) warning).savedAt env.publishMs)
  | unpublished (warning : String) : StageLeftover sha env record plan
      ((failInconsistent (commitRecord sha env record plan (plan.files.map (plannedHash sha)))
        warning).savedAt env.publishMs)

/-- What a stage does from its marker on: nothing, no ready record, or a commit. -/
inductive StageEnd (sha : ByteArray → String) (env : StageEnv) (record : ChangeRecord)
    (plan : PatchPlan) (dir : ChangeDir) : ChangeDir × Reply → Prop
  | refused (failure : ChangeFailure) : StageEnd sha env record plan dir (dir, .failed failure)
  | aborted {left : ChangeRecord} (tree : Tree) {reply : Reply} :
      StageLeftover sha env record plan left → (∀ r, reply ≠ .done r) →
      StageEnd sha env record plan dir ({ dir with record := some left, candidate := tree }, reply)
  | committed {tree : Tree} : applyPlan env.apply dir.candidate plan.files = (tree, none) →
      0 ≤ appliedBytes record plan.files →
      StageEnd sha env record plan dir
        ({ dir with
            record := some (commitRecord sha env record plan (plan.files.map (plannedHash sha)))
            candidate := tree },
          .done (commitRecord sha env record plan (plan.files.map (plannedHash sha))))

lemma stageEnd_publishFailed {sha : ByteArray → String} {env : StageEnv} {record : ChangeRecord}
    {plan : PatchPlan} {dir : ChangeDir} (tree : Tree) {current : ChangeRecord}
    {warning : String} (reason : String) (hleft : StageLeftover sha env record plan
      ((failInconsistent current warning).savedAt env.publishMs)) : StageEnd sha env record plan dir
      (publishFailed env { dir with record := some (applyingMarker env record) } tree current
        warning reason) := by
  unfold publishFailed
  dsimp only
  split_ifs
  · exact .aborted tree .marker (by simp)
  · exact .aborted tree hleft (by simp)

lemma stageEnd_applyStage (sha : ByteArray → String) (env : StageEnv) (record : ChangeRecord)
    (plan : PatchPlan) (dir : ChangeDir) : StageEnd sha env record plan dir (applyStage sha env record plan dir) := by
  unfold applyStage
  cases env.saveMarker with
  | some reason => exact .refused _
  | none =>
    dsimp only
    cases env.crash with
    | some tree => exact .aborted tree .marker (by simp)
    | none =>
      dsimp only
      cases happly : applyPlan env.apply dir.candidate plan.files with
      | mk tree error =>
        cases error with
        | some error => exact stageEnd_publishFailed tree _ (.failed _)
        | none =>
          dsimp only
          cases hread : readBackFiles sha env tree plan.files with
          | error failure => exact stageEnd_publishFailed tree _ (.failed _)
          | ok hashes =>
            obtain rfl := readBackFiles_eq_ok hread
            dsimp only
            split_ifs with hneg
            · exact stageEnd_publishFailed tree _ (.failed _)
            cases env.savePublish with
            | some reason => exact stageEnd_publishFailed tree _ (.unpublished _)
            | none => exact .committed happly (not_lt.mp hneg)

/-- Everything a stage can do. -/
inductive StageResult (sha : ByteArray → String) (config : ChangeConfig) (env : StageEnv)
    (request : StageRequest) (dir : ChangeDir) : ChangeDir × Reply → Prop
  | refused (failure : ChangeFailure) :
      StageResult sha config env request dir (dir, .failed failure)
  | admitted {record : ChangeRecord} {plan : PatchPlan} {result : ChangeDir × Reply} :
      dir.record = some record → record.state = .ready →
      admitPlan config env request record dir.candidate = .ok plan →
      StageEnd sha env record plan dir result → StageResult sha config env request dir result

/-- A stage is refused at once, or its plan ends in a way of `StageEnd`. -/
theorem stageResult_stageBlocking (sha : ByteArray → String) (config : ChangeConfig)
    (env : StageEnv) (request : StageRequest) (dir : ChangeDir) :
    StageResult sha config env request dir (stageBlocking sha config env request dir) := by
  unfold stageBlocking
  cases env.lock with
  | unavailable reason => exact .refused _
  | busy => exact .refused _
  | acquired =>
    dsimp only
    cases env.loadFault with
    | some reason => exact .refused _
    | none =>
      cases hrecord : dir.record with
      | none => exact .refused _
      | some record =>
        dsimp only
        split_ifs with hstate hepoch
        · exact .refused _
        · exact .refused _
        unfold stageLocked
        cases hadmit : admitPlan config env request record dir.candidate with
        | error failure => exact .refused _
        | ok plan =>
          exact .admitted hrecord (not_not.mp hstate) hadmit
            (stageEnd_applyStage sha env record plan dir)

end AgzRustMcp
