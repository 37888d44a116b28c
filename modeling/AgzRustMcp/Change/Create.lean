import AgzRustMcp.Change.Capture

/-!
# Creating a change

`create_blocking` and `capture_into` of `change/service.rs` on the directory of one change.  A
marker is published before the first byte is copied, and every later failure removes the directory.
What comes before the directory is touched is represented by its verdict.
-/

namespace AgzRustMcp

/-- The directory of one change under the scratch root. -/
structure ChangeDir where
  record : Option ChangeRecord
  manifest : Option CaptureManifest
  candidate : Tree

/-- The directory before it is created and after it was removed. -/
def ChangeDir.absent : ChangeDir := ⟨none, none, ∅⟩

structure ChangeFailure where
  status : String
  reason : String
  warnings : List String
  deriving DecidableEq

def ChangeFailure.new (status reason : String) : ChangeFailure := ⟨status, reason, []⟩

/-- What a blocking action gives back; a process that dies gives back nothing. -/
inductive Reply where
  | done (record : ChangeRecord)
  | failed (failure : ChangeFailure)
  | crashed

/-- The action came to its end. -/
def Reply.isDone : Reply → Bool
  | .done _ => true
  | _ => false

lemma Reply.exists_of_isDone (result : ChangeDir × Reply) (h : result.2.isDone = true) :
    ∃ record, result = (result.1, .done record) := by
  obtain ⟨dir, reply⟩ := result
  cases reply with
  | done record => exact ⟨record, rfl⟩
  | failed failure => simp [Reply.isDone] at h
  | crashed => simp [Reply.isDone] at h

/-- What `try_lock` gives back. -/
inductive LockOutcome where
  | acquired
  | busy
  | unavailable (reason : String)
  deriving DecidableEq

/-- `ChangeStore::save` of a record at a given time, as it is read back. -/
def ChangeRecord.savedAt (record : ChangeRecord) (now : ℕ) : ChangeRecord :=
  { record with updatedAtMs := now }

@[simp] lemma ChangeRecord.savedAt_state (record : ChangeRecord) (now : ℕ) :
    (record.savedAt now).state = record.state := rfl

@[simp] lemma ChangeRecord.savedAt_revision (record : ChangeRecord) (now : ℕ) :
    (record.savedAt now).revision = record.revision := rfl

@[simp] lemma ChangeRecord.savedAt_evidence (record : ChangeRecord) (now : ℕ) :
    (record.savedAt now).evidence = record.evidence := rfl

def manifestHash (sha : ByteArray → String) (manifest : CaptureManifest) : String :=
  let entryText (entry : ManifestEntry) : String :=
    entry.path ++ "\x00" ++ entry.sha256 ++ "\x00" ++ toString entry.bytes ++ "\n"
  sha ("agz-rust-mcp-change-manifest\x00" ++ toString manifest.files.length ++ "\n" ++
    String.join (manifest.files.map entryText)).toByteArray

def baseIdentity (sha : ByteArray → String) (epoch : ℕ) (manifestDigest captureRoot : String) : String :=
  sha ("agz-rust-mcp-change-base\x00" ++ toString epoch ++ "\x00" ++ manifestDigest ++ "\x00" ++
    captureRoot).toByteArray

def placeholderRecord (id : String) (workspaceEpoch now : ℕ) : ChangeRecord where
  id := id
  updatedAtMs := now
  workspaceEpoch := workspaceEpoch
  baseIdentity := ""
  state := .capturing
  capture := ⟨0, 0, "", false, []⟩
  revision := 0
  applyingRevision := none
  patches := []
  newFiles := []
  changedFiles := []
  candidateFiles := 0
  candidateBytes := 0
  patchHash := ""
  sourceHashes := ∅
  evidence := []
  cleanupWarnings := []

/-- What `create_blocking` meets: the workspace, the clock, and what fails. -/
structure CreateEnv where
  id : String
  workspaceEpoch : ℕ
  captureRoot : String
  refused : Option ChangeFailure
  excluded : List RelPath
  source : SourceDir
  lock : LockOutcome
  markerMs : ℕ
  publishMs : ℕ
  saveMarker : Option String
  cancelled : RelPath → Bool
  listFault : RelPath → Option String
  entryFault : RelPath → Option String
  copyFault : RelPath → Option String
  /-- The process dies while it captures, and leaves this copy. -/
  crash : Option Tree
  writeManifest : Option String
  authorize : Option String
  savePublish : Option String
  /-- The directory could not be removed after a failure, and this copy is left. -/
  removeFault : Option (String × Tree)

/-- The surroundings of a create in which nothing is refused and nothing fails. -/
def CreateEnv.quiet (source : SourceDir) : CreateEnv where
  id := "chg-0-1-0"
  workspaceEpoch := 1
  captureRoot := "/workspace"
  refused := none
  excluded := []
  source := source
  lock := .acquired
  markerMs := 0
  publishMs := 0
  saveMarker := none
  cancelled := fun _ => false
  listFault := fun _ => none
  entryFault := fun _ => none
  copyFault := fun _ => none
  crash := none
  writeManifest := none
  authorize := none
  savePublish := none
  removeFault := none

def CreateEnv.captureEnv (sha : ByteArray → String) (config : ChangeConfig) (env : CreateEnv) : CaptureEnv where
  sha := sha
  maxFiles := config.maxFiles
  maxBytes := config.maxBytes
  excluded := env.excluded
  destinationRelative := none
  cancelled := env.cancelled
  listFault := env.listFault
  entryFault := env.entryFault
  copyFault := env.copyFault

/-- The record that `capture_into` publishes. -/
def capturedRecord (sha : ByteArray → String) (env : CreateEnv) (manifest : CaptureManifest) : ChangeRecord where
  id := env.id
  updatedAtMs := env.publishMs
  workspaceEpoch := env.workspaceEpoch
  baseIdentity := baseIdentity sha env.workspaceEpoch (manifestHash sha manifest) env.captureRoot
  state := .ready
  capture := ⟨manifest.files.length, manifest.totalBytes, manifestHash sha manifest, true, manifest.excluded⟩
  revision := 0
  applyingRevision := none
  patches := []
  newFiles := []
  changedFiles := []
  candidateFiles := manifest.files.length
  candidateBytes := manifest.totalBytes
  patchHash := ""
  sourceHashes := ∅
  evidence := []
  cleanupWarnings := []

/-- `capture_into`: the manifest, the copy and the published record. -/
def captureInto (sha : ByteArray → String) (config : ChangeConfig) (env : CreateEnv) :
    Except ChangeFailure (CaptureManifest × Tree × ChangeRecord) :=
  match captureTree (env.captureEnv sha config) env.source with
  | .error .cancelled => .error (.new "CANCELLED" "capture was cancelled")
  | .error (.incomplete reason) =>
    .error (.new "INCOMPLETE_INPUTS" ("capture is incomplete: " ++ reason))
  | .ok (manifest, tree) =>
    match env.writeManifest, env.authorize, env.savePublish with
    | some error, _, _ => .error (.new "INCOMPLETE_INPUTS" error)
    | none, some error, _ =>
      .error (.new "INCOMPLETE_INPUTS" ("candidate root could not be authorized: " ++ error))
    | none, none, some error => .error (.new "INCOMPLETE_INPUTS" error)
    | none, none, none => .ok (manifest, tree, capturedRecord sha env manifest)

def createBlocking (sha : ByteArray → String) (config : ChangeConfig) (env : CreateEnv) : ChangeDir × Reply :=
  match env.refused, env.lock with
  | some failure, _ => (.absent, .failed failure)
  | none, .busy =>
    (.absent, .failed (.new "CHANGE_BUSY" "another process holds the fresh change lock"))
  | none, .unavailable reason => (.absent, .failed (.new "RESOURCE_BLOCKED" reason))
  | none, .acquired =>
    match env.saveMarker with
    | some error =>
      (.absent, .failed (.new "RESOURCE_BLOCKED"
        ("the capture marker could not be published: " ++ error)))
    | none =>
      let placeholder := placeholderRecord env.id env.workspaceEpoch env.markerMs
      match env.crash with
      | some tree => (⟨some placeholder, none, tree⟩, .crashed)
      | none =>
        match captureInto sha config env, env.removeFault with
        | .ok (manifest, tree, record), _ => (⟨some record, some manifest, tree⟩, .done record)
        | .error failure, none => (.absent, .failed failure)
        | .error failure, some (error, tree) =>
          (⟨some placeholder, none, tree⟩,
            .failed { failure with warnings := failure.warnings ++ [truncate error 512] })

lemma createBlocking_eq_done {sha : ByteArray → String} {config : ChangeConfig} {env : CreateEnv}
    {dir : ChangeDir} {record : ChangeRecord} (h : createBlocking sha config env = (dir, .done record)) :
    ∃ manifest tree, captureTree (env.captureEnv sha config) env.source = .ok (manifest, tree) ∧
      record = capturedRecord sha env manifest ∧ dir = ⟨some record, some manifest, tree⟩ := by
  unfold createBlocking at h
  split at h
  · simp at h
  · simp at h
  · simp at h
  split at h
  · simp at h
  dsimp only at h
  split at h
  · simp at h
  split at h
  · next manifest tree record' _ hcapture =>
    obtain ⟨rfl, hreply⟩ := Prod.mk.inj h
    obtain rfl := Reply.done.inj hreply
    unfold captureInto at hcapture
    split at hcapture
    · simp at hcapture
    · simp at hcapture
    next manifest' tree' htree =>
    split at hcapture
    · simp at hcapture
    · simp at hcapture
    · simp at hcapture
    obtain ⟨rfl, hrest⟩ := Prod.mk.inj (Except.ok.inj hcapture)
    obtain ⟨rfl, rfl⟩ := Prod.mk.inj hrest
    exact ⟨manifest', tree', htree, rfl, rfl⟩
  · simp at h
  · simp at h

end AgzRustMcp
