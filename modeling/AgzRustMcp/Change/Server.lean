import AgzRustMcp.Change.Service

/-!
# The change service and its warnings

A `ChangeServer` holds the changes of one scratch root and the one list of cleanup warnings.
Nothing is ever taken from that list, and every outcome carries a copy of it.
-/

namespace AgzRustMcp

/-- Adds a warning that is not in the list yet while there is room. -/
def addWarning (warnings : List String) (warning : String) : List String :=
  if warning ∉ warnings ∧ warnings.length < maxCleanupWarnings then warnings ++ [warning]
  else warnings

def pushCleanupWarnings (warnings pushed : List String) : List String :=
  pushed.foldl addWarning warnings

/-- `finish`: the warnings of the service come first, then those of the result. -/
def ChangeOutcome.finish (warnings : List String) (outcome : ChangeOutcome) : ChangeOutcome :=
  let merged := outcome.data.cleanupWarnings.foldl addWarning warnings
  { outcome with data := { outcome.data with cleanupWarnings := merged } }

/-- What an action does: the directory, its outcome, and new warnings. -/
structure Effect where
  dir : ChangeDir
  outcome : ChangeOutcome
  pushed : List String

/-- The summary that `failure_outcome` gives. -/
def failureSummary : String → String
  | "INCOMPLETE_INPUTS" => "The workspace could not be captured completely."
  | "CANCELLED" => "The action was cancelled before completion."
  | "TIMEOUT" => "The action timed out before completion."
  | "RESOURCE_BLOCKED" => "The active change limit was reached."
  | "PATCH_REJECTED" => "No patch was applied; a patch failed pre-validation."
  | "STALE" => "The change revision/base identity is stale."
  | "FAILED_INCONSISTENT" => "The candidate copy is inconsistent and further work is refused."
  | _ => "The change action did not complete."

def failureOutcome (action : ChangeAction) (changeId : Option String) (failure : ChangeFailure) : ChangeOutcome :=
  ⟨failure.status, failureSummary failure.status, true, .absent action changeId failure.reason⟩

/-- `create` below the limit; a worker that dies is reported as such. -/
def createEffect (sha : ByteArray → String) (config : ChangeConfig) (env : CreateEnv) (joinError : String) : Effect :=
  match createBlocking sha config env with
  | (dir, .done record) =>
    ⟨dir, ⟨"CREATED", "Captured the complete workspace into server-owned scratch.", false,
      dataForRecord .create record none⟩, []⟩
  | (dir, .failed failure) => ⟨dir, failureOutcome .create none failure, failure.warnings⟩
  | (dir, .crashed) =>
    ⟨dir, errorOutcome .create "UNAVAILABLE" "The bounded capture worker did not complete."
      joinError none, []⟩

/-- `stage`. -/
def stageEffect (sha : ByteArray → String) (config : ChangeConfig) (env : StageEnv)
    (request : StageRequest) (joinError id : String) (dir : ChangeDir) : Effect :=
  match stageBlocking sha config env request dir with
  | (left, .done record) =>
    ⟨left, ⟨"STAGED", "Patches were validated and applied to the candidate copy.", false,
      dataForRecord .stage record none⟩, []⟩
  | (left, .failed failure) => ⟨left, failureOutcome .stage (some id) failure, failure.warnings⟩
  | (left, .crashed) =>
    ⟨left, errorOutcome .stage "UNAVAILABLE" "The bounded patch worker did not complete."
      joinError (some id), []⟩

/-- The saves of a validation whose errors are warnings of the service. -/
def validatePushed (sha : ByteArray → String) (env : ValidateEnv) (request : ValidateRequest)
    (dir : ChangeDir) : List String :=
  match loadRecord .validate request.changeId env.loadFault dir.record with
  | .error _ => []
  | .ok pinned =>
    match admitValidate env request pinned, env.lock with
    | .ok _, .acquired =>
      match reloadPinnedRecord .validate request.changeId env.reloadFault dir.record pinned with
      | .error _ => []
      | .ok record =>
        if env.candidateIsSymlink || record.applyingRevision.isSome then []
        else
          env.saveActivity.toList ++
            match verifyCandidateBytes sha dir.candidate record, env.missingDependency, env.guardFault with
            | .ok _, none, none => env.saveEvidence.toList
            | _, _, _ => []
    | _, _ => []

/-- `validate` with its warnings. -/
def validateEffect (sha : ByteArray → String) (env : ValidateEnv) (request : ValidateRequest)
    (dir : ChangeDir) : Effect :=
  let (left, outcome) := validate sha env request dir
  ⟨left, outcome, validatePushed sha env request dir⟩

/-- The warnings of a discard that came to the removal of the copy. -/
def discardPushed (env : DiscardEnv) (dir : ChangeDir) : List String :=
  match env.loadFault, dir.record, env.lock with
  | none, some record, .acquired =>
    if record.state = .discarded then [] else env.saveFault.toList ++ env.worktreeWarnings
  | _, _, _ => []

/-- `discard` with its warnings. -/
def discardEffect (env : DiscardEnv) (id : String) (dir : ChangeDir) : Effect :=
  let (left, outcome) := discard env id dir
  ⟨left, outcome, discardPushed env dir⟩

/-! ## Migrate -/

/-- The counts of a migration report that its outcome repeats. -/
structure MigrationVerdict where
  complete : Bool
  obligationsTotal : ℕ

/-- What the analyzer and the planner come to. -/
inductive MigrationPlanning where
  | refused (status summary reason : String)
  | planned (verdict : MigrationVerdict) (patches : List PatchInput)

/-- What a migration meets outside the change directory. -/
structure MigrateEnv where
  /-- The request is refused before the change is looked at. -/
  refused : Option (String × String × String)
  loadFault : Option String
  candidateIsSymlink : Bool
  planning : MigrationPlanning
  /-- The stage of a migration, which has no worker of its own. -/
  stage : StageEnv
  saveReport : Option String
  reportMs : ℕ
  validate : ValidateEnv

/-- `migrate_prepare` before the analysis. -/
def admitMigrate (sha : ByteArray → String) (config : ChangeConfig) (env : MigrateEnv) (id : String)
    (expectedRevision : ℕ) (identity : String) (dir : ChangeDir) : Except ChangeOutcome ChangeRecord := do
  match env.stage.lock with
  | .busy =>
    .error (errorOutcome .migrate "CHANGE_BUSY" "The change scratch is locked by another process."
      lockReason (some id))
  | .unavailable reason => .error (lockFault .migrate id reason)
  | .acquired =>
    let record ← loadRecord .migrate id env.loadFault dir.record
    if record.state = .discarded then
      .error ⟨"DISCARDED", "The change scratch was discarded.", true,
        refusedData .migrate record "the candidate copy was discarded"⟩
    else if record.state ≠ .ready then
      .error ⟨"FAILED_INCONSISTENT", "An inconsistent candidate cannot be migrated.", true,
        refusedData .migrate record
          "the candidate may be partially applied; migration is refused"⟩
    else if record.workspaceEpoch ≠ env.stage.workspaceEpoch then
      .error ⟨"STALE", "The authorization epoch changed; migration is refused.", true, refusedData .migrate record
          s!"authorization root epoch changed from {record.workspaceEpoch} to {env.stage.workspaceEpoch}"⟩
    else if expectedRevision ≠ record.revision then
      .error ⟨"STALE", "The requested revision is not current; nothing was migrated.", true,
        refusedData .migrate record
          s!"expectedRevision {expectedRevision} does not match current revision {record.revision}"⟩
    else if identity ≠ record.baseIdentity then
      .error ⟨"STALE", "The requested base identity is stale; nothing was migrated.", true,
        refusedData .migrate record "baseIdentity does not match the captured base"⟩
    else if env.stage.cancelledBefore then
      .error ⟨"CANCELLED", "Migration was cancelled before analysis started.", true,
        refusedData .migrate record "the migration request was cancelled before analysis"⟩
    else if saturatingAdd record.revision 1 > config.maxRevisions then
      .error (errorOutcome .migrate "REVISION_LIMIT"
        "The change reached its configured revision limit."
        s!"the change reached the configured revision limit {config.maxRevisions}" (some id))
    else if env.candidateIsSymlink then
      .error (errorOutcome .migrate "FAILED_INCONSISTENT"
        "The candidate copy is a symlink and will not be analyzed."
        "candidate copy was replaced by a symlink" (some id))
    else
      match verifyCandidateBytes sha dir.candidate record with
      | .error reason =>
        .error ⟨"FAILED_INCONSISTENT",
          "The candidate bytes do not match the recorded revision; nothing was migrated.", true,
          refusedData .migrate record reason⟩
      | .ok _ => return record

/-- The outcome of a plan without patches. -/
def noEditOutcome (record : ChangeRecord) (verdict : MigrationVerdict) : ChangeOutcome :=
  let data := dataForRecord .migrate record none
  if verdict.complete then
    ⟨"MIGRATION_NOOP", "No candidate edit was required.", false,
      { data with reason := "the plan produced no candidate edits" }⟩
  else
    ⟨"MIGRATION_PARTIAL", "No edit was applied because the migration is incomplete.", true, { data with
        reason := s!"the plan produced no applicable edits and {verdict.obligationsTotal} obligation(s) remain" }⟩

/-- The outcome of a migration that was staged and validated. -/
def migratedOutcome (verdict : MigrationVerdict) (validation : ChangeOutcome) : ChangeOutcome :=
  let data :=
    { validation.data with
      action := ChangeAction.migrate.asStr
      reason := s!"{validation.data.reason} gate={validation.status} obligations={verdict.obligationsTotal} complete={verdict.complete}" }
  if !verdict.complete then
    ⟨"MIGRATION_PARTIAL",
      "The migration is incomplete; unresolved sites and budget omissions are reported.", true, data⟩
  else if validation.status = "PASS" then
    ⟨"MIGRATED", "The candidate revision was migrated and passed real Cargo validation.", false, data⟩
  else if validation.status = "FAIL" then
    ⟨"MIGRATION_FAILED", "The migrated candidate failed real Cargo validation.", true, data⟩
  else
    ⟨"MIGRATION_INCONCLUSIVE", "The migrated candidate could not be validated to a terminal result.", true, data⟩

/-- `migrate`: patches are staged, the report saved, the revision validated. -/
def migrateEffect (sha : ByteArray → String) (config : ChangeConfig) (env : MigrateEnv) (id : String)
    (expectedRevision : ℕ) (identity : String) (dir : ChangeDir) : Effect :=
  match env.refused with
  | some (status, summary, reason) =>
    ⟨dir, errorOutcome .migrate status summary reason (some id), []⟩
  | none =>
    match admitMigrate sha config env id expectedRevision identity dir, env.planning with
    | .error outcome, _ => ⟨dir, outcome, []⟩
    | .ok _, .refused status summary reason =>
      ⟨dir, errorOutcome .migrate status summary reason (some id), []⟩
    | .ok record, .planned verdict [] => ⟨dir, noEditOutcome record verdict, []⟩
    | .ok record, .planned verdict patches =>
      match stageLocked sha config { env.stage with crash := none }
          ⟨some expectedRevision, some identity, patches, []⟩ record dir with
      | (left, .failed failure) =>
        ⟨left, failureOutcome .migrate (some id) failure, failure.warnings⟩
      | (left, .crashed) => ⟨left, noEditOutcome record verdict, []⟩ -- not reached: `crash` is off
      | (left, .done staged) =>
        let reported := left.save env.saveReport env.reportMs staged
        let request : ValidateRequest := ⟨id, some staged.revision, some staged.baseIdentity⟩
        let validation := validateEffect sha env.validate request reported
        ⟨validation.dir, migratedOutcome verdict validation.outcome,
          (env.saveReport.map ("the migration report could not be persisted: " ++ ·)).toList ++ validation.pushed⟩

/-! ## The server -/

/-- One action on a change, with its surroundings. -/
inductive ChangeOp where
  | create (env : CreateEnv) (joinError : String)
  | stage (id : String) (env : StageEnv) (request : StageRequest) (joinError : String)
  | migrate (id : String) (env : MigrateEnv) (expectedRevision : ℕ) (baseIdentity : String)
  | inspect (id : String) (loadFault : Option String)
  | validate (env : ValidateEnv) (request : ValidateRequest)
  | exportChange (id : String) (env : ExportEnv)
  | discard (id : String) (env : DiscardEnv)

/-- The change that an action is about; a create is about the change that it makes. -/
def ChangeOp.id : ChangeOp → String
  | .create env _ => env.id
  | .stage id _ _ _ => id
  | .migrate id _ _ _ => id
  | .inspect id _ => id
  | .validate _ request => request.changeId
  | .exportChange id _ => id
  | .discard id _ => id

/-- The action creates a change. -/
def ChangeOp.isCreate : ChangeOp → Bool
  | .create _ _ => true
  | _ => false

/-- What an action does in the directory of its change. -/
def ChangeOp.effect (sha : ByteArray → String) (config : ChangeConfig) (dir : ChangeDir) : ChangeOp → Effect
  | .create env joinError => createEffect sha config env joinError
  | .stage id env request joinError => stageEffect sha config env request joinError id dir
  | .migrate id env expectedRevision identity =>
    migrateEffect sha config env id expectedRevision identity dir
  | .inspect id loadFault => ⟨dir, AgzRustMcp.inspect id loadFault dir, []⟩
  | .validate env request => validateEffect sha env request dir
  | .exportChange id env =>
    let (left, outcome) := AgzRustMcp.exportChange sha env id dir
    ⟨left, outcome, []⟩
  | .discard id env => discardEffect env id dir

/-- `ChangeService` with the changes of its scratch root. -/
structure ChangeServer where
  warnings : List String
  changes : Finmap fun _ : String => ChangeDir

/-- A service that starts over an empty scratch root. -/
def ChangeServer.new : ChangeServer := ⟨[], ∅⟩

/-- The directory holds a record that is not discarded. -/
def ChangeDir.isActive (dir : ChangeDir) : Bool :=
  dir.record.any fun record => record.state ≠ .discarded

/-- The active changes among the given ones. -/
def activeAmong (changes : Finmap fun _ : String => ChangeDir) : ℕ :=
  FiniteMap.total (fun _ dir => if dir.isActive then 1 else 0) changes

def ChangeServer.activeCount (server : ChangeServer) : ℕ := activeAmong server.changes

def ChangeServer.dirOf (server : ChangeServer) (id : String) : ChangeDir :=
  (server.changes.lookup id).getD .absent

def limitOutcome (config : ChangeConfig) : ChangeOutcome :=
  errorOutcome .create "RESOURCE_BLOCKED" "The active change limit was reached."
    s!"at most {config.maxActive} active changes are allowed; discard or let one expire" none

/-- `ChangeService::execute`. -/
def ChangeServer.perform (sha : ByteArray → String) (config : ChangeConfig) (server : ChangeServer)
    (op : ChangeOp) : ChangeServer × ChangeOutcome :=
  if op.isCreate ∧ server.activeCount ≥ config.maxActive then
    (server, (limitOutcome config).finish server.warnings)
  else
    let effect := op.effect sha config (server.dirOf op.id)
    let warnings := pushCleanupWarnings server.warnings effect.pushed
    (⟨warnings, server.changes.insert op.id effect.dir⟩, effect.outcome.finish warnings)

end AgzRustMcp
