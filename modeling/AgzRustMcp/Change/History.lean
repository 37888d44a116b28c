import AgzRustMcp.Foundation.Runs
import AgzRustMcp.Foundation.Sha256
import AgzRustMcp.Change.Stage

/-!
# Histories of a change and their accounting

A `Timeline` is the directory of a change with the tree that was captured and the list of its
revisions.  `Accounted` says that a ready record has its numbers of files and bytes right and within
the limits; every sequence of stages after a create keeps it.
-/

namespace AgzRustMcp

/-! ## Timelines -/

/-- What one revision added to the record. -/
structure Revision where
  patches : List StoredPatch
  newFiles : List StoredNewFile
  deriving DecidableEq

/-- A change directory with the captured tree and the revisions since. -/
structure Timeline where
  dir : ChangeDir
  baseline : Tree
  history : List Revision

structure StageCall where
  env : StageEnv
  request : StageRequest

/-- The revision by which a stored record grew. -/
def recordedSince : Option ChangeRecord → Option ChangeRecord → List Revision
  | some before, some after =>
    if after.revision = before.revision then []
    else [⟨after.patches.drop before.patches.length, after.newFiles.drop before.newFiles.length⟩]
  | _, _ => []

def Timeline.ofCreate (dir : ChangeDir) : Timeline := ⟨dir, dir.candidate, []⟩

def Timeline.stage (sha : ByteArray → String) (config : ChangeConfig) (timeline : Timeline)
    (call : StageCall) : Timeline :=
  let dir := (stageBlocking sha config call.env call.request timeline.dir).1
  { timeline with
    dir
    history := timeline.history ++ recordedSince timeline.dir.record dir.record }

def stages (sha : ByteArray → String) (config : ChangeConfig) : Timeline → List StageCall → Timeline :=
  Runs.run (Timeline.stage sha config)

/-- The call of a caller who knows the revision and base; nothing fails. -/
def Timeline.call (timeline : Timeline) (patches : List PatchInput) (newFiles : List NewFileInput) : StageCall where
  env := .quiet
  request :=
    { expectedRevision := timeline.dir.record.map ChangeRecord.revision
      baseIdentity := timeline.dir.record.map ChangeRecord.baseIdentity
      patches
      newFiles }

/-- The timeline after such calls, one after another. -/
def Timeline.script (sha : ByteArray → String) (config : ChangeConfig) (timeline : Timeline) :
    List (List PatchInput × List NewFileInput) → List StageCall
  | [] => []
  | (patches, newFiles) :: rest =>
    let call := timeline.call patches newFiles
    call :: (timeline.stage sha config call).script sha config rest

lemma ChangeDir.exists_ready (dir : ChangeDir) (h : dir.record.map ChangeRecord.state = some .ready) :
    ∃ record, dir.record = some record ∧ record.state = .ready := by
  simpa using h

section Steps

variable {sha : ByteArray → String} {config : ChangeConfig} {env : StageEnv}
  {record left : ChangeRecord} {plan : PatchPlan}

lemma StageLeftover.state_ne_ready (h : StageLeftover sha env record plan left) : left.state ≠ .ready := by
  cases h <;> simp [applyingMarker, failInconsistent, ChangeRecord.savedAt]

lemma revision_commitRecord {hashes : List (String × StoredHash)}
    (h : saturatingAdd record.revision 1 ≤ config.maxRevisions) :
    (commitRecord sha env record plan hashes).revision = record.revision + 1 := by
  have hmax := config.maxRevisions_range.2
  simp only [commitRecord, saturatingAdd, u64Max] at h ⊢
  omega

lemma recordedSince_commitRecord {hashes : List (String × StoredHash)}
    (h : saturatingAdd record.revision 1 ≤ config.maxRevisions) :
    recordedSince (some record) (some (commitRecord sha env record plan hashes)) =
      [⟨plan.patches.map storedPatch, plan.newFiles.map (storedNewFile sha)⟩] := by
  rw [recordedSince, if_neg (by rw [revision_commitRecord h]; omega)]
  simp [commitRecord]

lemma Timeline.stage_cases (sha : ByteArray → String) (config : ChangeConfig)
    (timeline : Timeline) (call : StageCall) : (timeline.stage sha config call = timeline ∧
        ∀ r, (stageBlocking sha config call.env call.request timeline.dir).2 ≠ .done r) ∨
      (∃ left, (timeline.stage sha config call).dir.record = some left ∧ left.state ≠ .ready) ∨
      ∃ record plan tree, timeline.dir.record = some record ∧ record.state = .ready ∧
        admitPlan config call.env call.request record timeline.dir.candidate = .ok plan ∧
        applyPlan call.env.apply timeline.dir.candidate plan.files = (tree, none) ∧
        (stageBlocking sha config call.env call.request timeline.dir).2 =
          .done (commitRecord sha call.env record plan (plan.files.map (plannedHash sha))) ∧
        timeline.stage sha config call =
          { dir := { timeline.dir with
              record := some (commitRecord sha call.env record plan
                (plan.files.map (plannedHash sha)))
              candidate := tree }
            baseline := timeline.baseline
            history := timeline.history ++
              [⟨plan.patches.map storedPatch, plan.newFiles.map (storedNewFile sha)⟩] } := by
  have hself : ∀ r : Option ChangeRecord, recordedSince r r = [] := by
    intro r
    cases r <;> simp [recordedSince]
  have hresult := stageResult_stageBlocking sha config call.env call.request timeline.dir
  unfold Timeline.stage
  generalize stageBlocking sha config call.env call.request timeline.dir = result at hresult
  cases hresult with
  | refused failure =>
    left
    refine ⟨?_, by simp⟩
    simp [hself]
  | @admitted record plan _ hrecord hready hplanned hend =>
    have hlimit := (admitPlan_eq_ok hplanned).2.2.1
    cases hend with
    | refused failure =>
      left
      refine ⟨?_, by simp⟩
      simp [hself]
    | aborted tree hleft hreply => exact Or.inr (Or.inl ⟨_, rfl, hleft.state_ne_ready⟩)
    | @committed tree happly _ =>
      refine Or.inr (Or.inr ⟨record, plan, tree, hrecord, hready, hplanned, happly, rfl, ?_⟩)
      simp [hrecord, recordedSince_commitRecord hlimit]

lemma Timeline.manifest_stage (timeline : Timeline) (call : StageCall) :
    (timeline.stage sha config call).dir.manifest = timeline.dir.manifest := by
  have hresult := stageResult_stageBlocking sha config call.env call.request timeline.dir
  unfold Timeline.stage
  generalize stageBlocking sha config call.env call.request timeline.dir = result at hresult
  cases hresult with
  | refused failure => rfl
  | admitted _ _ _ hend => cases hend <;> rfl

end Steps

/-! ## Accounting -/

/-- A ready record has the totals of the candidate, and they are within the limits. -/
def Accounted (config : ChangeConfig) (dir : ChangeDir) : Prop :=
  ∀ record, dir.record = some record → record.state = .ready → record.candidateFiles = fileCount dir.candidate ∧
      record.candidateBytes = fileBytes dir.candidate ∧
      record.candidateFiles ≤ config.maxFiles ∧ record.candidateBytes ≤ config.maxBytes

variable {sha : ByteArray → String} {config : ChangeConfig} {record : ChangeRecord}

lemma accounted_of_create {env : CreateEnv} {dir : ChangeDir}
    (h : createBlocking sha config env = (dir, .done record)) : Accounted config dir := by
  obtain ⟨manifest, tree, hcapture, rfl, rfl⟩ := createBlocking_eq_done h
  have hcaptured := captureTree_spec hcapture
  have hlength : manifest.files.length = (walkFiles (env.captureEnv sha config) env.source).length := by
    rw [hcaptured.manifest_perm.length_eq, List.length_map]
  have hcount : fileCount tree = manifest.files.length := by
    rw [fileCount, hcaptured.tree_eq, total_treeOf Node.files rfl hcaptured.nodup, hlength]
    simp [Node.files]
  have hbytes : fileBytes tree = manifest.totalBytes := by
    rw [fileBytes, hcaptured.tree_eq, total_treeOf Node.bytes rfl hcaptured.nodup, hcaptured.totalBytes_eq]
    rfl
  intro record hrecord _
  obtain rfl : capturedRecord sha env manifest = record := by simpa using hrecord
  refine ⟨hcount.symm, hbytes.symm, ?_, ?_⟩
  · exact hlength.le.trans hcaptured.files_le
  · exact hcaptured.totalBytes_eq.le.trans hcaptured.bytes_le

lemma appliedBytes_eq (record : ChangeRecord) (files : List PlannedFile) :
    appliedBytes record files = record.candidateBytes + filesDelta files := by
  unfold appliedBytes filesDelta
  generalize (record.candidateBytes : ℤ) = start
  induction files generalizing start with
  | nil => simp
  | cons file files ih =>
    rw [List.foldl_cons, ih, List.map_cons, List.sum_cons]
    omega

lemma accounted_commitRecord (sha : ByteArray → String) (env : StageEnv)
    {fault : RelPath → Option ApplyFault} {plan : PatchPlan}
    {candidate tree : Tree} (hashes : List (String × StoredHash))
    (hfiles : record.candidateFiles = fileCount candidate) (hbytes : record.candidateBytes = fileBytes candidate)
    (hplan : PlanFor candidate (candidateLimits config record) plan)
    (happly : applyPlan fault candidate plan.files = (tree, none)) :
    (commitRecord sha env record plan hashes).candidateFiles = fileCount tree ∧
      (commitRecord sha env record plan hashes).candidateBytes = fileBytes tree ∧
      fileCount tree ≤ config.maxFiles ∧ fileBytes tree ≤ config.maxBytes := by
  have hnonempty : ∀ file ∈ plan.files, file.relative ≠ [] := fun f hf => (hplan.normal f hf).ne_nil
  have hcount := fileCount_applyPlan happly hnonempty hplan.nodup hplan.fits
  have hsize := fileBytes_applyPlan happly hnonempty hplan.nodup hplan.fits
  rw [hplan.created, List.length_map] at hcount
  have hlimit := hplan.files_le
  have hle := hplan.bytes_le
  have hnonneg := hplan.bytes_nonneg
  have hmaxFiles := config.maxFiles_range.2
  have hmaxBytes := config.maxBytes_range.2
  simp only [candidateLimits, saturatingAdd, u64Max] at hlimit hle hnonneg hmaxBytes
  simp only [commitRecord, appliedBytes_eq, saturatingAdd, u64Max]
  refine ⟨?_, ?_, ?_, ?_⟩ <;> omega

lemma Accounted.stage {timeline : Timeline} (h : Accounted config timeline.dir) (call : StageCall) :
    Accounted config (timeline.stage sha config call).dir := by
  rcases timeline.stage_cases sha config call with
    ⟨hsame, -⟩ | ⟨left, hleft, hstate⟩ |
      ⟨record, plan, tree, hrecord, hready, hplanned, happly, -, hstage⟩
  · rw [hsame]
    exact h
  · intro record hrecord hready
    obtain rfl : left = record := Option.some.inj (hleft.symm.trans hrecord)
    exact absurd hready hstate
  · obtain ⟨hfiles, hbytes, -, -⟩ := h record hrecord hready
    have hplan := planPatches_spec (admitPlan_eq_ok hplanned).2.2.2
    obtain ⟨h1, h2, h3, h4⟩ := accounted_commitRecord sha call.env
      (plan.files.map (plannedHash sha)) hfiles hbytes hplan happly
    rw [hstage]
    intro record' hrecord' _
    obtain rfl := Option.some.inj hrecord'
    exact ⟨h1, h2, h1 ▸ h3, h2 ▸ h4⟩

lemma accounted_stages {env : CreateEnv} {dir : ChangeDir}
    (h : createBlocking sha config env = (dir, .done record)) (calls : List StageCall) :
    Accounted config (stages sha config (.ofCreate dir) calls).dir :=
  Runs.invariant (P := fun timeline : Timeline => Accounted config timeline.dir)
    (fun _ call hacc => hacc.stage call) (accounted_of_create h)

/-- After any stages a ready record counts the candidate, within the limits. -/
theorem ready_record_accounts_for_candidate {sha : ByteArray → String} {config : ChangeConfig}
    {env : CreateEnv} {dir : ChangeDir} {created : ChangeRecord}
    (h : createBlocking sha config env = (dir, .done created)) (calls : List StageCall)
    {record : ChangeRecord}
    (hrecord : (stages sha config (.ofCreate dir) calls).dir.record = some record)
    (hready : record.state = .ready) :
    record.candidateFiles = fileCount (stages sha config (.ofCreate dir) calls).dir.candidate ∧
      record.candidateBytes = fileBytes (stages sha config (.ofCreate dir) calls).dir.candidate ∧
      record.candidateFiles ≤ config.maxFiles ∧ record.candidateBytes ≤ config.maxBytes :=
  accounted_stages h calls record hrecord hready

/-- A workspace with one file. -/
def oneFileSource : SourceDir where
  listing := .ofTexts [("lib.rs", "fn one() {}")]
  distinct := by decide
  bytes_lt := by decide

/-- The change created from that workspace. -/
def oneFileChange : ChangeDir × Reply :=
  createBlocking Sha256.sha256Hex .default (.quiet oneFileSource)

/-- A stage that grows the file and adds an empty one, and a refused stage. -/
def oneFileCalls : List StageCall :=
  (Timeline.ofCreate oneFileChange.1).script Sha256.sha256Hex .default
    [([⟨"lib.rs", "one", "first"⟩], [⟨"src/new.rs", ""⟩]), ([⟨"lib.rs", "two", "second"⟩], [])]

theorem ready_record_accounts_for_two_files :
    ∃ record, (stages Sha256.sha256Hex .default (.ofCreate oneFileChange.1) oneFileCalls).dir.record
        = some record ∧ record.candidateFiles = 2 ∧ record.candidateBytes = 13 ∧
      record.candidateBytes = fileBytes
        (stages Sha256.sha256Hex .default (.ofCreate oneFileChange.1) oneFileCalls).dir.candidate
        := by
  obtain ⟨created, hcreated⟩ := Reply.exists_of_isDone oneFileChange (by decide +kernel)
  obtain ⟨record, hrecord, hready⟩ := ChangeDir.exists_ready
    (stages Sha256.sha256Hex .default (.ofCreate oneFileChange.1) oneFileCalls).dir
    (by decide +kernel)
  have hspec := ready_record_accounts_for_candidate hcreated oneFileCalls hrecord hready
  have hcount : fileCount
      (stages Sha256.sha256Hex .default (.ofCreate oneFileChange.1) oneFileCalls).dir.candidate
      = 2 := by decide +kernel
  have hbytes : fileBytes
      (stages Sha256.sha256Hex .default (.ofCreate oneFileChange.1) oneFileCalls).dir.candidate
      = 13 := by decide +kernel
  exact ⟨record, hrecord, hspec.1.trans hcount, hspec.2.1.trans hbytes, hspec.2.1⟩

end AgzRustMcp
