import AgzRustMcp.Change.History
import AgzRustMcp.Change.Service

/-!
# Freshness of evidence over whole runs

`FreshRowsCurrent` says that a stored record has fresh rows only while it is ready, and only for its
current revision.  A stage supersedes the rows when it makes the new revision, not when it publishes
its marker, so a stage that is interrupted leaves them fresh: `FinishesWriting` says that none is.
-/

namespace AgzRustMcp

/-! ## Runs of the service -/

inductive ServiceCall where
  | create (env : CreateEnv)
  | stage (call : StageCall)
  | validate (env : ValidateEnv) (request : ValidateRequest)
  | inspect (id : String) (loadFault : Option String)
  | export (env : ExportEnv) (id : String)
  | discard (env : DiscardEnv) (id : String)
  | restart (env : RestartEnv)

/-- What a call does to the directory; a create counts while it has no record. -/
def serviceStep (sha : ByteArray → String) (config : ChangeConfig) (dir : ChangeDir) : ServiceCall → ChangeDir
  | .create env => if dir.record.isNone then (createBlocking sha config env).1 else dir
  | .stage call => (stageBlocking sha config call.env call.request dir).1
  | .validate env request => (validate sha env request dir).1
  | .inspect _ _ => dir
  | .export env id => (exportChange sha env id dir).1
  | .discard env id => (discard env id dir).1
  | .restart env => restart config env dir

def StoredEvidence.isLive (row : StoredEvidence) : Bool := row.fresh || row.authoritative

/-- A fresh or authoritative row is for the current revision of a ready record. -/
def FreshRowsCurrent (dir : ChangeDir) : Prop :=
  ∀ record, dir.record = some record → ∀ row ∈ record.evidence, row.isLive = true →
    record.state = .ready ∧ row.revision = record.revision

/-- Only a ready record with a fresh authoritative row is reported as verified. -/
def VerifiedOnlyReady (dir : ChangeDir) (outcome : ChangeOutcome) : Prop :=
  outcome.data.verified = true → ∃ record, dir.record = some record ∧ record.state = .ready ∧
    ∃ row ∈ record.evidence, row.revision = record.revision ∧ row.fresh = true ∧ row.authoritative = true

/-- Neither inspect nor export reports another state as verified. -/
def ReportsVerifiedOnlyReady (sha : ByteArray → String) (dir : ChangeDir) : Prop :=
  (∀ id fault, VerifiedOnlyReady dir (inspect id fault dir)) ∧
    ∀ env id, VerifiedOnlyReady dir (exportChange sha env id dir).2

/-! ## Stages that finish -/

/-- Nothing fails between the marker of the stage and the next record. -/
structure StageEnv.Finishes (env : StageEnv) (candidate : Tree) (plan : PatchPlan) : Prop where
  alive : env.crash = none
  applied : (applyPlan env.apply candidate plan.files).2 = none
  readBack : ∀ file ∈ plan.files, env.readBack file.relative = none
  published : env.savePublish = none ∨ env.saveFailed = none

instance (env : StageEnv) (candidate : Tree) (plan : PatchPlan) : Decidable (env.Finishes candidate plan) :=
  decidable_of_iff (env.crash.isNone ∧ (applyPlan env.apply candidate plan.files).2 = none ∧
      (∀ file ∈ plan.files, env.readBack file.relative = none) ∧
      (env.savePublish = none ∨ env.saveFailed = none))
    ⟨fun h => ⟨Option.isNone_iff_eq_none.mp h.1, h.2.1, h.2.2.1, h.2.2.2⟩,
      fun h => ⟨Option.isNone_iff_eq_none.mpr h.alive, h.applied, h.readBack, h.published⟩⟩

/-- The stage gets as far as publishing its marker. -/
def StageCall.PublishesMarker (call : StageCall) (record : ChangeRecord) : Prop :=
  call.env.lock = .acquired ∧ call.env.loadFault = none ∧ record.state = .ready ∧
    record.workspaceEpoch = call.env.workspaceEpoch ∧ call.env.saveMarker = none

instance (call : StageCall) (record : ChangeRecord) : Decidable (call.PublishesMarker record) :=
  inferInstanceAs (Decidable (_ ∧ _))

/-- A stage with its marker over a fresh or authoritative row finishes. -/
def FinishesWriting (config : ChangeConfig) (dir : ChangeDir) : ServiceCall → Prop
  | .stage call =>
    ∀ record ∈ dir.record, record.evidence.any StoredEvidence.isLive = true →
      ∀ plan ∈ (admitPlan config call.env call.request record dir.candidate).toOption,
        call.PublishesMarker record → call.env.Finishes dir.candidate plan
  | _ => True

instance (config : ChangeConfig) (dir : ChangeDir) (call : ServiceCall) :
    Decidable (FinishesWriting config dir call) := by
  cases call <;> unfold FinishesWriting <;> infer_instance

/-! ## What each step does to the rows -/

variable {dir : ChangeDir} {sha : ByteArray → String} {config : ChangeConfig}

lemma freshRowsCurrent_of_dead {record : ChangeRecord}
    (hrecord : dir.record = some record) (h : ∀ row ∈ record.evidence, row.isLive = false) :
    FreshRowsCurrent dir := by
  intro stored hstored row hrow hlive
  obtain rfl := Option.some.inj (hrecord.symm.trans hstored)
  rw [h row hrow] at hlive
  cases hlive

lemma isLive_of_mem_supersede {rows : List StoredEvidence} {row : StoredEvidence}
    (h : row ∈ rows.map StoredEvidence.supersede) : row.isLive = false := by
  obtain ⟨old, -, rfl⟩ := List.mem_map.mp h
  rfl

lemma FreshRowsCurrent.removal {dir : ChangeDir} (h : FreshRowsCurrent dir) (removal : Removal) :
    FreshRowsCurrent (removal.apply dir) := by
  cases removal with
  | complete =>
    intro record hrecord
    simp [Removal.apply, ChangeDir.absent] at hrecord
  | stopped keepsRecord keepsManifest candidate =>
    intro record hrecord
    simp only [Removal.apply] at hrecord
    split_ifs at hrecord
    exact h record hrecord

lemma evidence_createBlocking (sha : ByteArray → String) (config : ChangeConfig) (env : CreateEnv)
    {record : ChangeRecord} (h : (createBlocking sha config env).1.record = some record) : record.evidence = [] := by
  have habsent : ChangeDir.absent.record ≠ some record := by simp [ChangeDir.absent]
  unfold createBlocking at h
  split at h
  · exact absurd h habsent
  · exact absurd h habsent
  · exact absurd h habsent
  split at h
  · exact absurd h habsent
  dsimp only at h
  split at h
  · rw [← Option.some.inj h]
    rfl
  split at h
  · rename_i hcapture
    rw [← Option.some.inj h]
    unfold captureInto at hcapture
    split at hcapture
    · simp at hcapture
    · simp at hcapture
    split at hcapture
    · simp at hcapture
    · simp at hcapture
    · simp at hcapture
    · obtain ⟨-, hrest⟩ := Prod.mk.inj (Except.ok.inj hcapture)
      obtain ⟨-, rfl⟩ := Prod.mk.inj hrest
      rfl
  · exact absurd h habsent
  · rw [← Option.some.inj h]
    rfl

lemma freshRowsCurrent_createBlocking (sha : ByteArray → String) (config : ChangeConfig)
    (env : CreateEnv) : FreshRowsCurrent (createBlocking sha config env).1 := by
  intro record hrecord row hrow
  rw [evidence_createBlocking sha config env hrecord] at hrow
  exact absurd hrow List.not_mem_nil

lemma FreshRowsCurrent.validate (h : FreshRowsCurrent dir) (env : ValidateEnv) (request : ValidateRequest) :
    FreshRowsCurrent (AgzRustMcp.validate sha env request dir).1 := by
  have hresult := validateResult_validate sha env request dir
  generalize (AgzRustMcp.validate sha env request dir).1 = dir' at hresult
  cases hresult with
  | kept => exact h
  | @stored record after hrecord hready hstores =>
    intro stored hstored row hrow hlive
    obtain rfl : after = stored := Option.some.inj hstored
    cases hstores with
    | active => exact ⟨hready, (h record hrecord row hrow hlive).2⟩
    | failed hverify =>
      rw [isLive_of_mem_supersede hrow] at hlive
      cases hlive
    | @evidence base hverify hbase =>
      rw [ChangeRecord.savedAt_evidence] at hrow
      rw [ChangeRecord.savedAt_state, ChangeRecord.savedAt_revision, withEvidence_state, withEvidence_revision]
      have hbaseReady : base.state = .ready ∧ base.revision = record.revision := by
        rcases hbase with rfl | rfl | rfl <;> exact ⟨hready, rfl⟩
      rw [hbaseReady.2]
      refine ⟨hbaseReady.1, ?_⟩
      generalize hrows : evidenceRows record.revision (env.freshFor record base) env.recordedAtMs
        env.gate = rows at hrow
      rcases mem_or_mem_of_mem_withEvidence base rows hrow with hrow | hrow
      · rcases hbase with rfl | rfl | rfl
        · exact (h _ hrecord row hrow hlive).2
        · exact (h record hrecord row hrow hlive).2
        · rw [isLive_of_mem_supersede hrow] at hlive
          cases hlive
      · exact revision_of_mem_evidenceRows (hrows ▸ hrow)

lemma FreshRowsCurrent.export (h : FreshRowsCurrent dir) (env : ExportEnv) (id : String) :
    FreshRowsCurrent (exportChange sha env id dir).1 := by
  have hresult := exportResult_exportChange sha env id dir
  generalize exportChange sha env id dir = result at hresult
  cases hresult with
  | refused _ => exact h
  | failed _ _ _ => exact freshRowsCurrent_of_dead rfl fun row hrow => isLive_of_mem_supersede hrow
  | exported _ _ _ _ => exact h

lemma FreshRowsCurrent.discard (h : FreshRowsCurrent dir) (env : DiscardEnv)
    (id : String) : FreshRowsCurrent (AgzRustMcp.discard env id dir).1 := by
  unfold AgzRustMcp.discard
  split
  · split_ifs
    · exact h
    split
    · exact h
    · exact h
    dsimp only [discardLocked, ChangeDir.save]
    split_ifs
    · exact h
    · exact freshRowsCurrent_of_dead rfl fun row hrow => isLive_of_mem_supersede hrow
  · exact h

lemma FreshRowsCurrent.restart (h : FreshRowsCurrent dir)
    (env : RestartEnv) : FreshRowsCurrent (AgzRustMcp.restart config env dir) := by
  have hswept : FreshRowsCurrent (sweep config env dir) := by
    unfold sweep
    split
    · dsimp only
      split_ifs
      · exact h.removal _
      · exact h
    · exact h
  unfold AgzRustMcp.restart recoverInterrupted
  generalize sweep config env dir = swept at hswept
  split
  · split
    · dsimp only [ChangeDir.save]
      split
      · exact hswept
      · refine freshRowsCurrent_of_dead rfl fun row hrow => ?_
        obtain ⟨old, -, rfl⟩ := List.mem_map.mp hrow
        rfl
    · exact hswept.removal _
    · exact hswept
  · exact hswept

section Stage

variable {sha : ByteArray → String} {config : ChangeConfig} {env : StageEnv}
  {record : ChangeRecord} {plan : PatchPlan} {dir : ChangeDir}

lemma readBackFiles_of_written {tree : Tree} {files : List PlannedFile}
    (h : ∀ file ∈ files, env.readBack file.relative = none ∧ fileAt tree file.relative = some file.contents) :
    ∃ hashes, readBackFiles sha env tree files = .ok hashes := by
  induction files with
  | nil => exact ⟨[], rfl⟩
  | cons file files ih =>
    obtain ⟨hashes, hrest⟩ := ih fun f hf => h f (List.mem_cons_of_mem _ hf)
    obtain ⟨hread, hfile⟩ := h file List.mem_cons_self
    refine ⟨(relativePathString file.relative, ⟨sha file.contents, file.contents.size⟩) :: hashes, ?_⟩
    unfold readBackFiles
    simp [hread, hfile, hrest, Except.map]

lemma appliedBytes_nonneg (hplan : PlanFor dir.candidate (candidateLimits config record) plan) :
    0 ≤ appliedBytes record plan.files := by
  rw [appliedBytes_eq]
  exact hplan.bytes_nonneg

lemma evidence_applyStage (hplan : PlanFor dir.candidate (candidateLimits config record) plan) :
    (applyStage sha env record plan dir).1 = dir ∨
      ∃ after, (applyStage sha env record plan dir).1.record = some after ∧
        (after.evidence = record.evidence.map StoredEvidence.supersede ∨
          after.evidence = record.evidence ∧ env.saveMarker = none ∧ ¬ env.Finishes dir.candidate plan) := by
  unfold applyStage
  cases hmarker : env.saveMarker with
  | some reason => exact Or.inl rfl
  | none =>
    right
    dsimp only
    cases hcrash : env.crash with
    | some tree =>
      refine ⟨_, rfl, Or.inr ⟨rfl, rfl, fun hfin => ?_⟩⟩
      rw [hfin.alive] at hcrash
      cases hcrash
    | none =>
      dsimp only
      cases happly : applyPlan env.apply dir.candidate plan.files with
      | mk tree error =>
        cases error with
        | some error =>
          have hnot : ¬ env.Finishes dir.candidate plan := by
            intro hfin
            have happlied := hfin.applied
            rw [happly] at happlied
            cases happlied
          dsimp only [publishFailed]
          split_ifs
          · exact ⟨_, rfl, Or.inr ⟨rfl, rfl, hnot⟩⟩
          · exact ⟨_, rfl, Or.inr ⟨rfl, rfl, hnot⟩⟩
        | none =>
          dsimp only
          cases hread : readBackFiles sha env tree plan.files with
          | error failure =>
            have hnot : ¬ env.Finishes dir.candidate plan := by
              intro hfin
              have hfile := fileAt_applyPlan happly
                (fun f hf => (hplan.normal f hf).ne_nil) hplan.nodup
              have hwritten : ∃ hashes, readBackFiles sha env tree plan.files = .ok hashes :=
                readBackFiles_of_written fun file hmem =>
                  ⟨hfin.readBack file hmem, by rw [hfile, writtenAt_of_mem hplan.nodup hmem]; rfl⟩
              obtain ⟨hashes, hok⟩ := hwritten
              rw [hok] at hread
              cases hread
            dsimp only [publishFailed]
            split_ifs
            · exact ⟨_, rfl, Or.inr ⟨rfl, rfl, hnot⟩⟩
            · exact ⟨_, rfl, Or.inr ⟨rfl, rfl, hnot⟩⟩
          | ok hashes =>
            have hnonneg := appliedBytes_nonneg hplan
            dsimp only
            rw [if_neg (not_lt.mpr hnonneg)]
            cases hpublish : env.savePublish with
            | some reason =>
              dsimp only [publishFailed]
              split_ifs with hfailed
              · refine ⟨_, rfl, Or.inr ⟨rfl, rfl, fun hfin => ?_⟩⟩
                rcases hfin.published with hnone | hnone
                · rw [hnone] at hpublish
                  cases hpublish
                · rw [hnone] at hfailed
                  cases hfailed
              · exact ⟨_, rfl, Or.inl rfl⟩
            | none => exact ⟨_, rfl, Or.inl rfl⟩

lemma evidence_stageBlocking (sha : ByteArray → String) (config : ChangeConfig) (call : StageCall) (dir : ChangeDir) :
    (stageBlocking sha config call.env call.request dir).1 = dir ∨ ∃ record after, dir.record = some record ∧
        (stageBlocking sha config call.env call.request dir).1.record = some after ∧
        (after.evidence = record.evidence.map StoredEvidence.supersede ∨
          after.evidence = record.evidence ∧ call.PublishesMarker record ∧
            ∃ plan, admitPlan config call.env call.request record dir.candidate = .ok plan ∧
              ¬ call.env.Finishes dir.candidate plan) := by
  unfold stageBlocking
  cases hlock : call.env.lock with
  | unavailable reason => exact Or.inl rfl
  | busy => exact Or.inl rfl
  | acquired =>
    dsimp only
    cases hload : call.env.loadFault with
    | some reason => exact Or.inl rfl
    | none =>
      cases hrecord : dir.record with
      | none => exact Or.inl rfl
      | some record =>
        dsimp only
        split_ifs with hstate hepoch
        · exact Or.inl rfl
        · exact Or.inl rfl
        unfold stageLocked
        cases hplanned : admitPlan config call.env call.request record dir.candidate with
        | error failure => exact Or.inl rfl
        | ok plan =>
          have hplan := planPatches_spec (admitPlan_eq_ok hplanned).2.2.2
          dsimp only
          have hcases : (applyStage sha call.env record plan dir).1 = dir ∨ _ :=
            evidence_applyStage hplan
          rcases hcases with hsame | ⟨after, hafter, hrows | ⟨hrows, hmarker, hnot⟩⟩
          · exact Or.inl hsame
          · exact Or.inr ⟨record, after, rfl, hafter, Or.inl hrows⟩
          · refine Or.inr ⟨record, after, rfl, hafter, Or.inr ⟨hrows, ?_, plan, hplanned, hnot⟩⟩
            exact ⟨hlock, hload, not_not.mp hstate, not_not.mp hepoch, hmarker⟩

end Stage

lemma FreshRowsCurrent.stage (h : FreshRowsCurrent dir) {call : StageCall}
    (hcall : FinishesWriting config dir (.stage call)) :
    FreshRowsCurrent (stageBlocking sha config call.env call.request dir).1 := by
  rcases evidence_stageBlocking sha config call dir with
    hsame | ⟨record, after, hrecord, hafter, hrows | ⟨hrows, hmarker, plan, hplanned, hnot⟩⟩
  · rwa [hsame]
  · exact freshRowsCurrent_of_dead hafter fun row hrow => isLive_of_mem_supersede (hrows ▸ hrow)
  · refine freshRowsCurrent_of_dead hafter fun row hrow => ?_
    by_contra hlive
    refine hnot (hcall record hrecord ?_ plan (by rw [hplanned]; rfl) hmarker)
    exact List.any_eq_true.mpr ⟨row, hrows ▸ hrow, by simpa using hlive⟩

lemma FreshRowsCurrent.step
    (h : FreshRowsCurrent dir) {call : ServiceCall} (hcall : FinishesWriting config dir call) :
    FreshRowsCurrent (serviceStep sha config dir call) := by
  cases call with
  | create env =>
    unfold serviceStep
    split_ifs
    · exact freshRowsCurrent_createBlocking sha config env
    · exact h
  | stage call => exact h.stage hcall
  | validate env request => exact h.validate env request
  | inspect id fault => exact h
  | «export» env id => exact h.export env id
  | discard env id => exact h.discard env id
  | restart env => exact h.restart env

lemma FreshRowsCurrent.reports (h : FreshRowsCurrent dir) : ReportsVerifiedOnlyReady sha dir := by
  have hpass : ∀ record, dir.record = some record → record.currentRevisionFreshPass = true →
      ∃ record, dir.record = some record ∧ record.state = .ready ∧
        ∃ row ∈ record.evidence, row.revision = record.revision ∧ row.fresh = true ∧ row.authoritative = true := by
    intro record hrecord hverified
    obtain ⟨row, hrow, hrevision, hfresh, hauth⟩ :=
      ChangeRecord.exists_of_currentRevisionFreshPass hverified
    have hready := (h record hrecord row hrow (by simp [StoredEvidence.isLive, hfresh])).1
    exact ⟨record, hrecord, hready, row, hrow, hrevision, hfresh, hauth⟩
  refine ⟨fun id fault hverified => ?_, fun env id hverified => ?_⟩
  · unfold inspect at hverified
    split at hverified
    · rename_i hload
      rw [verified_of_loadRecord hload] at hverified
      cases hverified
    next record hload => exact hpass record (loadRecord_eq_ok hload) hverified
  · have hresult := exportResult_exportChange sha env id dir
    generalize exportChange sha env id dir = result at hresult hverified
    cases hresult with
    | refused hfalse =>
      rw [hfalse] at hverified
      cases hverified
    | failed _ _ hfalse =>
      rw [hfalse] at hverified
      cases hverified
    | exported hrecord _ _ hdata =>
      rw [hdata] at hverified
      exact hpass _ hrecord hverified

/-- In every run in which no stage stops behind its marker while there are fresh rows, such rows
exist only in ready records, for the current revision, and no other state is reported as verified.
-/
theorem evidence_is_fresh_only_when_ready {sha : ByteArray → String} {config : ChangeConfig}
    {calls : List ServiceCall}
    (h : Runs.Along (serviceStep sha config) (FinishesWriting config) .absent calls) :
    FreshRowsCurrent (Runs.run (serviceStep sha config) .absent calls) ∧
      ReportsVerifiedOnlyReady sha (Runs.run (serviceStep sha config) .absent calls) := by
  have habsent : FreshRowsCurrent .absent := by
    intro record hrecord
    simp [ChangeDir.absent] at hrecord
  have hfinal := h.invariant (P := FreshRowsCurrent) (fun dir call hdir hcall => hdir.step hcall)
    habsent
  exact ⟨hfinal, hfinal.reports⟩

/-- The surroundings of a validation in which nothing fails and the gate passes. -/
def ValidateEnv.passing : ValidateEnv where
  loadFault := none
  workspaceEpoch := 1
  cancelledBefore := false
  lock := .acquired
  reloadFault := none
  candidateIsSymlink := false
  saveActivity := none
  activityMs := 0
  saveFailed := none
  failedMs := 0
  missingDependency := none
  guardFault := none
  gate := ⟨.fullPass, [], none, 0, none⟩
  cancelledAfter := false
  loadAfterFault := none
  epochAfter := 1
  recordedAtMs := 0
  saveEvidence := none
  evidenceMs := 0

/-- The request of a caller who knows the current revision and base. -/
def ChangeDir.validateRequest (dir : ChangeDir) : ValidateRequest :=
  ⟨"chg-0-1-0", dir.record.map ChangeRecord.revision, dir.record.map ChangeRecord.baseIdentity⟩

/-- A create, a validation that passes, and a stage in the given surroundings. -/
def validatedThenStaged (env : StageEnv) : List ServiceCall :=
  [.create (.quiet oneFileSource), .validate .passing oneFileChange.1.validateRequest,
    .stage { (Timeline.ofCreate oneFileChange.1).call [⟨"lib.rs", "one", "first"⟩] [] with env }]

theorem evidence_is_fresh_only_when_ready_after_stage :
    ((Runs.run (serviceStep Sha256.sha256Hex .default) .absent
        (validatedThenStaged .quiet)).record.map fun record =>
          (record.state, record.revision, record.evidence.map StoredEvidence.isLive)) =
        some (.ready, 1, [false]) ∧
      FreshRowsCurrent (Runs.run (serviceStep Sha256.sha256Hex .default) .absent
        (validatedThenStaged .quiet)) :=
  ⟨by decide +kernel, (evidence_is_fresh_only_when_ready (by decide +kernel)).1⟩

/-- The surroundings of a stage whose first candidate write fails. -/
def StageEnv.diskFull : StageEnv :=
  { StageEnv.quiet with apply := fun _ => some (.write "No space left on device (os error 28)") }

/-- The passing row stays fresh in a failed record, and inspect reports it as verified. -/
theorem failed_stage_leaves_fresh_evidence :
    ¬ ∀ (sha : ByteArray → String) (config : ChangeConfig) (calls : List ServiceCall),
      FreshRowsCurrent (Runs.run (serviceStep sha config) .absent calls) ∧
        ReportsVerifiedOnlyReady sha (Runs.run (serviceStep sha config) .absent calls) := by
  intro hclaim
  obtain ⟨-, hinspect, -⟩ := hclaim Sha256.sha256Hex .default (validatedThenStaged .diskFull)
  have hverified : (inspect "chg-0-1-0" none (Runs.run (serviceStep Sha256.sha256Hex .default)
      .absent (validatedThenStaged .diskFull))).data.verified = true := by decide +kernel
  have hstate : ((Runs.run (serviceStep Sha256.sha256Hex .default) .absent
      (validatedThenStaged .diskFull)).record.map ChangeRecord.state) =
      some .failedInconsistent := by decide +kernel
  obtain ⟨record, hrecord, hready, -⟩ := hinspect _ _ hverified
  rw [hrecord, Option.map_some, hready] at hstate
  cases hstate

end AgzRustMcp
