import AgzRustMcp.Change.Freshness

/-!
# Compiler feedback of superseded rows

A row that lost its freshness should carry no feedback: it describes other bytes than the
candidate's.  `RowOrigin` says where a row of the record can come from; only the recovery of an
interrupted stage takes the freshness alone (`RecoversBare`).
-/

namespace AgzRustMcp

/-- The row carries no diagnostics and no suggestions. -/
def StoredEvidence.isBare (row : StoredEvidence) : Bool :=
  row.diagnostics.isEmpty && row.suggestionPackage.isNone

def StaleRowsBare (dir : ChangeDir) : Prop :=
  ∀ record, dir.record = some record → ∀ row ∈ record.evidence, row.fresh = false → row.isBare = true

/-- A recovery that saves the record of an interrupted stage finds bare rows in it. -/
def RecoversBare (config : ChangeConfig) (dir : ChangeDir) : ServiceCall → Prop
  | .restart env =>
    ∀ record ∈ (sweep config env dir).record, record.state = .applying → env.recoverLock = .acquired →
      env.recoverLoadFault = none → env.saveFault = none → ∀ row ∈ record.evidence, row.isBare = true
  | _ => True

/-! ## Where rows come from -/

/-- A row was in the record before, or it was superseded, or a validation made it. -/
inductive RowOrigin (dir : ChangeDir) (row : StoredEvidence) : Prop
  | kept {record : ChangeRecord} : dir.record = some record → row ∈ record.evidence → RowOrigin dir row
  | superseded (old : StoredEvidence) : row = old.supersede → RowOrigin dir row
  | measured {revision recordedAtMs : ℕ} {fresh : Bool} {evidence : GateEvidence} :
      row ∈ evidenceRows revision fresh recordedAtMs evidence → RowOrigin dir row

section

variable {sha : ByteArray → String} {config : ChangeConfig} {dir : ChangeDir} {record : ChangeRecord}
  {row : StoredEvidence}

lemma RowOrigin.of_mem_supersede {rows : List StoredEvidence} (h : row ∈ rows.map StoredEvidence.supersede) :
    RowOrigin dir row := by
  obtain ⟨old, -, hold⟩ := List.mem_map.mp h
  exact .superseded old hold.symm

lemma isBare_of_mem_evidenceRows {revision recordedAtMs : ℕ} {fresh : Bool} {evidence : GateEvidence}
    (h : row ∈ evidenceRows revision fresh recordedAtMs evidence) (hstale : row.fresh = false) :
    row.isBare = true := by
  unfold evidenceRows at h
  split_ifs at h
  · rw [List.mem_singleton.mp h]
    rfl
  · obtain ⟨step, -, rfl⟩ := List.mem_map.mp h
    obtain rfl : fresh = false := hstale
    rfl

lemma StaleRowsBare.isBare (h : StaleRowsBare dir) (horigin : RowOrigin dir row) (hstale : row.fresh = false) :
    row.isBare = true := by
  cases horigin with
  | kept hrecord hrow => exact h _ hrecord row hrow hstale
  | superseded old hold =>
    rw [hold]
    rfl
  | measured hrow => exact isBare_of_mem_evidenceRows hrow hstale

lemma rowOrigin_validate (env : ValidateEnv) (request : ValidateRequest)
    (hrecord : (validate sha env request dir).1.record = some record) (hrow : row ∈ record.evidence) :
    RowOrigin dir row := by
  have hresult := validateResult_validate sha env request dir
  generalize (validate sha env request dir).1 = dir' at hresult hrecord
  cases hresult with
  | kept => exact .kept hrecord hrow
  | @stored before after hbefore hready hstores =>
    obtain rfl : after = record := Option.some.inj hrecord
    cases hstores with
    | active => exact .kept hbefore hrow
    | failed hverify => exact .of_mem_supersede hrow
    | @evidence base hverify hbase =>
      rw [ChangeRecord.savedAt_evidence] at hrow
      generalize hrows : evidenceRows before.revision (env.freshFor before base) env.recordedAtMs env.gate = rows
        at hrow
      rcases mem_or_mem_of_mem_withEvidence base rows hrow with hrow | hrow
      · rcases hbase with rfl | rfl | rfl
        · exact .kept hbefore hrow
        · exact .kept hbefore hrow
        · exact .of_mem_supersede hrow
      · exact .measured (hrows ▸ hrow)

lemma rowOrigin_export (env : ExportEnv) (id : String)
    (hrecord : (exportChange sha env id dir).1.record = some record) (hrow : row ∈ record.evidence) :
    RowOrigin dir row := by
  have hresult := exportResult_exportChange sha env id dir
  generalize exportChange sha env id dir = result at hresult hrecord
  cases hresult with
  | refused _ => exact .kept hrecord hrow
  | failed _ _ _ =>
    obtain rfl := Option.some.inj hrecord
    exact .of_mem_supersede hrow
  | exported _ _ _ _ => exact .kept hrecord hrow

lemma rowOrigin_discard (env : DiscardEnv) (id : String)
    (hrecord : (discard env id dir).1.record = some record) (hrow : row ∈ record.evidence) : RowOrigin dir row := by
  unfold discard at hrecord
  split at hrecord
  · split_ifs at hrecord
    · exact .kept hrecord hrow
    split at hrecord
    · exact .kept hrecord hrow
    · exact .kept hrecord hrow
    dsimp only [discardLocked, ChangeDir.save] at hrecord
    split_ifs at hrecord
    · exact .kept hrecord hrow
    · obtain rfl := Option.some.inj hrecord
      exact .of_mem_supersede hrow
  · exact .kept hrecord hrow

lemma rowOrigin_stage (call : StageCall)
    (hrecord : (stageBlocking sha config call.env call.request dir).1.record = some record)
    (hrow : row ∈ record.evidence) : RowOrigin dir row := by
  rcases evidence_stageBlocking sha config call dir with hsame | ⟨before, after, hbefore, hafter, hrows⟩
  · exact .kept (hsame ▸ hrecord) hrow
  · obtain rfl := Option.some.inj (hafter.symm.trans hrecord)
    rcases hrows with hrows | ⟨hrows, -, -⟩
    · exact .of_mem_supersede (hrows ▸ hrow)
    · exact .kept hbefore (hrows ▸ hrow)

lemma rowOrigin_serviceStep {call : ServiceCall} (hcall : ∀ env, call ≠ .restart env)
    (hrecord : (serviceStep sha config dir call).record = some record) (hrow : row ∈ record.evidence) :
    RowOrigin dir row := by
  cases call with
  | create env =>
    unfold serviceStep at hrecord
    split_ifs at hrecord
    · rw [evidence_createBlocking sha config env hrecord] at hrow
      exact absurd hrow List.not_mem_nil
    · exact .kept hrecord hrow
  | stage call => exact rowOrigin_stage call hrecord hrow
  | validate env request => exact rowOrigin_validate env request hrecord hrow
  | inspect id fault => exact .kept hrecord hrow
  | «export» env id => exact rowOrigin_export env id hrecord hrow
  | discard env id => exact rowOrigin_discard env id hrecord hrow
  | restart env => exact absurd rfl (hcall env)

/-! ## Restarts -/

lemma Removal.record_apply {removal : Removal} (h : (removal.apply dir).record = some record) :
    dir.record = some record := by
  cases removal with
  | complete => simp [Removal.apply, ChangeDir.absent] at h
  | stopped keepsRecord keepsManifest candidate =>
    simp only [Removal.apply] at h
    split_ifs at h
    exact h

lemma record_sweep {env : RestartEnv} (h : (sweep config env dir).record = some record) :
    dir.record = some record := by
  unfold sweep at h
  split at h
  · dsimp only at h
    split_ifs at h
    · exact Removal.record_apply h
    · exact h
  · exact h

lemma StaleRowsBare.recoverInterrupted (h : StaleRowsBare dir) (env : RestartEnv) :
    StaleRowsBare (AgzRustMcp.recoverInterrupted env dir) ↔
      ∀ record ∈ dir.record, record.state = .applying → env.recoverLock = .acquired →
        env.recoverLoadFault = none → env.saveFault = none → ∀ row ∈ record.evidence, row.isBare = true := by
  unfold AgzRustMcp.recoverInterrupted
  split
  next record hlock hload hrecord =>
    have hother : record.state ≠ .applying → ∀ record ∈ dir.record, record.state = .applying →
        env.recoverLock = .acquired → env.recoverLoadFault = none → env.saveFault = none →
        ∀ row ∈ record.evidence, row.isBare = true := by
      intro hstate stored hstored happlying
      obtain rfl := Option.some.inj (hrecord.symm.trans hstored)
      exact absurd happlying hstate
    cases hstate : record.state with
    | applying =>
      unfold ChangeDir.save
      split_ifs with hfault
      · refine iff_of_true h fun _ _ _ _ _ hsaved => ?_
        rw [hsaved] at hfault
        cases hfault
      · constructor
        · intro hbare stored hstored _ _ _ _ row hrow
          obtain rfl := Option.some.inj (hrecord.symm.trans hstored)
          exact hbare _ rfl { row with fresh := false, authoritative := false } (List.mem_map_of_mem hrow) rfl
        · intro hbare stored hstored row hrow _
          obtain rfl := Option.some.inj hstored
          obtain ⟨old, hold, rfl⟩ := List.mem_map.mp hrow
          exact hbare record hrecord hstate hlock hload (by simpa using hfault) old hold
    | capturing =>
      refine iff_of_true (fun stored hstored => h stored ?_) (hother (by simp [hstate]))
      exact Removal.record_apply hstored
    | ready => exact iff_of_true h (hother (by simp [hstate]))
    | failedInconsistent => exact iff_of_true h (hother (by simp [hstate]))
    | discarded => exact iff_of_true h (hother (by simp [hstate]))
  next hnone => exact iff_of_true h fun record hrecord _ hlock hload => (hnone record hlock hload hrecord).elim

lemma StaleRowsBare.serviceStep (h : StaleRowsBare dir) (call : ServiceCall) :
    StaleRowsBare (AgzRustMcp.serviceStep sha config dir call) ↔ RecoversBare config dir call := by
  have hkept : (∀ env, call ≠ .restart env) → StaleRowsBare (AgzRustMcp.serviceStep sha config dir call) :=
    fun hcall record hrecord row hrow => h.isBare (rowOrigin_serviceStep hcall hrecord hrow)
  cases call with
  | restart env =>
    have hswept : StaleRowsBare (sweep config env dir) := fun record hrecord => h record (record_sweep hrecord)
    exact hswept.recoverInterrupted env
  | _ => exact iff_of_true (hkept (by simp)) trivial

end

/-- Rows that are not fresh never carry feedback exactly when no recovery saves an interrupted stage
with some. -/
theorem stale_rows_bare_iff (sha : ByteArray → String) (config : ChangeConfig) (calls : List ServiceCall) :
    Runs.Throughout (serviceStep sha config) StaleRowsBare .absent calls ↔
      Runs.Along (serviceStep sha config) (RecoversBare config) .absent calls := by
  have habsent : StaleRowsBare .absent := by
    intro record hrecord
    simp [ChangeDir.absent] at hrecord
  exact Runs.throughout_iff_along (I := fun _ => True) (fun _ _ _ => trivial)
    (fun dir call _ hdir => hdir.serviceStep call) trivial habsent

def GateEvidence.failing : GateEvidence where
  status := .fail
  steps := [⟨"app", "cargo check", 101, some 5, 9, true, true, false, false,
    [⟨some "E0308", "error", some "lib.rs", some 1, "mismatched types"⟩], 0, none⟩]
  firstDiagnosticMs := some 5
  responseMs := 9
  message := none

/-- A create, a failed validation, a stage that dies writing, and a restart. -/
def interruptedAfterFailure : List ServiceCall :=
  [.create (.quiet oneFileSource),
    .validate { ValidateEnv.passing with gate := .failing } oneFileChange.1.validateRequest,
    .stage { (Timeline.ofCreate oneFileChange.1).call [⟨"lib.rs", "one", "first"⟩] [] with
      env := { StageEnv.quiet with crash := some oneFileChange.1.candidate } },
    .restart ⟨0, false, .acquired, none, .complete, .acquired, none, none, 0, .complete⟩]

/-- After the recovery the diagnostics of the old revision are still there. -/
theorem recovery_keeps_feedback :
    ¬ ∀ (sha : ByteArray → String) (config : ChangeConfig) (calls : List ServiceCall),
      StaleRowsBare (Runs.run (serviceStep sha config) .absent calls) := by
  intro hclaim
  have hbare := hclaim Sha256.sha256Hex .default interruptedAfterFailure
  have hrows : ((Runs.run (serviceStep Sha256.sha256Hex .default) .absent interruptedAfterFailure).record.map
      fun record => record.evidence.map fun row => (row.fresh, row.isBare)) = some [(false, false)] := by
    decide +kernel
  obtain ⟨record, hrecord, hevidence⟩ := Option.map_eq_some_iff.mp hrows
  obtain ⟨row, hrow, hvalues⟩ := List.mem_map.mp (hevidence ▸ List.mem_singleton_self (false, false))
  obtain ⟨hfresh, hnot⟩ := Prod.mk.inj hvalues
  rw [hbare record hrecord row hrow hfresh] at hnot
  cases hnot

end AgzRustMcp
