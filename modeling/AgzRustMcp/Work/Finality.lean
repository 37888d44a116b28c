import AgzRustMcp.Work.Sessions

/-!
# When final states are final

`finish_error` and `cancel` treat a session that is ready, blocked, failed or cancelled as finished;
`set_state` and `commit` protect cancelled sessions only.  So a call with an old copy may write over
the result of another one (`overwritten_failure_becomes_ready`).  In every run in which none does, a
finished session stays finished (`finished_sessions_stay_finished`).
-/

namespace AgzRustMcp

open Tasks

/-- Nothing is published for a finished session, nor written to it but by one who read it so. -/
def WritesCurrent : WorkGuard := fun w _ label _ =>
  match label with
  | .setState id _ => ∀ current ∈ w.state.records[id]?, current.state.isTerminal = true → current.state = .cancelled
  | .commit read record => ∀ current ∈ w.state.records[record.id]?,
      current.state.isTerminal = true → current.state = .cancelled ∨ current = read
  | _ => True

/-- Whether a step writes an outdated copy can be checked. -/
instance (w : WorkWorld) (i : ℕ) (label : WorkLabel) (input : WorkInput) :
    Decidable (WritesCurrent w i label input) := by
  unfold WritesCurrent
  split <;> infer_instance

section Finality

variable {service : WorkService} {calls : List WorkCall} {schedule : List (ℕ × WorkInput)}
  {i : ℕ} {id : String} {w : WorkWorld} {record : WorkRecord}

/-- A finished session is as it was, or was given up for a new one. -/
structure Finished (w : WorkWorld) (id : String) (record : WorkRecord) : Prop where
  started : ∃ k, Inserted w k id
  stored : ∀ later, w.state.records[id]? = some later →
    later = { record with reason := later.reason, updatedAtMs := later.updatedAtMs }

lemma WorkInv.finished (h : WorkInv service calls w)
    (hrecord : w.state.records[id]? = some record) : Finished w id record := by
  obtain ⟨rfl, hsound⟩ := h.stored id record hrecord
  obtain ⟨k, first, hdid, hid, -⟩ := hsound.session
  refine ⟨⟨k, first, hdid, hid⟩, fun later hlater => ?_⟩
  obtain rfl := Option.some.inj (hrecord.symm.trans hlater)
  rfl

lemma Lawful.not_started {k : ℕ} (hinv : WorkInv service calls w)
    (h : Lawful service calls i w (.insert record)) : ¬ Inserted w k record.id := by
  rintro ⟨first, hdid, hid⟩
  obtain ⟨⟨now, n, hreserved, hnew⟩, hfirst, -⟩ := h
  obtain ⟨now', n', hreserved', hold⟩ := hinv.inserted k first.id ⟨first, hdid, rfl⟩
  obtain rfl : n = n' := nextWorkId_inj (hnew.symm.trans (hid.symm.trans hold))
  obtain rfl : i = k := hinv.reserved_unique i k n hreserved hreserved'
  exact hfirst first hdid

lemma Finished.next {label : WorkLabel} {input : WorkInput} (h : Finished w id record)
    (hinv : WorkInv service calls w) (hterminal : record.state.isTerminal = true)
    (hlawful : Lawful service calls i w label) (hcurrent : WritesCurrent w i label input) :
    Finished (label.next i w input) id record := by
  obtain ⟨k, hstarted⟩ := h.started
  refine ⟨⟨k, hstarted.next⟩, fun later hlater => ?_⟩
  cases storedFrom_next hlater with
  | old hold => exact h.stored later hold
  | inserted hlabel hkey =>
    subst hlabel hkey
    exact absurd hstarted (hlawful.not_started hinv)
  | @published state current hlabel hstored hstate =>
    -- The session is finished and not cancelled, so nobody publishes a state for it.
    subst hlabel
    have hsame : current.state = record.state := by rw [h.stored current hstored]
    exact absurd (hcurrent current hstored (hsame ▸ hterminal)) hstate
  | @committed read copy current hlabel hkey hstored hstate =>
    -- The copy was read from the finished session, and such a copy keeps everything but its reason.
    subst hlabel hkey
    have hsame : current.state = record.state := by rw [h.stored current hstored]
    rcases hcurrent current hstored (hsame ▸ hterminal) with hcancelled | rfl
    · exact absurd hcancelled hstate
    · have hcopy := hlawful.2.1 (hsame ▸ hterminal)
      have hread := h.stored current hstored
      rw [hcopy, hread]

/-- In every run in which no call writes an outdated copy over a finished session, a finished
session keeps everything but its reason and the time of its last write, for as long as it is stored.
-/
theorem finished_sessions_stay_finished (service : WorkService) (calls : List WorkCall)
    (schedule more : List (ℕ × WorkInput))
    (hcurrent : (workPool service calls).Along WritesCurrent (schedule ++ more))
    (id : String) (record later : WorkRecord)
    (hrecord : (workRun service calls schedule).state.records[id]? = some record)
    (hterminal : record.state.isTerminal = true)
    (hlater : (workRun service calls (schedule ++ more)).state.records[id]? = some later) :
    later.state = record.state ∧
      later = { record with reason := later.reason, updatedAtMs := later.updatedAtMs } := by
  obtain ⟨hfirst, hrest⟩ := Runs.along_append.mp hcurrent
  have hmeet := workPool_meets service calls WritesCurrent
  have hinv : WorkInv service calls (workRun service calls schedule) :=
    workInv_run service calls schedule
  have hmove : ∀ j w w', WorkMove service calls WritesCurrent j w w' →
      WorkInv service calls w ∧ Finished w id record →
      WorkInv service calls w' ∧ Finished w' id record := by
    rintro j w w' hmove ⟨hw, hfinished⟩
    obtain ⟨label, input, hlawful, hguard, rfl⟩ := hmove.step
    exact ⟨hw.next hlawful, hfinished.next hw hterminal hlawful hguard⟩
  have hdone := (Pool.invariant_run (Pool.meets_run hmeet hfirst).1 hrest
    ⟨hinv, hinv.finished hrecord⟩ hmove).2
  have hrun : workRun service calls (schedule ++ more) = (((workPool service calls).run schedule).run more).world :=
    congrArg Pool.world Runs.run_append
  rw [hrun] at hlater
  have heq := hdone.stored later hlater
  exact ⟨by rw [heq], heq⟩

/-! A start that stages a candidate, and an inspection of its session from another workspace. -/

def overlappingCalls : List WorkCall :=
  [sampleStart [⟨"src/a", "x", "y"⟩],
    ⟨⟨.inspect, some "wk-1-7-0", none, none, none, [], [], .none, ⟨0, 0, 0, 0⟩⟩, ⟨"/other", 1⟩⟩]

/-- The start runs until its gate has passed; then the inspection is refused. -/
def untilRefused : List (ℕ × WorkInput) :=
  sampleSteps 0 8 (sampleAnswer "CREATED" 0) ++ sampleSteps 0 5 (sampleAnswer "STAGED" 1) ++
    sampleSteps 0 4 (sampleAnswer "PASS" 1) ++ sampleSteps 1 3 (sampleAnswer "" 0)

/-- An inspection fails the session, and the start makes it ready. -/
theorem overwritten_failure_becomes_ready :
    ¬ ∀ (record later : WorkRecord),
      (workRun sampleService overlappingCalls untilRefused).state.records["wk-1-7-0"]? =
        some record → record.state.isTerminal = true →
      (workRun sampleService overlappingCalls
        (untilRefused ++ sampleSteps 0 3 (sampleAnswer "" 0))).state.records["wk-1-7-0"]? =
        some later → later.state = record.state := by
  have hstates :
      (workRun sampleService overlappingCalls untilRefused).state.records["wk-1-7-0"]?.map
        WorkRecord.state = some .failed ∧
      (workRun sampleService overlappingCalls
        (untilRefused ++ sampleSteps 0 3 (sampleAnswer "" 0))).state.records["wk-1-7-0"]?.map
        WorkRecord.state = some .ready := by decide +kernel
  obtain ⟨hfailed, hready⟩ := hstates
  obtain ⟨record, hrecord, hrecordState⟩ := Option.map_eq_some_iff.mp hfailed
  obtain ⟨later, hlater, hlaterState⟩ := Option.map_eq_some_iff.mp hready
  intro h
  have hsame := h record later hrecord (by rw [hrecordState]; rfl) hlater
  rw [hrecordState, hlaterState] at hsame
  exact absurd hsame (by decide)

/-- The second resume is refused, and changes the reason only. -/
theorem finished_sessions_stay_finished_resumed_twice :
    ∃ record later : WorkRecord, record.state = .ready ∧
      later.reason = "the continuation token was already consumed or superseded" ∧
      later.state = record.state ∧
      later = { record with reason := later.reason, updatedAtMs := later.updatedAtMs } := by
  have hready : (workRun sampleService [sampleStart [], sampleResume, sampleResume]
      (resumeSchedule.take 40)).state.records["wk-1-7-0"]?.map WorkRecord.state = some .ready := by
    decide +kernel
  have hrefused : (workRun sampleService [sampleStart [], sampleResume, sampleResume]
      (resumeSchedule.take 40 ++ resumeSchedule.drop 40)).state.records["wk-1-7-0"]?.map
        WorkRecord.reason =
      some "the continuation token was already consumed or superseded" := by decide +kernel
  obtain ⟨record, hrecord, hstate⟩ := Option.map_eq_some_iff.mp hready
  obtain ⟨later, hlater, hreason⟩ := Option.map_eq_some_iff.mp hrefused
  exact ⟨record, later, hstate, hreason,
    finished_sessions_stay_finished sampleService [sampleStart [], sampleResume, sampleResume]
      (resumeSchedule.take 40) (resumeSchedule.drop 40) (by decide +kernel) "wk-1-7-0" record later
      hrecord (by rw [hstate]; rfl) hlater⟩

end Finality

end AgzRustMcp
