import AgzRustMcp.Foundation.Sha256
import AgzRustMcp.Work.Calls

/-!
# What holds in every run of the work executor

A run is any list of calls under any schedule, which says whose step is next, what the clock shows,
whether a token is cancelled and what the change service answers.

The change budget of the intent is kept only if the caller keeps to it, because nothing compares the
candidate with it.
-/

namespace AgzRustMcp

open Tasks

/-- The world that a run of the calls reaches. -/
def workRun (service : WorkService) (calls : List WorkCall) (schedule : List (ℕ × WorkInput)) : WorkWorld :=
  ((workPool service calls).run schedule).world

section Sessions

variable {service : WorkService} {calls : List WorkCall} {schedule : List (ℕ × WorkInput)}
  {i j : ℕ} {id token : String} {w : WorkWorld}

/-- The byte strings hashed so far. -/
def digests (w : WorkWorld) : List ByteArray :=
  w.trace.filterMap fun entry =>
    match entry.label with
    | .digest bytes => some bytes
    | _ => none

lemma digested_iff {bytes : ByteArray} : Digested w bytes ↔ bytes ∈ digests w := by
  unfold digests
  rw [List.mem_filterMap]
  constructor
  · rintro ⟨k, entry, hentry, -, hlabel⟩
    exact ⟨entry, hentry, by rw [hlabel]⟩
  · rintro ⟨entry, hentry, hbytes⟩
    refine ⟨entry.task, entry, hentry, rfl, ?_⟩
    split at hbytes
    · next hlabel => rw [hlabel, Option.some.inj hbytes]
    · simp at hbytes

/-- Whether a run met a collision can be checked. -/
instance (sha : ByteArray → String) (w : WorkWorld) : Decidable (CollisionFree sha w) :=
  decidable_of_iff (∀ x ∈ digests w, ∀ y ∈ digests w, sha x = sha y → x = y) <| by
    simp only [CollisionFree, digested_iff]
    exact ⟨fun h x y hx hy => h x hx y hy, fun h x hx y hy => h x y hx hy⟩

/-- Whether a call made a step can be checked. -/
instance (w : WorkWorld) (i : ℕ) (label : WorkLabel) : Decidable (Did w i label) :=
  inferInstanceAs (Decidable (∃ entry ∈ w.trace, entry.task = i ∧ entry.label = label))

lemma along_unguarded (pool : Pool WorkStore WorkInput WorkLabel WorkOutcome) :
    pool.Along (fun _ _ _ _ => True) schedule :=
  Runs.along_of_forall fun _ _ _ _ _ _ _ _ => trivial

/-- The invariant holds after every run. -/
theorem workInv_run (service : WorkService) (calls : List WorkCall) (schedule : List (ℕ × WorkInput)) :
    WorkInv service calls (workRun service calls schedule) := by
  refine Pool.invariant_run (workPool_meets service calls fun _ _ _ _ => True)
    (along_unguarded _) workInv_empty ?_
  rintro j w w' hmove hw
  obtain ⟨label, input, hlawful, -, rfl⟩ := hmove.step
  exact hw.next hlawful

/-- Every finished call reported what the protocol says. -/
theorem reports_run {outcome : WorkOutcome}
    (h : ((workPool service calls).run schedule).tasks[i]? = some (.done outcome)) :
    Reports (workRun service calls schedule) outcome :=
  (Pool.result_run (workPool_meets service calls fun _ _ _ _ => True) (along_unguarded _) h).2

/-! ## Continuation tokens -/

lemma WorkInv.admitted_of_staged (h : WorkInv service calls w) (hpresents : Presents calls i id token)
    {request : ChangeRequest} (hdid : Did w i (.call request)) (hstage : request.action = .stage) :
    ∃ m, Admitted calls w i id m := by
  obtain ⟨call, hcall, haction, hid, -⟩ := hpresents
  obtain ⟨⟨k, first, -, hjoined⟩, -⟩ := h.staged i request hdid hstage
  rcases hjoined.1 with ⟨record, hinserted, -⟩ | ⟨m, hadmitted⟩
  · -- A call that starts a session is no resume.
    obtain ⟨call', hcall', haction', -⟩ := h.started i record hinserted
    obtain rfl := Option.some.inj (hcall.symm.trans hcall')
    rw [haction] at haction'
    simp at haction'
  · obtain ⟨token', call', hcall', -, hid', -⟩ := hadmitted.2
    obtain rfl := Option.some.inj (hcall.symm.trans hcall')
    obtain rfl := Option.some.inj (hid.symm.trans hid')
    exact ⟨m, hadmitted⟩

lemma zero_not_mem_nextWorkId {processId now n : ℕ} : '\x00' ∉ (nextWorkId processId now n).toList := by
  have hhex : ∀ k, '\x00' ∉ Nat.toDigits 16 k := by
    intro k hk
    obtain ⟨d, hd, heq⟩ := Numerals.exists_of_mem_toDigits (by decide) (by decide) hk
    have hsep : ∀ d < 16, '\x00' ≠ Nat.digitChar d := by decide
    exact hsep d hd heq
  have hstem : workIdPrefix.toList = ['w', 'k', '-'] := by decide
  have hdash : "-".toList = ['-'] := by decide
  simp [nextWorkId, lowerHex, hstem, hdash, hhex]

lemma zeroField_inj {start s t u v : String} (hs : '\x00' ∉ s.toList) (ht : '\x00' ∉ t.toList)
    (h : start ++ (s ++ ("\x00" ++ u)) = start ++ (t ++ ("\x00" ++ v))) : s = t := by
  have hzero : "\x00".toList = ['\x00'] := by decide
  have hlist := congrArg String.toList h
  simp only [String.toList_append, List.append_cancel_left_eq, hzero, List.singleton_append] at hlist
  exact String.toList_inj.mp (Numerals.append_cons_inj hs ht hlist).1

lemma session_of_tokenText {id' : String} {revision revision' n n' issuedAtMs issuedAtMs' : ℕ}
    {patchHash patchHash' : String} (hid : '\x00' ∉ id.toList) (hid' : '\x00' ∉ id'.toList)
    (h : tokenText id revision patchHash n issuedAtMs =
      tokenText id' revision' patchHash' n' issuedAtMs') : id = id' := by
  unfold tokenText at h
  simp only [String.append_assoc] at h
  exact zeroField_inj hid hid' h

lemma WorkInv.zero_not_mem {m : ℕ} (h : WorkInv service calls w) (hi : Admitted calls w i id m) :
    '\x00' ∉ id.toList := by
  obtain ⟨k, hinserted⟩ := h.handedOff id (h.admitted i id m hi)
  obtain ⟨now, n, -, rfl⟩ := h.inserted k id hinserted
  exact zero_not_mem_nextWorkId

lemma WorkInv.admits_once {id' : String} {m m' : ℕ} (h : WorkInv service calls w)
    (hfree : CollisionFree service.sha w) (hi : Presents calls i id token)
    (hj : Presents calls j id' token) (hm : Admitted calls w i id m) (hm' : Admitted calls w j id' m') : i = j := by
  obtain ⟨n, -, revision, patchHash, issuedAtMs, heq, htext, -⟩ := h.number hfree i id m token hm hi
  obtain ⟨n', -, revision', patchHash', issuedAtMs', heq', htext', -⟩ :=
    h.number hfree j id' m' token hm' hj
  obtain rfl : id = id' := session_of_tokenText (h.zero_not_mem hm) (h.zero_not_mem hm')
    (String.toByteArray_inj.mp (hfree _ _ htext htext' (heq.symm.trans heq')))
  exact h.single hfree i j id m m' token hm hm' hi hj

/-- Two resumes with one token are not both admitted, nor stage both. -/
theorem token_is_single_use (service : WorkService) (calls : List WorkCall)
    (schedule : List (ℕ × WorkInput)) (id id' token : String) (i j : ℕ)
    (hfree : CollisionFree service.sha (workRun service calls schedule))
    (hi : Presents calls i id token) (hj : Presents calls j id' token) (hne : i ≠ j) :
    (∀ m m', Admitted calls (workRun service calls schedule) i id m →
      ¬ Admitted calls (workRun service calls schedule) j id' m') ∧
    ∀ request request', request.action = .stage → request'.action = .stage →
      Did (workRun service calls schedule) i (.call request) →
      ¬ Did (workRun service calls schedule) j (.call request') := by
  have hinv : WorkInv service calls _ := workInv_run service calls schedule
  have hsingle : ∀ m m', Admitted calls (workRun service calls schedule) i id m →
      ¬ Admitted calls (workRun service calls schedule) j id' m' :=
    fun m m' hm hm' => hne (hinv.admits_once hfree hi hj hm hm')
  refine ⟨hsingle, fun request request' hstage hstage' hdid hdid' => ?_⟩
  obtain ⟨m, hm⟩ := hinv.admitted_of_staged hi hdid hstage
  obtain ⟨m', hm'⟩ := hinv.admitted_of_staged hj hdid' hstage'
  exact hsingle m m' hm hm'

/-! One session is started without a candidate and handed off, and then resumed twice with the same
token.  The first resume is admitted and stages its candidate. -/

/-- A service with four sessions. -/
def sampleService : WorkService := ⟨Sha256.sha256Hex, ⟨4, 1000⟩, ⟨true, true, true, true, true⟩, true, 7⟩

/-- An intent with one gate that allows one patch below `src`. -/
def sampleIntent : WorkIntent := ⟨.implementWithContract, ["src"], "c", "s", [.check], ⟨1, 0⟩⟩

/-- A start with the sample intent and a candidate. -/
def sampleStart (patches : List PatchInput) : WorkCall :=
  ⟨⟨.start, none, none, none, some sampleIntent, patches, [], .none, ⟨4, 4, 4, 1000⟩⟩, ⟨"/w", 1⟩⟩

/-- The token of the first handoff of the first session. -/
def sampleToken : String := generateToken Sha256.sha256Hex "wk-1-7-0" 0 "ph" 1 1

/-- A resume of the first session. -/
def sampleResume : WorkCall :=
  ⟨⟨.resume, some "wk-1-7-0", some sampleToken, none, none, [⟨"src/a", "x", "y"⟩], [], .none,
    ⟨4, 4, 4, 1000⟩⟩, ⟨"/w", 1⟩⟩

/-- An answer of the change service about the change `chg-1`. -/
def sampleAnswer (status : String) (revision : ℕ) : ChangeOutcome :=
  ⟨status, "", false, { ChangeData.absent .create (some "chg-1") "" with
    state := "ready", revision, patchHash := some "ph", baseIdentity := some "b" }⟩

/-- Some steps of one call, with the same input. -/
def sampleSteps (i count : ℕ) (outcome : ChangeOutcome) : List (ℕ × WorkInput) :=
  List.replicate count (i, ⟨1, false, outcome⟩)

/-- The start runs to its end; the second resume waits for the first one. -/
def resumeSchedule : List (ℕ × WorkInput) :=
  sampleSteps 0 16 (sampleAnswer "CREATED" 0) ++ sampleSteps 1 3 (sampleAnswer "" 0) ++
    sampleSteps 2 1 (sampleAnswer "" 0) ++ sampleSteps 1 4 (sampleAnswer "INSPECTED" 0) ++
    sampleSteps 1 7 (sampleAnswer "STAGED" 1) ++ sampleSteps 1 9 (sampleAnswer "PASS" 1) ++
    sampleSteps 2 5 (sampleAnswer "" 0)

/-- The run of the start and the two resumes. -/
def resumedTwice : WorkWorld :=
  workRun sampleService [sampleStart [], sampleResume, sampleResume] resumeSchedule

/-- In this run only the first resume stages its candidate. -/
theorem token_is_single_use_resumed_twice :
    Did resumedTwice 1 (.call (stageRequest "chg-1" 0 "b" [⟨"src/a", "x", "y"⟩] [])) ∧
      ∀ request, request.action = .stage → ¬ Did resumedTwice 2 (.call request) := by
  have hstaged : Did resumedTwice 1
      (.call (stageRequest "chg-1" 0 "b" [⟨"src/a", "x", "y"⟩] [])) := by decide +kernel
  refine ⟨hstaged, fun request hrequest => ?_⟩
  exact (token_is_single_use sampleService [sampleStart [], sampleResume, sampleResume]
    resumeSchedule "wk-1-7-0" "wk-1-7-0" sampleToken 1 2 (by decide +kernel)
    ⟨sampleResume, rfl, rfl, rfl, rfl⟩ ⟨sampleResume, rfl, rfl, rfl, rfl⟩ (by decide)).2
      (stageRequest "chg-1" 0 "b" [⟨"src/a", "x", "y"⟩] []) request rfl hrequest hstaged

/-! ## Budgets and readiness -/

lemma WorkInv.started_by (h : WorkInv service calls w) {record : WorkRecord}
    (hsound : Sound w record) : ∃ call ∈ calls, call.request.action = .start ∧
      call.request.intent = some record.intent ∧ call.request.budget = record.budget := by
  obtain ⟨k, first, hdid, -, hintent, hbudget⟩ := hsound.session
  obtain ⟨call, hcall, haction, hintent', hbudget', -⟩ := h.started k first hdid
  exact ⟨call, List.mem_of_getElem? hcall, haction, by rw [hintent', hintent],
    by rw [hbudget', hbudget]⟩

/-- A record belongs to a start with its budget, and is ready only after all gates passed. -/
theorem sound_run {id : String} {record : WorkRecord}
    (h : (workRun service calls schedule).state.records[id]? = some record) :
    (∃ call ∈ calls, call.request.action = .start ∧ call.request.intent = some record.intent ∧
      call.request.budget = record.budget) ∧ Sound (workRun service calls schedule) record := by
  have hinv : WorkInv service calls _ := workInv_run service calls schedule
  have hsound := (hinv.stored id record h).2
  exact ⟨hinv.started_by hsound, hsound⟩

/-- `READY` is reported only where all gates passed on the revision. -/
theorem reported_ready_run {outcome : WorkOutcome}
    (h : ((workPool service calls).run schedule).tasks[i]? = some (.done outcome))
    (hready : outcome.status = "READY" ∨ outcome.data.state = "ready") :
    ∃ call ∈ calls, ∃ intent changeId, call.request.action = .start ∧ call.request.intent = some intent ∧
      outcome.data.acceptanceGates = (uniqueGates intent).map WorkGate.asStr ∧
      outcome.data.changeId = some changeId ∧ ∀ gate ∈ intent.acceptanceGates,
        Passed (workRun service calls schedule) changeId outcome.data.revision gate := by
  have hinv : WorkInv service calls _ := workInv_run service calls schedule
  cases reports_run h with
  | refused hstatus =>
    rcases hready with hready | hready
    · exact absurd hready hstatus
    · simp [workRefuse] at hready
  | @copy record _ _ _ _ _ _ hsound hstatus =>
    have hstate : record.state = .ready := by
      rcases hready with hready | hready
      · exact hstatus hready
      · exact WorkState.asStr_inj (hready.trans (by rfl : "ready" = WorkState.ready.asStr))
    obtain ⟨call, hcall, haction, hintent, -⟩ := hinv.started_by hsound
    obtain ⟨changeId, hchange, hpassed⟩ := hsound.ready hstate
    exact ⟨call, hcall, record.intent, changeId, haction, hintent, rfl, hchange, hpassed⟩

/-- In every run a session stays within the budget of its start, and is ready, or reported as ready,
only after every acceptance gate passed on the recorded revision. -/
theorem sessions_keep_budget (service : WorkService) (calls : List WorkCall)
    (schedule : List (ℕ × WorkInput)) :
    (∀ (id : String) (record : WorkRecord), (workRun service calls schedule).state.records[id]? = some record →
      (∃ call ∈ calls, call.request.action = .start ∧ call.request.intent = some record.intent ∧
        call.request.budget = record.budget) ∧
      record.candidates ≤ record.budget.maxCandidates ∧
      record.compiles ≤ record.budget.maxCompiles ∧
      record.handoffs ≤ record.budget.maxHandoffs ∧
      (record.state = .ready → ∃ changeId, record.changeId = some changeId ∧ ∀ gate ∈ record.intent.acceptanceGates,
          Passed (workRun service calls schedule) changeId record.revision gate)) ∧
    ∀ (i : ℕ) (outcome : WorkOutcome), ((workPool service calls).run schedule).tasks[i]? = some (.done outcome) →
      outcome.status = "READY" ∨ outcome.data.state = "ready" →
      ∃ call ∈ calls, ∃ intent changeId, call.request.action = .start ∧ call.request.intent = some intent ∧
        outcome.data.acceptanceGates = (uniqueGates intent).map WorkGate.asStr ∧
        outcome.data.changeId = some changeId ∧ ∀ gate ∈ intent.acceptanceGates,
          Passed (workRun service calls schedule) changeId outcome.data.revision gate := by
  constructor
  · intro id record hrecord
    obtain ⟨hstarted, hsound⟩ := sound_run hrecord
    exact ⟨hstarted, hsound.candidates_le, hsound.compiles_le, hsound.handoffs_le, hsound.ready⟩
  · exact fun i outcome houtcome hready => reported_ready_run houtcome hready

/-! ## The declared intent -/

/-- A candidate in scope has no more patches than its change budget. -/
def KeepChangeBudgets (calls : List WorkCall) (w : WorkWorld) : Prop :=
  ∀ i call k first, calls[i]? = some call → Did w k (.insert first) → Joined calls w i first.id →
    candidateScopeError first.intent call.request.patches call.request.newFiles = none →
    call.request.patches.length ≤ first.intent.changeBudget.maxPatches ∧
      call.request.newFiles.length ≤ first.intent.changeBudget.maxNewFiles

/-- In every run whose calls keep to the change budgets, what is staged obeys the intent of its session.
-/
theorem staged_candidates_obey_intent (service : WorkService) (calls : List WorkCall)
    (schedule : List (ℕ × WorkInput))
    (hkeep : KeepChangeBudgets calls (workRun service calls schedule)) :
    ∀ i request, Did (workRun service calls schedule) i (.call request) → request.action = .stage →
      ∃ k first, Did (workRun service calls schedule) k (.insert first) ∧
        Joined calls (workRun service calls schedule) i first.id ∧
        first.intent.Admits request.patches request.newFiles := by
  intro i request hdid hstage
  have hinv : WorkInv service calls _ := workInv_run service calls schedule
  obtain ⟨⟨k, first, hinserted, hjoined, hscope⟩, call, hcall, hpatches, hnewFiles⟩ :=
    hinv.staged i request hdid hstage
  obtain ⟨hpatchesCovered, hnewFilesCovered⟩ := covers_of_candidateScopeError hscope
  obtain ⟨hpatchesLe, hnewFilesLe⟩ :=
    hkeep i call k first hcall hinserted hjoined (by rw [← hpatches, ← hnewFiles]; exact hscope)
  exact ⟨k, first, hinserted, hjoined, by rw [hpatches]; exact hpatchesLe,
    by rw [hnewFiles]; exact hnewFilesLe, hpatchesCovered, hnewFilesCovered⟩

/-! A start whose candidate has two patches where its intent allows one. -/

def overBudgetStart : WorkCall := sampleStart [⟨"src/a", "x", "y"⟩, ⟨"src/b", "x", "y"⟩]

/-- The steps of the call up to its stage call. -/
def overBudgetSchedule : List (ℕ × WorkInput) := sampleSteps 0 12 (sampleAnswer "CREATED" 0)

/-- Both patches are staged, so not every stage call obeys the change budget. -/
theorem overBudget_candidate_is_staged :
    validateIntent sampleIntent = .ok () ∧
    ¬ ∀ i request, Did (workRun sampleService [overBudgetStart] overBudgetSchedule) i (.call request) →
      request.action = .stage →
      ∃ k first, Did (workRun sampleService [overBudgetStart] overBudgetSchedule) k (.insert first) ∧
        Joined [overBudgetStart] (workRun sampleService [overBudgetStart] overBudgetSchedule) i
          first.id ∧
        first.intent.Admits request.patches request.newFiles := by
  refine ⟨by decide +kernel, fun h => ?_⟩
  obtain ⟨k, first, hinserted, -, hadmits⟩ := h 0 (stageRequest "chg-1" 0 "b"
    [⟨"src/a", "x", "y"⟩, ⟨"src/b", "x", "y"⟩] []) (by decide +kernel) rfl
  -- The intent of every session of the run is the one of the only call.
  obtain ⟨call, hcall, -, hintent, -⟩ :=
    (workInv_run sampleService [overBudgetStart] overBudgetSchedule).started k first hinserted
  obtain rfl : call = overBudgetStart := List.mem_singleton.mp (List.mem_of_getElem? hcall)
  obtain hfirst := Option.some.inj hintent
  have hle := hadmits.patches_le
  rw [← hfirst] at hle
  exact absurd hle (by decide)

/-- A start with one patch keeps to the budget, and its patch is staged. -/
theorem staged_candidates_obey_intent_one_patch :
    Did (workRun sampleService [sampleStart [⟨"src/a", "x", "y"⟩]] overBudgetSchedule) 0
      (.call (stageRequest "chg-1" 0 "b" [⟨"src/a", "x", "y"⟩] [])) ∧
    ∀ i request, Did (workRun sampleService [sampleStart [⟨"src/a", "x", "y"⟩]] overBudgetSchedule) i
      (.call request) → request.action = .stage →
      ∃ k first, Did (workRun sampleService [sampleStart [⟨"src/a", "x", "y"⟩]] overBudgetSchedule) k
          (.insert first) ∧
        Joined [sampleStart [⟨"src/a", "x", "y"⟩]]
          (workRun sampleService [sampleStart [⟨"src/a", "x", "y"⟩]] overBudgetSchedule) i first.id ∧
        first.intent.Admits request.patches request.newFiles := by
  refine ⟨by decide +kernel, staged_candidates_obey_intent sampleService
    [sampleStart [⟨"src/a", "x", "y"⟩]] overBudgetSchedule ?_⟩
  intro i call k first hcall hinserted _ _
  obtain ⟨start, hstart, -, hintent, -⟩ :=
    (workInv_run sampleService [sampleStart [⟨"src/a", "x", "y"⟩]] overBudgetSchedule).started k
      first hinserted
  obtain rfl := List.mem_singleton.mp (List.mem_of_getElem? hstart)
  obtain rfl := List.mem_singleton.mp (List.mem_of_getElem? hcall)
  obtain hfirst := Option.some.inj hintent
  rw [← hfirst]
  exact ⟨by decide, by decide⟩

end Sessions

end AgzRustMcp
