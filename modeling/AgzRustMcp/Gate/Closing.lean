import AgzRustMcp.Gate.Scheduler

/-!
# Closing the gate scheduler

`close` cancels the jobs of the map and waits for them.  But a submission may take the place in the
map of a job that was cancelled and has not finished: along a run in which none does, `close`
reaches every unfinished job (`close_reaches_unfinished_jobs`).
-/

namespace AgzRustMcp.Gate

open Std (ExtTreeMap)

variable {α : Type}

/-- A submission puts its job where no unfinished job is. -/
def Scheduler.ReplacesNothing (s : Scheduler α) : SchedulerStep α → Prop
  | .submit root key identityKey =>
    match s.submission root key identityKey with
    | (s', .spawns composite _) => ∀ job ∈ s'.jobAt composite, job.complete = true
    | _ => True
  | _ => True

instance (s : Scheduler α) : (step : SchedulerStep α) → Decidable (s.ReplacesNothing step)
  | .submit root key identityKey =>
    match h : s.submission root key identityKey with
    | (s', .spawns composite _) => decidable_of_iff
        (∀ job ∈ s'.jobAt composite, job.complete = true)
        (by simp only [Scheduler.ReplacesNothing, h])
    | (s', .refused) => .isTrue (by simp only [Scheduler.ReplacesNothing, h])
    | (s', .joins _) => .isTrue (by simp only [Scheduler.ReplacesNothing, h])
  | .act _ _ | .markDirty _ | .close | .retire _ => .isTrue trivial

/-- An unfinished job is in the map; a close cancels it and waits for it. -/
structure ClosingInv (s : Scheduler α) : Prop where
  mapped : ∀ (j : ℕ) (job : Job α), s.spawned[j]? = some job → job.complete = false →
    ∃ composite : String, s.jobs[composite]? = some j
  awaited : s.closing = true → ∀ (j : ℕ) (job : Job α), s.spawned[j]? = some job → job.complete = false →
    j ∈ s.awaited ∧ job.cancelled = true ∧ job.reason.isSome = true

section Steps

variable {s : Scheduler α} {job : Job α}

lemma Scheduler.mem_mapped {j : ℕ} : j ∈ s.mapped ↔ ∃ composite : String, s.jobs[composite]? = some j := by
  unfold mapped
  rw [List.mem_map]
  constructor
  · rintro ⟨⟨composite, i⟩, hmem, rfl⟩
    exact ⟨composite, ExtTreeMap.mem_toList_iff_getElem?_eq_some.mp hmem⟩
  · rintro ⟨composite, hj⟩
    exact ⟨(composite, j), ExtTreeMap.mem_toList_iff_getElem?_eq_some.mpr hj, rfl⟩

lemma Job.cancel_reason (job : Job α) (reason : CancelReason) : (job.cancel reason).reason.isSome = true := by
  cases h : job.reason <;> simp [Job.cancel, h]

/-- What a step on a job keeps: it stays complete, and it stays cancelled. -/
structure Keeps (job job' : Job α) : Prop where
  complete : job'.complete = false → job.complete = false
  cancelled : job.cancelled = true → job'.cancelled = true
  reason : job.reason.isSome = true → job'.reason.isSome = true

lemma Keeps.refl (job : Job α) : Keeps job job := ⟨id, id, id⟩

lemma keeps_cancel (job : Job α) (reason : CancelReason) : Keeps job (job.cancel reason) :=
  ⟨id, fun _ => rfl, fun _ => job.cancel_reason reason⟩

lemma keeps_act (job : Job α) (action : JobAction α) : Keeps job (job.act action) := by
  cases action with
  | cancelLast k =>
    simp only [Job.act]
    split
    · exact .refl job
    · split
      · exact .refl job
      · split
        · exact ⟨id, id, id⟩
        · exact ⟨id, fun _ => rfl, fun _ => Job.cancel_reason _ .cancelled⟩
  | cancelHandle caller =>
    simp only [Job.act]
    split
    · exact ⟨id, fun _ => rfl, fun _ => Job.cancel_reason _ .cancelled⟩
    · exact .refl job
  | expire =>
    simp only [Job.act]
    split
    · exact .refl job
    · exact ⟨id, fun _ => rfl, fun _ => job.cancel_reason .timedOut⟩
  | complete =>
    simp only [Job.act]
    split
    · exact ⟨fun h => absurd h (by simp), id, id⟩
    · exact .refl job
  | subscribe caller => simp only [Job.act]; split <;> exact ⟨id, id, id⟩
  | requestCancel k => simp only [Job.act]; split <;> exact ⟨id, id, id⟩
  | wait k =>
    simp only [Job.act]
    split
    · split <;> exact ⟨id, id, id⟩
    · exact .refl job
  | waitCancelled k =>
    simp only [Job.act]
    split
    · exact .refl job
    · split
      · exact .refl job
      · split <;> exact ⟨id, id, id⟩
  | detach k =>
    simp only [Job.act]
    split
    · exact .refl job
    · split
      · exact .refl job
      · split <;> exact ⟨id, id, id⟩
  | decide raw => simp only [Job.act]; split <;> exact ⟨id, id, id⟩
  | store => simp only [Job.act]; split <;> exact ⟨id, id, id⟩

lemma ClosingInv.of_keeps (h : ClosingInv s) {s' : Scheduler α} (hjobs : s'.jobs = s.jobs)
    (hclosing : s'.closing = s.closing) (hawaited : s'.awaited = s.awaited)
    (hkeeps : ∀ (j : ℕ) (job' : Job α), s'.spawned[j]? = some job' →
      ∃ job, s.spawned[j]? = some job ∧ Keeps job job') : ClosingInv s' where
  mapped j job' hjob' hcomplete := by
    obtain ⟨job, hjob, hk⟩ := hkeeps j job' hjob'
    rw [hjobs]
    exact h.mapped j job hjob (hk.complete hcomplete)
  awaited hclose j job' hjob' hcomplete := by
    obtain ⟨job, hjob, hk⟩ := hkeeps j job' hjob'
    rw [hclosing] at hclose
    obtain ⟨hmem, hcancelled, hreason⟩ := h.awaited hclose j job hjob (hk.complete hcomplete)
    rw [hawaited]
    exact ⟨hmem, hk.cancelled hcancelled, hk.reason hreason⟩

lemma Scheduler.keeps_cancelWhere (selected : Job α → Bool) (reason : CancelReason) {j : ℕ}
    {job' : Job α} (h : (s.cancelWhere selected reason).spawned[j]? = some job') :
    ∃ job, s.spawned[j]? = some job ∧ Keeps job job' := by
  simp only [cancelWhere, List.getElem?_mapIdx] at h
  obtain ⟨job, hjob, heq⟩ := Option.map_eq_some_iff.mp h
  refine ⟨job, hjob, ?_⟩
  rw [← heq]
  split
  · exact keeps_cancel job reason
  · exact .refl job

lemma ClosingInv.cancelWhere (h : ClosingInv s) (selected : Job α → Bool) (reason : CancelReason) :
    ClosingInv (s.cancelWhere selected reason) :=
  h.of_keeps rfl rfl rfl fun _ _ hjob => Scheduler.keeps_cancelWhere selected reason hjob

lemma ClosingInv.generations (h : ClosingInv s) (generations : ExtTreeMap String ℕ) :
    ClosingInv { s with generations } :=
  h.of_keeps rfl rfl rfl fun _ job hjob => ⟨job, hjob, .refl job⟩

lemma ClosingInv.submission (h : ClosingInv s) (root key identityKey : String) :
    ClosingInv (s.submission root key identityKey).1 := by
  rcases s.submission_fst root key identityKey with heq | heq
  · rw [heq]
    exact h
  · rw [heq]
    unfold Scheduler.supersede
    split
    · exact (h.cancelWhere _ _).generations _
    · exact h

lemma ClosingInv.modifyJob (h : ClosingInv s) (j : ℕ) {f : Job α → Job α}
    (hf : ∀ job, Keeps job (f job)) : ClosingInv (s.modifyJob j f) := by
  refine h.of_keeps rfl rfl rfl fun i job' hjob' => ?_
  rw [Scheduler.modifyJob, List.getElem?_modify] at hjob'
  obtain ⟨job, hjob, heq⟩ := Option.map_eq_some_iff.mp hjob'
  refine ⟨job, hjob, ?_⟩
  rw [← heq]
  split
  · exact hf job
  · exact .refl job

lemma ClosingInv.spawn (h : ClosingInv s) (hopen : s.closing = false) {composite : String}
    (hfree : ∀ job ∈ s.jobAt composite, job.complete = true) (job : Job α) : ClosingInv { s with
      jobs := s.jobs.insert composite s.spawned.length
      spawned := s.spawned ++ [job] } where
  mapped j job' hjob' hcomplete := by
    rcases lt_trichotomy j s.spawned.length with hlt | rfl | hgt
    · rw [List.getElem?_append_left hlt] at hjob'
      obtain ⟨composite', hj⟩ := h.mapped j job' hjob' hcomplete
      have hne : composite ≠ composite' := by
        rintro rfl
        have hdone := hfree job' (by simp [Scheduler.jobAt, hj, hjob'])
        simp [hcomplete] at hdone
      exact ⟨composite', by simp [ExtTreeMap.getElem?_insert, hne, hj]⟩
    · exact ⟨composite, by simp⟩
    · rw [List.getElem?_eq_none (by simp; omega)] at hjob'
      simp at hjob'
  awaited hclosing := absurd hclosing (by simp [hopen])

lemma Scheduler.closing_of_spawns {s' : Scheduler α} {root key identityKey composite : String} {generation : ℕ}
    (h : s.submission root key identityKey = (s', .spawns composite generation)) : s'.closing = false := by
  have hs' : s' = (s.submission root key identityKey).1 := by rw [h]
  unfold submission at h
  split at h
  · simp at h
  next hopen =>
  rcases s.submission_fst root key identityKey with heq | heq
  · rw [hs', heq]
    simpa using hopen
  · rw [hs', heq]
    unfold supersede
    split
    · simpa [cancelWhere] using hopen
    · simpa using hopen

lemma ClosingInv.close (h : ClosingInv s) : ClosingInv s.close where
  mapped := (h.cancelWhere (fun _ => true) .shutdown).mapped
  awaited _ j job' hjob' hcomplete := by
    have hmem : j ∈ s.mapped := Scheduler.mem_mapped.mpr
      ((h.cancelWhere (fun _ => true) .shutdown).mapped j job' hjob' hcomplete)
    refine ⟨List.mem_append_right _ hmem, ?_⟩
    simp only [Scheduler.close, Scheduler.cancelWhere, List.getElem?_mapIdx] at hjob'
    obtain ⟨job, -, heq⟩ := Option.map_eq_some_iff.mp hjob'
    rw [if_pos ⟨hmem, trivial⟩] at heq
    rw [← heq]
    exact ⟨rfl, job.cancel_reason .shutdown⟩

lemma ClosingInv.retire (h : ClosingInv s) (j : ℕ) : ClosingInv (s.retire j) := by
  unfold Scheduler.retire
  split
  case isFalse => exact h
  case isTrue hcomplete =>
    refine ⟨fun i job hjob hunfinished => ?_, h.awaited⟩
    obtain ⟨composite, hi⟩ := h.mapped i job hjob hunfinished
    have hne : i ≠ j := by
      rintro rfl
      obtain ⟨job', hjob', hdone⟩ := (Option.any_eq_true _ _).mp hcomplete
      obtain rfl := Option.some.inj (hjob'.symm.trans hjob)
      simp [hunfinished] at hdone
    exact ⟨composite, by simp [ExtTreeMap.getElem?_filter', hi, hne]⟩

lemma ClosingInv.step (h : ClosingInv s) {step : SchedulerStep α}
    (hcond : s.ReplacesNothing step) : ClosingInv (s.step step) := by
  cases step with
  | submit root key identityKey =>
    have hs' := h.submission root key identityKey
    simp only [Scheduler.step, Scheduler.submit]
    simp only [Scheduler.ReplacesNothing] at hcond
    cases hsub : s.submission root key identityKey with
    | mk s' submission =>
      rw [hsub] at hs' hcond
      cases submission with
      | refused => exact hs'
      | joins j => exact hs'.modifyJob j fun job => ⟨id, id, id⟩
      | spawns composite generation =>
        exact hs'.spawn (Scheduler.closing_of_spawns hsub) hcond _
  | act j action => exact h.modifyJob j fun job => keeps_act job action
  | markDirty root => exact (h.cancelWhere _ _).generations _
  | close => exact h.close
  | retire j => exact h.retire j

end Steps

/-! ## Runs -/

/-- Every submission of the run replaces nothing. -/
def Scheduler.ReplacesNothingAlong (s : Scheduler α) (steps : List (SchedulerStep α)) : Prop :=
  Runs.Along Scheduler.step Scheduler.ReplacesNothing s steps

instance (s : Scheduler α) (steps : List (SchedulerStep α)) : Decidable (s.ReplacesNothingAlong steps) :=
  Runs.decidableAlong s steps

def Scheduler.MapsUnfinished (s : Scheduler α) : Prop :=
  ∀ j < s.spawned.length, ∀ job ∈ s.spawned[j]?, job.complete = false → j ∈ s.mapped

/-- Every unfinished job is cancelled and waited for. -/
def Scheduler.AwaitsUnfinished (s : Scheduler α) : Prop :=
  ∀ j < s.spawned.length, ∀ job ∈ s.spawned[j]?, job.complete = false → j ∈ s.awaited ∧ job.cancelled = true

/-- No job is left when everything that is waited for is complete. -/
def Scheduler.NoneOutlives (s : Scheduler α) : Prop :=
  (∀ j ∈ s.awaited, ∀ job ∈ s.spawned[j]?, job.complete = true) → ∀ job ∈ s.spawned, job.complete = true

/-- Every unfinished job is in the map, and a scheduler that closes leaves none. -/
def Scheduler.ReachesUnfinished (s : Scheduler α) : Prop :=
  s.MapsUnfinished ∧ (s.closing = true → s.AwaitsUnfinished ∧ s.NoneOutlives)

instance (s : Scheduler α) : Decidable s.MapsUnfinished :=
  inferInstanceAs (Decidable (∀ j < s.spawned.length, ∀ job ∈ s.spawned[j]?, _))

instance (s : Scheduler α) : Decidable s.AwaitsUnfinished :=
  inferInstanceAs (Decidable (∀ j < s.spawned.length, ∀ job ∈ s.spawned[j]?, _))

instance (s : Scheduler α) : Decidable s.NoneOutlives :=
  inferInstanceAs (Decidable (_ → _))

instance (s : Scheduler α) : Decidable s.ReachesUnfinished :=
  inferInstanceAs (Decidable (s.MapsUnfinished ∧ (_ → s.AwaitsUnfinished ∧ s.NoneOutlives)))

/-- Where submissions replace nothing, closing reaches every unfinished job. -/
theorem close_reaches_unfinished_jobs {steps : List (SchedulerStep α)}
    (h : ({} : Scheduler α).ReplacesNothingAlong steps) :
    (({} : Scheduler α).run steps).ReachesUnfinished := by
  have hinv : ClosingInv (({} : Scheduler α).run steps) :=
    Runs.Along.invariant h (fun _ _ hs hcond => hs.step hcond)
      ⟨fun j job hjob => by simp at hjob, fun _ j job hjob => by simp at hjob⟩
  refine ⟨fun j _ job hjob hunfinished =>
    Scheduler.mem_mapped.mpr (hinv.mapped j job hjob hunfinished), fun hclosing => ⟨?_, ?_⟩⟩
  · intro j _ job hjob hunfinished
    obtain ⟨hmem, hcancelled, -⟩ := hinv.awaited hclosing j job hjob hunfinished
    exact ⟨hmem, hcancelled⟩
  · intro hdone job hjob
    by_contra hunfinished
    obtain ⟨j, hj⟩ := List.mem_iff_getElem?.mp hjob
    exact hunfinished
      (hdone j (hinv.awaited hclosing j job hj (by simpa using hunfinished)).1 job hj)

/-- A caller submits a job and leaves; it is submitted again in between. -/
def submittedAgain (finish : List (SchedulerStep Unit)) : List (SchedulerStep Unit) :=
  [.submit "work" "check" "a", .act 0 (.subscribe 0), .act 0 (.detach 0), .act 0 (.cancelLast 0)] ++
    finish ++ [.submit "work" "check" "a", .close]

theorem close_reaches_unfinished_jobs_finished :
    (({} : Scheduler Unit).run (submittedAgain
      [.act 0 (.decide (.ok ())), .act 0 .store, .act 0 .complete])).ReachesUnfinished :=
  close_reaches_unfinished_jobs (by decide +kernel)

theorem replaced_job_outlives_close :
    ¬ (({} : Scheduler Unit).run (submittedAgain [])).ReachesUnfinished := by
  decide +kernel

end AgzRustMcp.Gate
