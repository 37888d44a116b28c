import AgzRustMcp.Foundation.Runs
import AgzRustMcp.Change.Model

/-!
# The gate scheduler

`gate/scheduler.rs` as a machine whose steps are the moments at which callers and workers touch what
they share.  `submit_at`, `mark_dirty` and `close` are one step each; joining and subscribing are
two, and so is a detach: it lowers the count of subscribers, and cancels the job afterwards.

What a caller is to blame for is recorded beside the state of the source.  Debouncing, leases and
progress only delay a worker and are left out, and evidence is an arbitrary type.
-/

namespace AgzRustMcp.Gate

open Std (ExtTreeMap)

/-! ## Jobs -/

inductive SchedulerError where
  | closing
  | cancelled
  | superseded
  | timedOut
  | resourceBlocked (reason : String)
  | lease (reason : String)
  | internal (reason : String)
  deriving DecidableEq

inductive CancelReason where
  | cancelled | superseded | shutdown | timedOut
  deriving DecidableEq

def CancelReason.error : CancelReason → SchedulerError
  | .cancelled => .cancelled
  | .superseded => .superseded
  | .shutdown => .closing
  | .timedOut => .timedOut

abbrev JobResult (α : Type) := Except SchedulerError α

/-- A subscription; `leaving`: the count is lowered, nothing cancelled yet. -/
structure Subscription (α : Type) where
  caller : ℕ
  cancelRequested : Bool := false
  detached : Bool := false
  leaving : Bool := false
  observed : Option (JobResult α) := none

/-- `JobState`, with its callers and subscriptions.  `gaveUp` says who cancelled or detached without
a result, `canceller` who set the reason, and `blamed` who had set it when the worker decided. -/
structure Job (α : Type) where
  root : String
  key : String
  identityKey : String
  generation : ℕ
  reason : Option CancelReason := none
  cancelled : Bool := false
  subscribers : ℕ := 0
  decided : Option (JobResult α) := none
  result : Option (JobResult α) := none
  complete : Bool := false
  gaveUp : List Bool
  subscriptions : List (Subscription α) := []
  canceller : Option ℕ := none
  blamed : Option ℕ := none

variable {α : Type}

/-- `JobState::cancel`: the first reason stays. -/
def Job.cancel (job : Job α) (reason : CancelReason) : Job α :=
  { job with reason := job.reason.orElse fun _ => reason, cancelled := true }

/-- `JobState::cancel` with `CancelReason::Cancelled` on behalf of a caller. -/
def Job.cancelBy (job : Job α) (caller : ℕ) : Job α :=
  { job.cancel .cancelled with
    canceller := if job.reason.isNone then some caller else job.canceller }

def Job.isJoinable (job : Job α) : Bool := !job.complete && !job.cancelled && job.reason.isNone

def Job.join (job : Job α) : Job α := { job with gaveUp := job.gaveUp ++ [false] }

def Job.giveUp (job : Job α) (caller : ℕ) : Job α :=
  { job with gaveUp := job.gaveUp.set caller true }

/-- `JobSubscription::detach` up to the new count of subscribers. -/
def Job.lowerCount (job : Job α) (k : ℕ) (sub : Subscription α) : Job α :=
  { job with
    subscribers := job.subscribers - 1
    subscriptions :=
      job.subscriptions.set k { sub with detached := true, leaving := job.subscribers = 1 } }

/-- The steps of callers and of the worker on subscription `k`. -/
inductive JobAction (α : Type) where
  | subscribe (caller : ℕ)
  | requestCancel (k : ℕ)
  | wait (k : ℕ)
  | waitCancelled (k : ℕ)
  | detach (k : ℕ)
  | cancelLast (k : ℕ)
  | cancelHandle (caller : ℕ)
  | decide (raw : JobResult α)
  | expire
  | store
  | complete

def Job.observe (job : Job α) (k : ℕ) (sub : Subscription α) (result : JobResult α) : Job α :=
  { job with subscriptions := job.subscriptions.set k { sub with observed := some result } }

/-- The worker has come to a result. -/
def Job.settle (job : Job α) (result : JobResult α) : Job α :=
  { job with
    decided := some result
    blamed := if job.reason = some .cancelled then job.canceller else none }

/-- One step on a job.
* `subscribe`: `ScheduledJob::subscribe`.
* `requestCancel`: the cancellation token of a subscription fires.
* `wait`: `JobSubscription::wait` finds a result.
* `waitCancelled`: `wait` finds its token cancelled, detaches and returns `Cancelled`.
* `detach`, `cancelLast`: the two halves of `JobState::detach`.
* `cancelHandle`: `ScheduledJob::cancel`.
* `decide`: `execute_job` ends with `raw`, unless a reason was set.
* `expire`: `execute_job` finds its deadline passed.
* `store`, `complete`: the two halves of `JobState::finish`. -/
def Job.act (job : Job α) : JobAction α → Job α
  | .subscribe caller =>
    if caller < job.gaveUp.length then
      { job with
        subscribers := job.subscribers + 1
        subscriptions := job.subscriptions ++ [{ caller }] }
    else job
  | .requestCancel k =>
    match job.subscriptions[k]? with
    | none => job
    | some sub =>
      ({ job with
          subscriptions := job.subscriptions.set k { sub with cancelRequested := true } } :
        Job α).giveUp sub.caller
  | .wait k =>
    match job.subscriptions[k]?, job.result with
    | some sub, some result => if sub.observed.isNone then job.observe k sub result else job
    | _, _ => job
  | .waitCancelled k =>
    match job.subscriptions[k]? with
    | none => job
    | some sub =>
      if sub.observed.isSome || !sub.cancelRequested then job
      else
        let seen := { sub with observed := some (.error .cancelled) }
        if sub.detached then job.observe k sub (.error .cancelled)
        else (job.lowerCount k seen).giveUp sub.caller
  | .detach k =>
    match job.subscriptions[k]? with
    | none => job
    | some sub =>
      if sub.detached then job
      else if sub.observed.isSome then job.lowerCount k sub
      else (job.lowerCount k sub).giveUp sub.caller
  | .cancelLast k =>
    match job.subscriptions[k]? with
    | none => job
    | some sub =>
      if !sub.leaving then job
      else
        let left :=
          { job with subscriptions := job.subscriptions.set k { sub with leaving := false } }
        if job.complete then left else left.cancelBy sub.caller
  | .cancelHandle caller =>
    if caller < job.gaveUp.length then (job.giveUp caller).cancelBy caller else job
  | .decide raw =>
    if job.decided.isSome then job
    else job.settle ((job.reason.map fun reason => .error reason.error).getD raw)
  | .expire => if job.decided.isSome then job else (job.cancel .timedOut).settle (.error .timedOut)
  | .store => if job.result.isSome then job else { job with result := job.decided }
  | .complete => if job.result.isSome then { job with complete := true } else job

/-! ## The scheduler -/

/-- `GateScheduler` with all its jobs; `awaited`: `close` waits for them. -/
structure Scheduler (α : Type) where
  generations : ExtTreeMap String ℕ := ∅
  jobs : ExtTreeMap String ℕ := ∅
  closing : Bool := false
  spawned : List (Job α) := []
  awaited : List ℕ := []

def compositeKey (root key : String) (generation : ℕ) : String := s!"{root}\x00{key}\x00{generation}"

def Scheduler.generation (s : Scheduler α) (root : String) : ℕ := (s.generations[root]?).getD 0

def Scheduler.jobAt (s : Scheduler α) (composite : String) : Option (Job α) :=
  s.jobs[composite]?.bind fun j => s.spawned[j]?

def Scheduler.mapped (s : Scheduler α) : List ℕ := s.jobs.toList.map Prod.snd

/-- Cancels the unfinished jobs of the map that a predicate selects. -/
def Scheduler.cancelWhere (s : Scheduler α) (selected : Job α → Bool) (reason : CancelReason) : Scheduler α :=
  { s with
    spawned := s.spawned.mapIdx fun j job =>
      if j ∈ s.mapped ∧ selected job = true then job.cancel reason else job }

/-- A job of the root with another input that is not complete. -/
def Job.isOutdated (root identityKey : String) (job : Job α) : Bool :=
  job.root = root && job.identityKey ≠ identityKey && !job.complete

/-- The map holds a job of the root with another input that is not complete. -/
def Scheduler.hasOutdated (s : Scheduler α) (root identityKey : String) : Bool :=
  s.mapped.any fun j => (s.spawned[j]?).any (Job.isOutdated root identityKey)

/-- The scheduler after the outdated jobs of a root were superseded. -/
def Scheduler.supersede (s : Scheduler α) (root identityKey : String) : Scheduler α :=
  if s.hasOutdated root identityKey then
    { s.cancelWhere (Job.isOutdated root identityKey) .superseded with
      generations := s.generations.insert root (saturatingAdd (s.generation root) 1) }
  else s

/-- The job under a composite key that can be joined. -/
def Scheduler.joinable (s : Scheduler α) (composite : String) : Option ℕ :=
  s.jobs[composite]?.filter fun j => (s.spawned[j]?).any Job.isJoinable

/-- Where `submit_at` ends. -/
inductive Submission where
  | refused
  | joins (j : ℕ)
  | spawns (composite : String) (generation : ℕ)

/-- `submit_at` as far as it decides: what it supersedes, and its end. -/
def Scheduler.submission (s : Scheduler α) (root key identityKey : String) : Scheduler α × Submission :=
  if s.closing then (s, .refused)
  else
    match s.joinable (compositeKey root key (s.generation root)) with
    | some j => (s, .joins j)
    | none =>
      let s' := s.supersede root identityKey
      let composite := compositeKey root key (s'.generation root)
      match s'.joinable composite with
      | some j => (s', .joins j)
      | none => (s', .spawns composite (s'.generation root))

def Scheduler.modifyJob (s : Scheduler α) (j : ℕ) (f : Job α → Job α) : Scheduler α :=
  { s with spawned := s.spawned.modify j f }

/-- `submit_at`. -/
def Scheduler.submit (s : Scheduler α) (root key identityKey : String) : Scheduler α :=
  match s.submission root key identityKey with
  | (s', .refused) => s'
  | (s', .joins j) => s'.modifyJob j Job.join
  | (s', .spawns composite generation) =>
    { s' with
      jobs := s'.jobs.insert composite s'.spawned.length
      spawned := s'.spawned ++ [{ root, key, identityKey, generation, gaveUp := [false] }] }

def Scheduler.markDirty (s : Scheduler α) (root : String) : Scheduler α :=
  { s.cancelWhere (fun job => job.root = root && !job.complete) .superseded with
    generations := s.generations.insert root (saturatingAdd (s.generation root) 1) }

/-- `close` up to the waiting. -/
def Scheduler.close (s : Scheduler α) : Scheduler α :=
  { s.cancelWhere (fun _ => true) .shutdown with
    closing := true
    awaited := s.awaited ++ s.mapped }

/-- The removal of a complete job from the map. -/
def Scheduler.retire (s : Scheduler α) (j : ℕ) : Scheduler α :=
  if (s.spawned[j]?).any Job.complete then { s with jobs := s.jobs.filter fun _ i => i ≠ j } else s

inductive SchedulerStep (α : Type) where
  | submit (root key identityKey : String)
  | act (j : ℕ) (action : JobAction α)
  | markDirty (root : String)
  | close
  | retire (j : ℕ)

def Scheduler.step (s : Scheduler α) : SchedulerStep α → Scheduler α
  | .submit root key identityKey => s.submit root key identityKey
  | .act j action => s.modifyJob j fun job => job.act action
  | .markDirty root => s.markDirty root
  | .close => s.close
  | .retire j => s.retire j

def Scheduler.run (s : Scheduler α) (steps : List (SchedulerStep α)) : Scheduler α :=
  Runs.run Scheduler.step s steps

lemma Scheduler.exists_of_mem_cancelWhere {s : Scheduler α} {selected : Job α → Bool}
    {reason : CancelReason} {job : Job α} (h : job ∈ (s.cancelWhere selected reason).spawned) :
    ∃ before ∈ s.spawned, job = before ∨ job = before.cancel reason := by
  obtain ⟨j, hj, rfl⟩ := List.mem_iff_getElem.mp h
  simp only [cancelWhere, List.length_mapIdx] at hj
  refine ⟨s.spawned[j], List.getElem_mem hj, ?_⟩
  simp only [cancelWhere, List.getElem_mapIdx]
  split
  · exact Or.inr rfl
  · exact Or.inl rfl

lemma Scheduler.exists_of_mem_supersede {s : Scheduler α} {root identityKey : String} {job : Job α}
    (h : job ∈ (s.supersede root identityKey).spawned) :
    ∃ before ∈ s.spawned, job = before ∨ job = before.cancel .superseded := by
  unfold supersede at h
  split at h
  · exact exists_of_mem_cancelWhere h
  · exact ⟨job, h, Or.inl rfl⟩

lemma Scheduler.of_joinable {s : Scheduler α} {composite : String} {j : ℕ} (h : s.joinable composite = some j) :
    ∃ job, s.spawned[j]? = some job ∧ job.complete = false ∧ job.reason = none := by
  obtain ⟨-, hjoin⟩ := Option.filter_eq_some_iff.mp h
  obtain ⟨job, hjob, hjoinable⟩ := (Option.any_eq_true _ _).mp hjoin
  simp only [Job.isJoinable, Bool.and_eq_true, Bool.not_eq_true', Option.isNone_iff_eq_none]
    at hjoinable
  exact ⟨job, hjob, hjoinable.1.1, hjoinable.2⟩

lemma Scheduler.of_submission_joins {s s' : Scheduler α} {root key identityKey : String} {j : ℕ}
    (h : s.submission root key identityKey = (s', .joins j)) :
    ∃ job, s'.spawned[j]? = some job ∧ job.complete = false ∧ job.reason = none := by
  unfold submission at h
  split at h
  · simp at h
  split at h
  next hjoin =>
    obtain ⟨rfl, heq⟩ := Prod.mk.inj h
    obtain rfl := Submission.joins.inj heq
    exact of_joinable hjoin
  dsimp only at h
  split at h
  next hjoin =>
    obtain ⟨rfl, heq⟩ := Prod.mk.inj h
    obtain rfl := Submission.joins.inj heq
    exact of_joinable hjoin
  · simp at h

lemma Scheduler.submission_fst (s : Scheduler α) (root key identityKey : String) :
    (s.submission root key identityKey).1 = s ∨
      (s.submission root key identityKey).1 = s.supersede root identityKey := by
  unfold submission
  split
  · exact Or.inl rfl
  split
  · exact Or.inl rfl
  dsimp only
  split
  · exact Or.inr rfl
  · exact Or.inr rfl

end AgzRustMcp.Gate
