import AgzRustMcp.Foundation.Runs

/-!
# Bounds around the task manager

`TaskAdmission` hands out permits for running tasks, and lists the tasks that the manager retains.  A call of
`spawn` has its permit before it takes the lock of the list, so that other calls, the ends of tasks and the
shutdown come in between (`tasks_within_bounds`).
-/

namespace AgzRustMcp.Server

/-- `AdmissionError`. -/
inductive AdmissionError
  | closed | activeLimit | retainedLimit
  deriving DecidableEq

def AdmissionError.message : AdmissionError → String
  | .closed => "the task manager is shutting down"
  | .activeLimit => "the active task limit has been reached"
  | .retainedLimit => "the retained task limit has been reached"

structure TaskState where
  closed : Bool
  retained : List String

/-- `TaskAdmission`, with the permits left in the semaphore `active`, the calls of `spawn` that have one and
wait for the lock, and the tasks that have one. -/
structure TaskAdmission where
  permits : ℕ
  activeClosed : Bool
  state : TaskState
  spawning : ℕ
  running : ℕ

/-- The steps of calls and tasks. `known`: `get_task` finds the task, or fails with another code than
`INVALID_PARAMS`. -/
inductive TaskStep
  | acquire
  | spawn (known : String → Bool) (taskId : String)
  | finish
  | retainedCount (known : String → Bool)
  | shutdown

namespace TaskAdmission

def new (maxActive : ℕ) : TaskAdmission := ⟨maxActive, false, ⟨false, []⟩, 0, 0⟩

def sweepRetained (known : String → Bool) (state : TaskState) : TaskState :=
  { state with retained := state.retained.filter known }

/-- The second half of `spawn`, under the lock. -/
def spawnLocked (maxRetained : ℕ) (known : String → Bool) (taskId : String) (tasks : TaskAdmission) :
    TaskAdmission × Except AdmissionError String :=
  let released := { tasks with spawning := tasks.spawning - 1, permits := tasks.permits + 1 }
  if tasks.state.closed then (released, .error .closed)
  else
    let state := sweepRetained known tasks.state
    if maxRetained ≤ state.retained.length then ({ released with state }, .error .retainedLimit)
    else
      ({ tasks with
          spawning := tasks.spawning - 1
          running := tasks.running + 1
          state := { state with retained := state.retained ++ [taskId] } }, .ok taskId)

/-- One step, with what `spawn` returns when it ends; nothing happens without a call or a task for it. -/
def step (maxRetained : ℕ) (tasks : TaskAdmission) : TaskStep → TaskAdmission × Option (Except AdmissionError String)
  | .acquire =>
    if tasks.activeClosed then (tasks, some (.error .closed))
    else if tasks.permits = 0 then (tasks, some (.error .activeLimit))
    else ({ tasks with permits := tasks.permits - 1, spawning := tasks.spawning + 1 }, none)
  | .spawn known taskId =>
    if tasks.spawning = 0 then (tasks, none)
    else
      let (tasks, reply) := spawnLocked maxRetained known taskId tasks
      (tasks, some reply)
  | .finish =>
    if tasks.running = 0 then (tasks, none)
    else ({ tasks with running := tasks.running - 1, permits := tasks.permits + 1 }, none)
  | .retainedCount known => ({ tasks with state := sweepRetained known tasks.state }, none)
  | .shutdown =>
    if tasks.state.closed then (tasks, none)
    else ({ tasks with activeClosed := true, state := ⟨true, []⟩ }, none)

/-- The admission after some steps, in the order of the atomic operations and of the lock. -/
def after (maxRetained : ℕ) (tasks : TaskAdmission) (steps : List TaskStep) : TaskAdmission :=
  Runs.run (fun tasks next => (tasks.step maxRetained next).1) tasks steps

/-- Every permit is somewhere, the list is within its bound, and it is empty once it is closed. -/
structure Within (maxActive maxRetained : ℕ) (tasks : TaskAdmission) : Prop where
  permits : tasks.permits + tasks.spawning + tasks.running = maxActive
  retained_le : tasks.state.retained.length ≤ maxRetained
  closed : tasks.state.closed = true → tasks.activeClosed = true ∧ tasks.state.retained = []

/-- The step leaves the task in the list. -/
def Keeps (taskId : String) : TaskStep → Prop
  | .spawn known _ | .retainedCount known => known taskId = true
  | .shutdown => False
  | .acquire | .finish => True

variable {maxActive maxRetained : ℕ} {tasks : TaskAdmission}

lemma Within.sweep (h : tasks.Within maxActive maxRetained) (known : String → Bool) :
    (sweepRetained known tasks.state).retained.length ≤ maxRetained :=
  (List.length_filter_le _ _).trans h.retained_le

lemma Within.step (h : tasks.Within maxActive maxRetained) (next : TaskStep) :
    (tasks.step maxRetained next).1.Within maxActive maxRetained := by
  have hpermits := h.permits
  cases next with
  | acquire =>
    simp only [TaskAdmission.step]
    split_ifs
    · exact h
    · exact h
    · exact ⟨by dsimp only; omega, h.retained_le, h.closed⟩
  | spawn known taskId =>
    simp only [TaskAdmission.step, spawnLocked]
    split_ifs with _ hclosed hfull
    · exact h
    · exact ⟨by dsimp only; omega, h.retained_le, h.closed⟩
    · exact ⟨by dsimp only; omega, h.sweep known, fun hc => absurd hc hclosed⟩
    · exact ⟨by dsimp only; omega, by simpa using not_le.mp hfull, fun hc => absurd hc hclosed⟩
  | finish =>
    simp only [TaskAdmission.step]
    split_ifs
    · exact h
    · exact ⟨by dsimp only; omega, h.retained_le, h.closed⟩
  | retainedCount known =>
    refine ⟨h.permits, h.sweep known, fun hclosed => ⟨(h.closed hclosed).1, ?_⟩⟩
    change tasks.state.retained.filter known = []
    rw [(h.closed hclosed).2, List.filter_nil]
  | shutdown =>
    simp only [TaskAdmission.step]
    split_ifs
    · exact h
    · exact ⟨h.permits, Nat.zero_le _, fun _ => ⟨rfl, rfl⟩⟩

lemma step_of_closed (hclosed : tasks.state.closed = true) (next : TaskStep) :
    (tasks.step maxRetained next).1.state.closed = true ∧
      ∀ taskId, (tasks.step maxRetained next).2 ≠ some (.ok taskId) := by
  cases next with
  | acquire => simp only [TaskAdmission.step]; split_ifs <;> simp [hclosed]
  | spawn => simp only [TaskAdmission.step, spawnLocked]; split_ifs <;> simp [hclosed]
  | finish => simp only [TaskAdmission.step]; split_ifs <;> simp [hclosed]
  | retainedCount => exact ⟨hclosed, nofun⟩
  | shutdown => simp only [TaskAdmission.step]; split_ifs; simp [hclosed]

lemma mem_retained_step {taskId : String} (h : taskId ∈ tasks.state.retained) {next : TaskStep}
    (hkeeps : Keeps taskId next) : taskId ∈ (tasks.step maxRetained next).1.state.retained := by
  cases next with
  | acquire => simp only [TaskAdmission.step]; split_ifs <;> exact h
  | spawn known other =>
    have hswept : taskId ∈ (sweepRetained known tasks.state).retained := List.mem_filter.mpr ⟨h, hkeeps⟩
    simp only [TaskAdmission.step, spawnLocked]
    split_ifs
    · exact h
    · exact h
    · exact hswept
    · exact List.mem_append_left _ hswept
  | finish => simp only [TaskAdmission.step]; split_ifs <;> exact h
  | retainedCount known => exact List.mem_filter.mpr ⟨h, hkeeps⟩
  | shutdown => exact hkeeps.elim

/-- In every run the permits add up to the active limit, the list is within the retained limit, a listed task
stays while the manager knows it, and after a shutdown nothing is listed and no task is accepted. -/
theorem tasks_within_bounds (maxActive maxRetained : ℕ) (steps more : List TaskStep) :
    let tasks := (new maxActive).after maxRetained steps
    tasks.permits + tasks.spawning + tasks.running = maxActive ∧ tasks.state.retained.length ≤ maxRetained ∧
      (∀ taskId ∈ tasks.state.retained, (∀ next ∈ more, Keeps taskId next) →
        taskId ∈ (tasks.after maxRetained more).state.retained) ∧
      (.shutdown ∈ steps → tasks.state.retained = [] ∧
        ∀ next taskId, (tasks.step maxRetained next).2 ≠ some (.ok taskId)) := by
  intro tasks
  have hrun : ∀ steps : List TaskStep, ((new maxActive).after maxRetained steps).Within maxActive maxRetained :=
    fun steps => Runs.invariant (fun t next h => h.step next) ⟨by simp [new], Nat.zero_le _, nofun⟩
  refine ⟨(hrun steps).permits, (hrun steps).retained_le, fun taskId htask hkeeps => ?_, fun hshutdown => ?_⟩
  · refine (Runs.along_of_forall_mem fun next hnext _ => hkeeps next hnext).invariant
      (P := fun t : TaskAdmission => taskId ∈ t.state.retained) ?_ htask
    exact fun t next ht hnext => mem_retained_step ht hnext
  · obtain ⟨before, rest, rfl⟩ := List.append_of_mem hshutdown
    have hclosed : tasks.state.closed = true := by
      have hsplit : tasks = (((new maxActive).after maxRetained before).step maxRetained .shutdown).1.after
          maxRetained rest := Runs.run_append
      rw [hsplit]
      refine Runs.invariant (P := fun t : TaskAdmission => t.state.closed = true)
        (fun t next ht => (step_of_closed ht next).1) ?_
      simp only [step]
      split_ifs with halready
      · exact halready
      · rfl
    exact ⟨((hrun _).closed hclosed).2, fun next taskId => (step_of_closed hclosed next).2 taskId⟩

end TaskAdmission

end AgzRustMcp.Server
