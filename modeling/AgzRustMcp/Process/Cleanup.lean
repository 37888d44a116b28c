import Mathlib

/-!
# The end of a supervised process

`run_spec_inner` watches a process until its leader exits or it has to be stopped.  A stop begins
with a signal to the process group, which is killed once after a grace.  Then the output is drained,
the readers are joined, and the leader is waited for.
-/

namespace AgzRustMcp.Process

/-- Why a run is stopped. -/
inductive StopReason
  | cancelled
  | timedOut
deriving DecidableEq

/-- What `start_kill` returns: success, `ESRCH`, or another error. -/
inductive KillResult
  | ok
  | gone
  | failed
deriving DecidableEq

/-- What `try_wait` returns. -/
inductive PollResult
  | running
  | exited (status : ℤ)
  | failed
deriving DecidableEq

/-- What `wait_child` returns: a status, an error, or nothing before the bound. -/
inductive WaitResult
  | exited (status : ℤ)
  | failed
  | elapsed
deriving DecidableEq

inductive ChildCall
  | signal (ok : Bool)
  | kill (result : KillResult)
  | poll (result : PollResult)
  | wait (result : WaitResult)
deriving DecidableEq

/-- A kill succeeded or found no group, and the status was collected. -/
def SettledCleanup (calls : List ChildCall) (status : Option ℤ) : Prop :=
  ∃ result code, result ≠ .failed ∧ status = some code ∧
    List.Sublist [ChildCall.kill result, ChildCall.wait (.exited code)] calls

/-- `ProcessRunOptions`, as far as the end of the process depends on it. -/
structure RunOptions where
  timeout : ℕ
  deadline : Option ℕ
  killGrace : ℕ
  cleanupTimeout : ℕ
  maxOutputBytes : ℕ
deriving DecidableEq

/-- The locals of the loop, with the calls of the child so far. -/
structure Watch where
  stopReason : Option StopReason := none
  forceAt : Option ℕ := none
  cleanupDeadline : Option ℕ := none
  forceSent : Bool := false
  forceSucceeded : Bool := false
  status : Option ℤ := none
  eof : Bool × Bool := (false, false)
  eventsOpen : Bool := true
  calls : List ChildCall := []
deriving DecidableEq

inductive OutputEvent
  | chunk
  | stdoutEof
  | stderrEof
  | error
deriving DecidableEq

/-- What `select!` in the loop takes. -/
inductive Selected
  | output (event : OutputEvent)
  | eventsClosed
  | stopCommand
  | cancelToken
  | slept
deriving DecidableEq

/-- The clock and the answers in one turn of the loop. -/
structure LoopTurn where
  now : ℕ
  signal : Bool := true
  kill : KillResult := .ok
  poll : PollResult := .running
  selected : Selected := .slept
  later : ℕ := now
deriving DecidableEq

/-- The clock and the answers in one turn of the drain. -/
structure DrainTurn where
  now : ℕ
  kill : KillResult := .ok
  event : Option OutputEvent := none
deriving DecidableEq

namespace Watch

variable (watch : Watch)

def forceKill (kill : KillResult) : Watch :=
  if watch.forceSent then watch
  else { watch with
    forceSent := true
    forceSucceeded := watch.forceSucceeded || decide (kill ≠ .failed)
    calls := watch.calls ++ [.kill kill] }

def requestStop (options : RunOptions) (reason : StopReason) (now : ℕ) (signal : Bool) (kill : KillResult) : Watch :=
  if watch.stopReason.isSome then watch
  else
    let signalled := { watch with
      stopReason := some reason
      calls := watch.calls ++ [ChildCall.signal signal] }
    let stopped := if signal then signalled else signalled.forceKill kill
    { stopped with
      forceAt := some (now + options.killGrace)
      cleanupDeadline := some (now + options.killGrace + options.cleanupTimeout) }

def stopAtDeadline (options : RunOptions) (deadline : ℕ) (turn : LoopTurn) : Watch :=
  if watch.stopReason.isNone ∧ deadline ≤ turn.now then
    watch.requestStop options .timedOut turn.now turn.signal turn.kill
  else watch

def forceAfterGrace (now : ℕ) (kill : KillResult) : Watch :=
  if watch.stopReason.isSome ∧ watch.forceSent = false ∧ watch.forceAt.any (fun at_ => at_ ≤ now)
  then watch.forceKill kill
  else watch

def handleEvent : OutputEvent → Watch
  | .stdoutEof => { watch with eof := (true, watch.eof.2) }
  | .stderrEof => { watch with eof := (watch.eof.1, true) }
  | .chunk | .error => watch

def countEof : ℕ := watch.eof.1.toNat + watch.eof.2.toNat

/-- The status check of a turn. -/
def pollChild (poll : PollResult) (kill : KillResult) : Watch :=
  let polled := { watch with calls := watch.calls ++ [ChildCall.poll poll] }
  match poll with
  | .running => { polled with status := none }
  | .exited code => { polled with status := some code }
  | .failed => polled.forceKill kill

/-- What the turn does; `stopSent`: the stop command can be received. -/
def select (options : RunOptions) (stopSent : Bool) (turn : LoopTurn) : Watch :=
  match turn.selected with
  | .output event => if watch.eventsOpen then watch.handleEvent event else watch
  | .eventsClosed => { watch with eventsOpen := false }
  | .stopCommand =>
    if stopSent then watch.requestStop options .cancelled turn.later turn.signal turn.kill
    else watch
  | .cancelToken => watch.requestStop options .cancelled turn.later turn.signal turn.kill
  | .slept => watch

/-- One turn of the loop, and whether the loop ends with it. -/
def loopTurn (options : RunOptions) (deadline : ℕ) (stopSent : Bool) (turn : LoopTurn) : Watch × Bool :=
  let forced :=
    (watch.stopAtDeadline options deadline turn).forceAfterGrace turn.now turn.kill
  if forced.cleanupDeadline.any (fun bound => bound ≤ turn.now) then (forced, true)
  else
    let polled := forced.pollChild turn.poll turn.kill
    if polled.status.isSome ∧ polled.stopReason.isNone then (polled.forceKill turn.kill, true)
    else if polled.status.isSome ∧ polled.forceSent then (polled, true)
    else (polled.select options stopSent turn, false)

/-- One turn of the drain, and whether the drain ends with it. -/
def drainTurn (streams cleanupDeadline : ℕ) (turn : DrainTurn) : Watch × Bool :=
  if watch.countEof < streams ∧ turn.now < cleanupDeadline then
    let forced := watch.forceAfterGrace turn.now turn.kill
    match turn.event with
    | some event => (forced.handleEvent event, false)
    | none => (forced, true)
  else (watch, true)

def waitChild (result : WaitResult) : Watch :=
  let waited := { watch with calls := watch.calls ++ [ChildCall.wait result] }
  match result with
  | .exited code => { waited with status := some code }
  | _ => waited

end Watch

/-! ## What the locals say about the calls -/

/-- The kill is known to have succeeded only if one has. -/
def Watch.Honest (watch : Watch) : Prop :=
  watch.forceSucceeded = true → ∃ result, result ≠ KillResult.failed ∧ .kill result ∈ watch.calls

namespace Watch

variable {watch : Watch} {options : RunOptions}

lemma honest_default : ({} : Watch).Honest := by
  intro h
  cases h

lemma Honest.of_calls (h : watch.Honest) {next : Watch} (more : List ChildCall)
    (hsucceeded : next.forceSucceeded = watch.forceSucceeded)
    (hcalls : next.calls = watch.calls ++ more) : next.Honest := by
  intro hnext
  obtain ⟨result, hresult, hmem⟩ := h (hsucceeded ▸ hnext)
  exact ⟨result, hresult, by rw [hcalls]; exact List.mem_append_left _ hmem⟩

lemma Honest.of_same (h : watch.Honest) {next : Watch}
    (hsucceeded : next.forceSucceeded = watch.forceSucceeded) (hcalls : next.calls = watch.calls) : next.Honest :=
  h.of_calls [] hsucceeded (by simp [hcalls])

lemma Honest.forceKill (h : watch.Honest) (kill : KillResult) : (watch.forceKill kill).Honest := by
  unfold Watch.forceKill
  split
  · exact h
  · intro hsucceeded
    simp only [Bool.or_eq_true, decide_eq_true_eq] at hsucceeded
    rcases hsucceeded with hbefore | hkill
    · obtain ⟨result, hresult, hmem⟩ := h hbefore
      exact ⟨result, hresult, List.mem_append_left _ hmem⟩
    · exact ⟨kill, hkill, by simp⟩

lemma Honest.requestStop (h : watch.Honest) (reason : StopReason) (now : ℕ) (signal : Bool)
    (kill : KillResult) : (watch.requestStop options reason now signal kill).Honest := by
  unfold Watch.requestStop
  split
  · exact h
  · have hsignalled : ({ watch with
        stopReason := some reason
        calls := watch.calls ++ [.signal signal] } : Watch).Honest := h.of_calls _ rfl rfl
    dsimp only
    split
    · exact hsignalled.of_same rfl rfl
    · exact (hsignalled.forceKill kill).of_same rfl rfl

lemma Honest.stopAtDeadline (h : watch.Honest) (options : RunOptions) (deadline : ℕ) (turn : LoopTurn) :
    (watch.stopAtDeadline options deadline turn).Honest := by
  unfold Watch.stopAtDeadline
  split
  · exact h.requestStop _ _ _ _
  · exact h

lemma Honest.forceAfterGrace (h : watch.Honest) (now : ℕ) (kill : KillResult) :
    (watch.forceAfterGrace now kill).Honest := by
  unfold Watch.forceAfterGrace
  split
  · exact h.forceKill kill
  · exact h

lemma Honest.handleEvent (h : watch.Honest) (event : OutputEvent) : (watch.handleEvent event).Honest := by
  cases event <;> exact h

lemma Honest.pollChild (h : watch.Honest) (poll : PollResult) (kill : KillResult) :
    (watch.pollChild poll kill).Honest := by
  have hpolled : ({ watch with calls := watch.calls ++ [.poll poll] } : Watch).Honest :=
    h.of_calls _ rfl rfl
  cases poll with
  | running => exact hpolled.of_same rfl rfl
  | exited code => exact hpolled.of_same rfl rfl
  | failed => exact hpolled.forceKill kill

lemma Honest.select (h : watch.Honest) (stopSent : Bool) (turn : LoopTurn) :
    (watch.select options stopSent turn).Honest := by
  unfold Watch.select
  split
  · split
    · exact h.handleEvent _
    · exact h
  · exact h.of_same rfl rfl
  · split
    · exact h.requestStop _ _ _ _
    · exact h
  · exact h.requestStop _ _ _ _
  · exact h

lemma Honest.loopTurn (h : watch.Honest) (options : RunOptions) (deadline : ℕ) (stopSent : Bool) (turn : LoopTurn) :
    (watch.loopTurn options deadline stopSent turn).1.Honest := by
  unfold Watch.loopTurn
  dsimp only
  have hforced := (h.stopAtDeadline options deadline turn).forceAfterGrace turn.now
    turn.kill
  split
  · exact hforced
  have hpolled := hforced.pollChild turn.poll turn.kill
  split
  · exact hpolled.forceKill turn.kill
  split
  · exact hpolled
  · exact hpolled.select stopSent turn

lemma Honest.drainTurn (h : watch.Honest) (streams cleanupDeadline : ℕ) (turn : DrainTurn) :
    (watch.drainTurn streams cleanupDeadline turn).1.Honest := by
  unfold Watch.drainTurn
  split
  · have hforced := h.forceAfterGrace turn.now turn.kill
    dsimp only
    split
    · exact hforced.handleEvent _
    · exact hforced
  · exact h

lemma Honest.waitChild (h : watch.Honest) (result : WaitResult) : (watch.waitChild result).Honest := by
  have hwaited : ({ watch with calls := watch.calls ++ [.wait result] } : Watch).Honest :=
    h.of_calls _ rfl rfl
  cases result with
  | exited code => exact hwaited.of_same rfl rfl
  | failed => exact hwaited
  | elapsed => exact hwaited

lemma Honest.settled (h : watch.Honest) (hsucceeded : watch.forceSucceeded = true) (code : ℤ) :
    SettledCleanup (watch.waitChild (.exited code)).calls (watch.waitChild (.exited code)).status := by
  obtain ⟨result, hresult, hmem⟩ := h hsucceeded
  refine ⟨result, code, hresult, rfl, ?_⟩
  have hkill : List.Sublist [ChildCall.kill result] watch.calls := List.singleton_sublist.mpr hmem
  exact hkill.append (List.Sublist.refl [ChildCall.wait (.exited code)])

end Watch

end AgzRustMcp.Process
