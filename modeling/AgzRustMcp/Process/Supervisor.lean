import AgzRustMcp.Foundation.Runs
import AgzRustMcp.Process.Cleanup

/-!
# The process supervisor

A run reserves its place in the active set before it spawns a process, writes the process into the
journal, and leaves both when the cleanup is complete; otherwise it is retained.  `close` stops new
reservations and asks the active runs to stop.  A run makes one step at a time, and the events say
whose step it is.
-/

namespace AgzRustMcp.Process

inductive ProcessError
  | closing
  | cancelled
  | timedOut
  | invalidSpecification
  | spawn
  | missingPid
deriving DecidableEq

/-- `ProcessRunResult`, as far as it speaks about the end of the process. -/
structure RunOutcome where
  cleanupComplete : Bool
  status : Option ℤ
  stopReason : Option StopReason
  drainComplete : Bool
deriving DecidableEq

/-- Where `run_spec_inner` is; the last phases are behind the active set. -/
inductive RunPhase
  | preparing
  | spawning
  | recording
  | polling
  | draining (cleanupDeadline : ℕ)
  | joining (drained : Bool)
  | waiting (drained : Bool)
  | rewaiting (drained : Bool)
  | settling (outcome : RunOutcome)
  | finishing (result : Except ProcessError RunOutcome)
  | uncounting (result : Except ProcessError RunOutcome)
  | completing (result : Except ProcessError RunOutcome)
  | over (result : Except ProcessError RunOutcome)
deriving DecidableEq

/-- A call of `run_spec_inner`: its process, the stop, and its completion. -/
structure Run where
  options : RunOptions
  started : ℕ
  phase : RunPhase
  spawned : Bool := false
  streams : ℕ := 0
  journalRecorded : Bool := false
  watch : Watch := {}
  stopSent : Bool := false
  complete : Bool := false
deriving DecidableEq

/-- What `spawn` returns, with its process id and output streams. -/
inductive SpawnAnswer
  | failed
  | spawned (pid : Option ℕ) (streams : ℕ)
deriving DecidableEq

structure ShutdownReport where
  requested : ℕ
  completed : ℕ
  remaining : ℕ
deriving DecidableEq

/-- A call of `close`: the runs to stop, those to wait for, and its report. -/
structure CloseCall where
  requested : ℕ
  stops : Finset ℕ
  waits : Finset ℕ
  completed : ℕ
  report : Option ShutdownReport
deriving DecidableEq

/-! ## The steps of a run -/

namespace Run

variable (run : Run)

/-- The time at which the run is stopped. -/
def deadline : ℕ :=
  let timeoutDeadline := run.started + run.options.timeout
  (run.options.deadline.map fun deadline => min deadline timeoutDeadline).getD timeoutDeadline

/-- The checks before the spawn. -/
def prepare (normalized cancelled : Bool) (now : ℕ) : Run :=
  if normalized = false then { run with phase := .finishing (.error .invalidSpecification) }
  else if cancelled ∨ run.stopSent then { run with phase := .finishing (.error .cancelled) }
  else if run.options.timeout = 0 ∨ run.options.deadline.any (fun deadline => deadline ≤ now) then
    { run with phase := .finishing (.error .timedOut) }
  else { run with phase := .spawning }

def spawn : SpawnAnswer → Run
  | .failed => { run with phase := .finishing (.error .spawn) }
  | .spawned none _ => { run with phase := .finishing (.error .missingPid), spawned := true }
  | .spawned (some _) streams => { run with phase := .recording, spawned := true, streams }

def poll (turn : LoopTurn) : Run :=
  let (watch, done) := run.watch.loopTurn run.options run.deadline run.stopSent turn
  { run with
    watch
    phase := if done then
        .draining (watch.cleanupDeadline.getD (turn.later + run.options.cleanupTimeout))
      else .polling }

def drain (cleanupDeadline : ℕ) (turn : DrainTurn) : Run :=
  let (watch, done) := run.watch.drainTurn run.streams cleanupDeadline turn
  { run with
    watch
    phase := if done then .joining (decide (watch.countEof = run.streams))
      else .draining cleanupDeadline }

/-- The result of a run, once it is known whether a wait has collected the status. -/
def outcome (drained collected : Bool) : RunOutcome where
  cleanupComplete := collected && run.watch.forceSucceeded
  status := run.watch.status
  stopReason := run.watch.stopReason
  drainComplete := drained

/-- A run whose last wait is over. -/
def settle (drained collected : Bool) : Run :=
  { run with phase := .settling (run.outcome drained collected) }

/-- The first wait for the leader, with the kill that follows when it fails. -/
def wait (drained : Bool) (result : WaitResult) (kill : KillResult) : Run :=
  let waited := { run with watch := run.watch.waitChild result }
  match result with
  | .exited _ => waited.settle drained true
  | _ => { run with watch := (run.watch.waitChild result).forceKill kill, phase := .rewaiting drained }

/-- The second wait for the leader. -/
def rewait (drained : Bool) (result : WaitResult) : Run :=
  let waited := { run with watch := run.watch.waitChild result }
  match result with
  | .exited _ => waited.settle drained true
  | _ => waited.settle drained false

/-- The end of a run, which is retained unless its cleanup is complete. -/
def conclude (outcome : RunOutcome) : Run :=
  { run with
    phase := if outcome.cleanupComplete then .finishing (.ok outcome) else .over (.ok outcome) }

end Run

/-! ## The supervisor -/

/-- `SupervisorInner` with the journal and all calls, known by number. -/
structure Supervisor where
  closing : Bool := false
  active : Finset ℕ := ∅
  activeCount : ℕ := 0
  hasJournal : Bool
  journal : Finset ℕ := ∅
  runs : List Run := []
  closes : List CloseCall := []

/-- What happens next: a call, a step of a run, or a step of a call of `close`. -/
inductive SupervisorEvent
  | call (options : RunOptions) (now : ℕ)
  | prepare (run : ℕ) (normalized cancelled : Bool) (now : ℕ)
  | spawn (run : ℕ) (answer : SpawnAnswer)
  | record (run : ℕ) (ok : Bool)
  | poll (run : ℕ) (turn : LoopTurn)
  | drain (run : ℕ) (turn : DrainTurn)
  | join (run : ℕ) (complete : Bool)
  | wait (run : ℕ) (result : WaitResult) (kill : KillResult)
  | settle (run : ℕ) (ok : Bool)
  | finish (run : ℕ)
  | beginClose
  | sendStop (close run : ℕ)
  | awaitCompletion (close run : ℕ) (expired : Bool)
  | report (close : ℕ)
deriving DecidableEq

namespace Supervisor

variable (s : Supervisor)

def setRun (k : ℕ) (run : Run) : Supervisor := { s with runs := s.runs.modify k fun _ => run }

/-- Changes one call of `close`. -/
def setClose (c : ℕ) (call : CloseCall) : Supervisor :=
  { s with closes := s.closes.modify c fun _ => call }

/-- `reserve`.  Options that `validate_options` refuses reserve nothing. -/
def call (options : RunOptions) (now : ℕ) : Supervisor :=
  if options.maxOutputBytes = 0 then
    { s with runs := s.runs ++ [{
        options, started := now, phase := .over (.error .invalidSpecification) }] }
  else if s.closing then
    { s with runs := s.runs ++ [{ options, started := now, phase := .over (.error .closing) }] }
  else { s with
    active := insert s.runs.length s.active
    activeCount := s.activeCount + 1
    runs := s.runs ++ [{ options, started := now, phase := .preparing }] }

/-- The journal record of a run that has spawned its process. -/
def record (k : ℕ) (run : Run) (ok : Bool) : Supervisor :=
  if s.hasJournal ∧ ok then
    { s.setRun k { run with phase := .polling, journalRecorded := true } with
      journal := insert k s.journal }
  else s.setRun k { run with phase := .polling }

/-- The record goes when the cleanup is complete, and the run ends. -/
def settle (k : ℕ) (run : Run) (outcome : RunOutcome) (ok : Bool) : Supervisor :=
  if outcome.cleanupComplete ∧ run.journalRecorded ∧ ok then
    { s.setRun k (run.conclude outcome) with journal := s.journal.erase k }
  else s.setRun k (run.conclude outcome)

/-- The steps of `finish`. -/
def finish (k : ℕ) (run : Run) : Supervisor :=
  match run.phase with
  | .finishing result =>
    { s.setRun k { run with phase := .uncounting result } with active := s.active.erase k }
  | .uncounting result =>
    { s.setRun k { run with phase := .completing result } with activeCount := s.activeCount - 1 }
  | .completing result => s.setRun k { run with phase := .over result, complete := true }
  | _ => s

/-- The step of a run, when the run is at a step that the event answers. -/
def stepRun (k : ℕ) (run : Run) (event : SupervisorEvent) : Supervisor :=
  match run.phase, event with
  | .preparing, .prepare _ normalized cancelled now =>
    s.setRun k (run.prepare normalized cancelled now)
  | .spawning, .spawn _ answer => s.setRun k (run.spawn answer)
  | .recording, .record _ ok => s.record k run ok
  | .polling, .poll _ turn => s.setRun k (run.poll turn)
  | .draining cleanupDeadline, .drain _ turn => s.setRun k (run.drain cleanupDeadline turn)
  | .joining drained, .join _ complete =>
    s.setRun k { run with phase := .waiting (drained && complete) }
  | .waiting drained, .wait _ result kill => s.setRun k (run.wait drained result kill)
  | .rewaiting drained, .wait _ result _ => s.setRun k (run.rewait drained result)
  | .settling outcome, .settle _ ok => s.settle k run outcome ok
  | _, .finish _ => s.finish k run
  | _, _ => s

/-- `snapshot_for_shutdown`. -/
def beginClose : Supervisor :=
  { s with
    closing := true
    closes := s.closes ++ [⟨s.active.card, s.active, s.active, 0, none⟩] }

/-- The report of a call of `close`. -/
def shutdownReport (call : CloseCall) : ShutdownReport :=
  ⟨call.requested, call.completed, s.activeCount⟩

/-- A call of `close` asks a run to stop. -/
def sendStop (c k : ℕ) : Supervisor :=
  match s.closes[c]? with
  | none => s
  | some call =>
    if k ∈ call.stops then
      { s.setClose c { call with stops := call.stops.erase k } with
        runs := s.runs.modify k fun run => { run with stopSent := true } }
    else s

/-- A `close` waits for each run until it is complete or time is up. -/
def awaitCompletion (c k : ℕ) (expired : Bool) : Supervisor :=
  match s.closes[c]? with
  | none => s
  | some call =>
    if call.stops = ∅ ∧ k ∈ call.waits then
      let waits := call.waits.erase k
      if (s.runs[k]?).any Run.complete then
        s.setClose c { call with waits, completed := call.completed + 1 }
      else if expired then s.setClose c { call with waits }
      else s
    else s

/-- A call of `close` that has waited for all runs reports. -/
def report (c : ℕ) : Supervisor :=
  match s.closes[c]? with
  | none => s
  | some call =>
    if call.stops = ∅ ∧ call.waits = ∅ ∧ call.report = none then
      s.setClose c { call with report := some (s.shutdownReport call) }
    else s

def eventRun : SupervisorEvent → Option ℕ
  | .prepare k _ _ _ | .spawn k _ | .record k _ | .poll k _ | .drain k _ | .join k _ | .wait k _ _
  | .settle k _ | .finish k => some k
  | _ => none

def step (s : Supervisor) (event : SupervisorEvent) : Supervisor :=
  match event with
  | .call options now => s.call options now
  | .beginClose => s.beginClose
  | .sendStop c k => s.sendStop c k
  | .awaitCompletion c k expired => s.awaitCompletion c k expired
  | .report c => s.report c
  | event =>
    match (eventRun event).bind fun k => (s.runs[k]?).map fun run => (k, run) with
    | some (k, run) => s.stepRun k run event
    | none => s

def run (events : List SupervisorEvent) : Supervisor := Runs.run step s events

/-- A new child that has not been waited for has a process id. -/
def HasPid : SupervisorEvent → Prop
  | .spawn _ (.spawned pid _) => pid ≠ none
  | _ => True

end Supervisor

end AgzRustMcp.Process
