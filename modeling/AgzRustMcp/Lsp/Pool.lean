import AgzRustMcp.Foundation.Runs

/-!
# The pool of analyzers

`RustAnalyzerManager` keeps at most one analyzer for every workspace root.  A caller who finds none
owns a start: it waits in `ensure_capacity`, spawns the process and registers the instance.  Callers
use an instance under a lease.  A stop first marks the instance and then shuts its client down.

Everything under the lock of `ManagerState` is one step, and so are the atomic operations outside of
it; the events come from outside in any order.
-/

namespace AgzRustMcp.Lsp

open Std (ExtTreeMap)

/-- A canonical workspace root, by its path components. -/
abbrev WorkspaceRoot := List String

/-! ## Instances, starts and stops -/

/-- `Instance`, with its `StopState` and what its client says of itself. -/
structure Instance where
  root : WorkspaceRoot
  active : ℕ
  lastUsed : ℕ
  stopping : Bool
  stopped : Bool
  closed : Bool
deriving DecidableEq

def Instance.new (root : WorkspaceRoot) (now : ℕ) (closed : Bool) : Instance :=
  ⟨root, 0, now, false, false, closed⟩

def Instance.touch (object : Instance) (now : ℕ) : Instance := { object with lastUsed := now }

/-- Where a start is: at `ensure_capacity`, waiting there, past it, or done. -/
inductive StartPhase
  | checking
  | evicting (attempt : ℕ)
  | admitted
  | over
deriving DecidableEq

/-- A caller in `start_owner`.  Its number is the identity of its `StartFlight`. -/
structure StartOwner where
  root : WorkspaceRoot
  phase : StartPhase
deriving DecidableEq

/-- Who has called `stop_instance_until`. -/
inductive StopCause
  | sweep
  | eviction
  | closedClient
  | startedWhileClosing
  | close (expired : Bool)
deriving DecidableEq

/-- Only `close_all` forces a stop, after its lease deadline. -/
def StopCause.force : StopCause → Bool
  | .close expired => expired
  | _ => false

/-- Where `stop_instance_until` is: before `mark_stopping`, or in an attempt, or done. -/
inductive StopPhase
  | marking
  | shutting
  | waiting
  | over (marked result : Bool)
deriving DecidableEq

/-- A call of `stop_instance_until`. -/
structure StopAttempt where
  object : ℕ
  cause : StopCause
  phase : StopPhase
deriving DecidableEq

/-- How `stop_marked_until` ends: no time, or as `shutdown` does. -/
inductive ShutdownOutcome
  | noTime
  | done
  | failed
  | timedOut
deriving DecidableEq

/-- Whether `stop_marked_until` takes the analyzer for stopped. -/
def ShutdownOutcome.completed (outcome : ShutdownOutcome) (object : Instance) : Bool :=
  match outcome with
  | .noTime | .timedOut => false
  | .done => true
  | .failed => object.closed

/-! ## The pool -/

/-- `ManagerInner` with all instances ever made, the owners of starts, the stops and the leases.
`instances` and `starts` hold numbers of objects and owners. -/
structure AnalyzerPool where
  maxInstances : ℕ
  idle : ℕ
  now : ℕ := 0
  instances : ExtTreeMap WorkspaceRoot ℕ := ∅
  starts : ExtTreeMap WorkspaceRoot ℕ := ∅
  closing : Bool := false
  objects : List Instance := []
  owners : List StartOwner := []
  attempts : List StopAttempt := []
  leases : List ℕ := []

/-- What happens next.  The numbers are those of owners, attempts, objects and leases. -/
inductive PoolEvent
  | tick
  | acquire (root : WorkspaceRoot) (authorized : Bool)
  | tryLease (root : WorkspaceRoot) (authorized cancelled : Bool)
  | dropLease (index : ℕ)
  | checkCapacity (owner : ℕ)
  | failStart (owner : ℕ)
  | completeStart (owner : ℕ) (closed : Bool)
  | sweepIdle
  | markStopping (attempt : ℕ)
  | shutdown (attempt : ℕ) (outcome : ShutdownOutcome)
  | waitEnds (attempt : ℕ)
  | clientCloses (object : ℕ)
  | processExits (object : ℕ)
  | beginClose
  | closeVisits (object : ℕ) (expired : Bool)
deriving DecidableEq

namespace AnalyzerPool

variable (pool : AnalyzerPool)

/-- The object is the instance that is registered for its root. -/
def IsRegistered (id : ℕ) : Prop :=
  ∃ object, pool.objects[id]? = some object ∧ pool.instances[object.root]? = some id

/-- A stop attempt has marked the object and is shutting its client down. -/
def BeingStopped (id : ℕ) : Prop :=
  ∃ attempt ∈ pool.attempts, attempt.object = id ∧ attempt.phase = .shutting

def modifyObject (id : ℕ) (change : Instance → Instance) : AnalyzerPool :=
  { pool with objects := pool.objects.modify id change }

/-- Calls `stop_instance_until`. -/
def addAttempt (id : ℕ) (cause : StopCause) : AnalyzerPool :=
  { pool with attempts := pool.attempts ++ [⟨id, cause, .marking⟩] }

def setAttempt (k : ℕ) (phase : StopPhase) : AnalyzerPool :=
  { pool with attempts := pool.attempts.modify k fun attempt => { attempt with phase } }

def setOwner (k : ℕ) (phase : StartPhase) : AnalyzerPool :=
  { pool with owners := pool.owners.modify k fun owner => { owner with phase } }

@[simp] lemma owners_setOwner (k : ℕ) (phase : StartPhase) :
    (pool.setOwner k phase).owners = pool.owners.modify k fun owner => { owner with phase } := rfl

/-- Takes an object out of the registry if it is the one registered for its root. -/
def unregister (id : ℕ) (object : Instance) : AnalyzerPool :=
  if pool.instances[object.root]? = some id then
    { pool with instances := pool.instances.erase object.root }
  else pool

/-- The decision of `acquire_canonical`, with the step that it takes next. -/
def acquire (root : WorkspaceRoot) (authorized : Bool) : AnalyzerPool :=
  if pool.closing then pool
  else match pool.instances[root]? with
    | some id =>
      match pool.objects[id]? with
      | none => pool
      | some object =>
        if object.stopping then pool
        else if object.closed then pool.addAttempt id .closedClient
        else if authorized then pool.modifyObject id (·.touch pool.now)
        else pool
    | none =>
      if pool.starts.contains root then pool
      else { pool with
        starts := pool.starts.insert root pool.owners.length
        owners := pool.owners ++ [⟨root, .checking⟩] }

/-- `try_lease`, with the object on which it has granted a lease. -/
def tryLease (root : WorkspaceRoot) (authorized cancelled : Bool) : AnalyzerPool × Option ℕ :=
  if pool.closing then (pool, none)
  else match pool.instances[root]? with
    | none => (pool, none)
    | some id =>
      match pool.objects[id]? with
      | none => (pool, none)
      | some object =>
        if object.stopping ∨ object.closed then (pool, none)
        else if !authorized then (pool, none)
        else if cancelled then
          -- The count goes up and down again under the lock.
          (pool.modifyObject id fun object =>
            { object with active := object.active + 1 - 1, lastUsed := pool.now }, none)
        else
          ({ pool.modifyObject id fun object =>
              { object with active := object.active + 1, lastUsed := pool.now } with
            leases := pool.leases ++ [id] }, some id)

/-- `ClientLease::drop`. -/
def dropLease (index : ℕ) : AnalyzerPool :=
  match pool.leases[index]? with
  | none => pool
  | some id =>
    { pool.modifyObject id fun object =>
        if object.active = 0 then object
        else { object with active := object.active - 1, lastUsed := pool.now } with
      leases := pool.leases.eraseIdx index }

/-- What `ensure_capacity` decides under the lock. -/
inductive CapacityAction
  | ready
  | stop (id : ℕ)
  | wait
deriving DecidableEq

def reservedElsewhere : ℕ := pool.instances.size + pool.starts.size - 1

/-- The place of a root among the pending starts. -/
def startRank (root : WorkspaceRoot) : Option ℕ := pool.starts.keys.findIdx? (· == root)

/-- Whether a start may go ahead because of its place among the starts. -/
def startupSlot (root : WorkspaceRoot) : Bool :=
  pool.instances.isEmpty && (pool.startRank root).any fun rank => decide (rank < pool.maxInstances)

/-- The idle instances of other roots. -/
def evictable (root : WorkspaceRoot) : List ℕ :=
  (pool.instances.toList.filter fun entry => entry.1 != root &&
    (pool.objects[entry.2]?).any fun object => object.active == 0 && !object.stopping).map Prod.snd

def lastUsed (id : ℕ) : ℕ := (pool.objects[id]?.map Instance.lastUsed).getD 0

/-- What `ensure_capacity` decides for the start of a root. -/
def capacityAction (root : WorkspaceRoot) : CapacityAction :=
  if pool.reservedElsewhere < pool.maxInstances ∨ pool.startupSlot root = true then .ready
  else match (pool.evictable root).argmin pool.lastUsed with
    | none => .wait
    | some id => .stop id

/-- Whether the owner of a start can look at the capacity now. -/
def mayCheck (owner : StartOwner) : Bool :=
  match owner.phase with
  | .checking => true
  | .evicting k => match pool.attempts[k]? with
    | some ⟨_, _, .over _ _⟩ => true
    | _ => false
  | _ => false

/-- Takes a start out of the registry if it is registered for its root. -/
def finishStart (k : ℕ) (owner : StartOwner) : AnalyzerPool :=
  if pool.starts[owner.root]? = some k then
    { pool.setOwner k .over with starts := pool.starts.erase owner.root }
  else pool.setOwner k .over

/-- One turn of the loop in `ensure_capacity`. -/
def checkCapacity (k : ℕ) : AnalyzerPool :=
  match pool.owners[k]? with
  | none => pool
  | some owner =>
    if pool.mayCheck owner then
      if pool.closing then pool.finishStart k owner
      else match pool.capacityAction owner.root with
        | .ready => pool.setOwner k .admitted
        | .stop id => (pool.addAttempt id .eviction).setOwner k (.evicting pool.attempts.length)
        | .wait => pool.setOwner k .checking
    else pool

/-- `complete_start` with an error: the start was cancelled, waited too long or failed. -/
def failStart (k : ℕ) : AnalyzerPool :=
  match pool.owners[k]? with
  | none => pool
  | some owner =>
    if pool.mayCheck owner ∨ owner.phase = .admitted then pool.finishStart k owner else pool

/-- `complete_start` with a new instance, whose client may have closed already. -/
def completeStart (k : ℕ) (closed : Bool) : AnalyzerPool :=
  match pool.owners[k]? with
  | none => pool
  | some owner =>
    if owner.phase = .admitted then
      let id := pool.objects.length
      let registered := { pool with
        objects := pool.objects ++ [Instance.new owner.root pool.now closed]
        instances := pool.instances.insert owner.root id }
      let finished := registered.finishStart k owner
      if pool.closing then finished.addAttempt id .startedWhileClosing else finished
    else pool

/-- Whether an instance has been idle for long enough. -/
def isIdle (id : ℕ) : Bool :=
  (pool.objects[id]?).any fun object =>
    object.active == 0 && !object.stopping && decide (pool.idle ≤ pool.now - object.lastUsed)

def sweepIdle : AnalyzerPool :=
  if pool.closing then pool
  else { pool with
    attempts := pool.attempts ++ (pool.instances.values.filter pool.isIdle).map fun id => ⟨id, .sweep, .marking⟩ }

/-- Whether `mark_stopping` finds that the object can be stopped. -/
def canMark (id : ℕ) (object : Instance) (force : Bool) : Bool :=
  decide (pool.instances[object.root]? = some id) && !object.stopping && (force || object.active == 0)

/-- `mark_stopping`, and where its caller goes from there. -/
def markStopping (k : ℕ) : AnalyzerPool :=
  match pool.attempts[k]? with
  | some ⟨id, cause, .marking⟩ =>
    match pool.objects[id]? with
    | none => pool
    | some object =>
      if pool.canMark id object cause.force then
        (pool.modifyObject id fun object => { object with stopping := true }).setAttempt k .shutting
      else pool.setAttempt k .waiting
  | _ => pool

/-- The end of `stop_marked_until`. -/
def shutdown (k : ℕ) (outcome : ShutdownOutcome) : AnalyzerPool :=
  match pool.attempts[k]? with
  | some ⟨id, _, .shutting⟩ =>
    match pool.objects[id]? with
    | none => pool
    | some object =>
      if outcome.completed object then
        ((pool.unregister id object).modifyObject id fun object =>
          { object with stopped := true }).setAttempt k (.over true true)
      else pool.setAttempt k (.over true false)
  | _ => pool

/-- The end of waiting for another attempt, or the deadline. -/
def waitEnds (k : ℕ) : AnalyzerPool :=
  match pool.attempts[k]? with
  | some ⟨id, _, .waiting⟩ =>
    pool.setAttempt k (.over false ((pool.objects[id]?).any Instance.stopped))
  | _ => pool

/-- The process exits and the close handler of the instance runs. -/
def processExits (id : ℕ) : AnalyzerPool :=
  match pool.objects[id]? with
  | none => pool
  | some object =>
    if pool.instances[object.root]? = some id then
      (pool.unregister id object).modifyObject id fun object =>
        { object with closed := true, stopped := true }
    else pool.modifyObject id fun object => { object with closed := true }

/-- A turn of the loop in `close_all` for one of the instances that it has listed. -/
def closeVisits (id : ℕ) (expired : Bool) : AnalyzerPool :=
  match pool.objects[id]? with
  | none => pool
  | some object =>
    if pool.closing ∧ (object.active = 0 ∨ expired) then
      pool.addAttempt id (.close expired)
    else pool

def step (pool : AnalyzerPool) : PoolEvent → AnalyzerPool
  | .tick => { pool with now := pool.now + 1 }
  | .acquire root authorized => pool.acquire root authorized
  | .tryLease root authorized cancelled => (pool.tryLease root authorized cancelled).1
  | .dropLease index => pool.dropLease index
  | .checkCapacity k => pool.checkCapacity k
  | .failStart k => pool.failStart k
  | .completeStart k closed => pool.completeStart k closed
  | .sweepIdle => pool.sweepIdle
  | .markStopping k => pool.markStopping k
  | .shutdown k outcome => pool.shutdown k outcome
  | .waitEnds k => pool.waitEnds k
  | .clientCloses id => pool.modifyObject id fun object => { object with closed := true }
  | .processExits id => pool.processExits id
  | .beginClose => { pool with closing := true }
  | .closeVisits id expired => pool.closeVisits id expired

def empty (maxInstances idle : ℕ) : AnalyzerPool := { maxInstances, idle }

def run (events : List PoolEvent) : AnalyzerPool := Runs.run step pool events

/-- The instances, and the starts that have passed `ensure_capacity`. -/
def running : ℕ :=
  pool.instances.size + pool.owners.countP fun owner => decide (owner.phase = .admitted)

end AnalyzerPool

end AgzRustMcp.Lsp
