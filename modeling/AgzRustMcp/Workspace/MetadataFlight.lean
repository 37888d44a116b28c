import AgzRustMcp.Foundation.Runs
import AgzRustMcp.Gate.Scope

/-!
# Single flight of the metadata

`acquire_inner` answers from a cache, joins the load of another caller with the same key, or loads
itself.  Between two phases of a caller any other may act; what the files hold and what Cargo says
is the answer that a step meets.  The generations are numbers without a bound.
-/

namespace AgzRustMcp.Workspace

open Gate (FsPath)

/-! ## Requests -/

/-- The outcomes of a request's own limits. -/
inductive Stop
  | cancelled
  | timedOut
  deriving DecidableEq

inductive MetadataError
  | stopped (stop : Stop)
  | inputsChanged
  | rootEpochChanged (expected actual : ℕ)
  | other (message : String)
  deriving DecidableEq

inductive MetadataCacheState
  | hit | miss | bypass
  deriving DecidableEq

structure MetadataKey (φ : Type) where
  packageRoot : FsPath
  epoch : ℕ
  generation : ℕ
  graphFingerprint : φ
  supervisedSccache : Bool
  deriving DecidableEq

/-- A call of `acquire_inner`, with its selection and deadline. -/
structure AcquireRequest where
  packageRoot : FsPath
  epoch : ℕ
  deadline : Option ℕ
  supervisedSccache : Bool
  deriving DecidableEq

section

variable (φ α : Type)

/-- Where a call of `acquire_inner` is. -/
inductive AcquirePhase
  | started
  | surveying (generation : ℕ)
  | bypassing
  | seeking (key : MetadataKey φ)
  | waiting (key : MetadataKey φ) (flight : ℕ)
  | asleep (key : MetadataKey φ) (flight : ℕ)
  | loading (key : MetadataKey φ) (flight : ℕ)
  | verifying (key : MetadataKey φ) (flight : ℕ) (snapshot : α)
  | finishing (key : MetadataKey φ) (flight : ℕ) (result : Except MetadataError α)
  | done (result : Except MetadataError (α × MetadataCacheState))

/-- A caller; its token may be cancelled at any time. -/
structure AcquireCaller where
  request : AcquireRequest
  cancelled : Bool
  phase : AcquirePhase φ α

/-- `MetadataState`, with the results of the flights. -/
structure MetadataState where
  generations : FsPath → ℕ
  cache : MetadataKey φ → Option α
  active : MetadataKey φ → Option ℕ
  flights : ℕ → Option (Except MetadataError α)
  nextFlight : ℕ

/-- The service, its callers, the clock, and the epoch of the guard. -/
structure MetadataWorld where
  state : MetadataState φ α
  callers : ℕ → Option (AcquireCaller φ α)
  nextCaller : ℕ
  now : ℕ
  epoch : ℕ

/-- What a step meets: a fingerprint, a snapshot, a failure, a stop, or nothing. -/
inductive AcquireAnswer
  | surveyed (fingerprint : Option φ)
  | loaded (snapshot : α)
  | failed (message : String)
  | reported (stop : Stop)
  | nothing

/-- What can happen. -/
inductive MetadataEvent
  | call (request : AcquireRequest)
  | cancel (caller : ℕ)
  | tick
  | newEpoch
  | markDirty (packageRoot : FsPath)
  | clear
  | advance (caller : ℕ) (answer : AcquireAnswer φ α)

end

variable {φ α : Type}

/-! ## Calls -/

/-- `checkpoint`: nothing stops a call without a control. -/
def AcquireCaller.checkpoint (caller : AcquireCaller φ α) (now : ℕ) : Option Stop :=
  match caller.request.deadline with
  | none => none
  | some deadline => if caller.cancelled then some .cancelled else if deadline ≤ now then some .timedOut else none

/-- A call that is stopped at a checkpoint, or goes on. -/
def AcquireCaller.stopOr (caller : AcquireCaller φ α) (now : ℕ) (stopped : MetadataError → AcquirePhase φ α)
    (next : AcquirePhase φ α) : AcquirePhase φ α :=
  match caller.checkpoint now with
  | some stop => stopped (.stopped stop)
  | none => next

/-- A call that ends with an error. -/
def AcquirePhase.fails (error : MetadataError) : AcquirePhase φ α := .done (.error error)

/-- The key of a call, with what it has found. -/
def AcquireRequest.key (request : AcquireRequest) (generation : ℕ) (fingerprint : φ) : MetadataKey φ where
  packageRoot := request.packageRoot
  epoch := request.epoch
  generation := generation
  graphFingerprint := fingerprint
  supervisedSccache := request.supervisedSccache

/-- A follower takes the outcome, or goes back for another's limits. -/
def takeResult (key : MetadataKey φ) : Except MetadataError α → AcquirePhase φ α
  | .error (.stopped _) => .seeking key
  | .error error => .fails error
  | .ok snapshot => .done (.ok (snapshot, .hit))

variable [DecidableEq φ]

/-- The fingerprint after the load is compared with the one of the key. -/
def verifyFingerprint (key : MetadataKey φ) (flight : ℕ) (snapshot : α) (fingerprint : Option φ) : AcquirePhase φ α :=
  if fingerprint = some key.graphFingerprint then .finishing key flight (.ok snapshot)
  else .finishing key flight (.error .inputsChanged)

/-- The phase after a step of a caller that leaves the service as it is. -/
def AcquireCaller.advance (caller : AcquireCaller φ α) (world : MetadataWorld φ α)
    (answer : AcquireAnswer φ α) : AcquirePhase φ α :=
  match caller.phase with
  | .started =>
    caller.stopOr world.now .fails
      (if caller.request.epoch = world.epoch then .surveying (world.state.generations caller.request.packageRoot)
        else .fails (.rootEpochChanged caller.request.epoch world.epoch))
  | .surveying generation =>
    match answer with
    | .surveyed none => .bypassing
    | .surveyed (some fingerprint) => .seeking (caller.request.key generation fingerprint)
    | .failed message => .fails (.other message)
    | _ => caller.stopOr world.now .fails caller.phase
  | .bypassing =>
    match answer with
    | .loaded snapshot => caller.stopOr world.now .fails (.done (.ok (snapshot, .bypass)))
    | .failed message => .fails (.other message)
    | .reported stop => .fails (.stopped stop)
    | _ => caller.stopOr world.now .fails caller.phase
  | .seeking key =>
    caller.stopOr world.now .fails <|
      match world.state.cache key with
      | some snapshot => .done (.ok (snapshot, .hit))
      | none =>
        match world.state.active key with
        | some flight => .waiting key flight
        | none => .loading key world.state.nextFlight
  | .waiting key flight =>
    match world.state.flights flight with
    | some result => takeResult key result
    | none => caller.stopOr world.now .fails (.asleep key flight)
  | .asleep key flight => .waiting key flight
  | .loading key flight =>
    match answer with
    | .loaded snapshot =>
      caller.stopOr world.now (fun error => .finishing key flight (.error error)) (.verifying key flight snapshot)
    | .failed message => .finishing key flight (.error (.other message))
    | .reported stop => .finishing key flight (.error (.stopped stop))
    | _ => caller.stopOr world.now (fun error => .finishing key flight (.error error)) caller.phase
  | .verifying key flight snapshot =>
    match answer with
    | .surveyed fingerprint => verifyFingerprint key flight snapshot fingerprint
    | .failed message => .finishing key flight (.error (.other message))
    | _ => caller.stopOr world.now (fun error => .finishing key flight (.error error)) caller.phase
  | .finishing _ _ result => .done (result.map fun snapshot => (snapshot, .miss))
  | .done result => .done result

/-! ## The service -/

/-- A flight of a key is begun. -/
def MetadataState.begin (state : MetadataState φ α) (key : MetadataKey φ) : MetadataState φ α :=
  { state with
    active := Function.update state.active key (some state.nextFlight)
    nextFlight := state.nextFlight + 1 }

/-- The owner leaves its result; unmarked packages are cached. -/
def MetadataState.finish (state : MetadataState φ α) (key : MetadataKey φ) (flight : ℕ)
    (result : Except MetadataError α) : MetadataState φ α :=
  { state with
    active := Function.update state.active key none
    flights := Function.update state.flights flight (some result)
    cache :=
      match result with
      | .ok snapshot =>
        if state.generations key.packageRoot = key.generation then
          Function.update state.cache key (some snapshot)
        else state.cache
      | .error _ => state.cache }

/-- `mark_dirty`; the package of a snapshot is that of its key. -/
def MetadataState.markDirty (state : MetadataState φ α) (packageRoot : FsPath) : MetadataState φ α :=
  { state with
    generations := Function.update state.generations packageRoot (state.generations packageRoot + 1)
    cache := fun key => if key.packageRoot = packageRoot then none else state.cache key }

/-- `clear`, which forgets the generations as well. -/
def MetadataState.clear (state : MetadataState φ α) : MetadataState φ α :=
  { state with generations := fun _ => 0, cache := fun _ => none }

/-- The phase of another caller when a flight has its result: `notify_all`. -/
def AcquirePhase.notified (flight : ℕ) : AcquirePhase φ α → AcquirePhase φ α
  | .asleep key other => if other = flight then .waiting key other else .asleep key other
  | phase => phase

/-- The phase of another caller after a step of a caller from a phase. -/
def AcquirePhase.beside (before : AcquirePhase φ α) (phase : AcquirePhase φ α) : AcquirePhase φ α :=
  match before with
  | .finishing _ flight _ => phase.notified flight
  | _ => phase

/-- What a step of a caller does to the service. -/
def MetadataState.after (state : MetadataState φ α) (before next : AcquirePhase φ α) : MetadataState φ α :=
  match before, next with
  | .seeking _, .loading key _ => state.begin key
  | .finishing key flight result, _ => state.finish key flight result
  | _, _ => state

namespace MetadataWorld

/-- A service without snapshots and callers. -/
def start (epoch : ℕ) : MetadataWorld φ α where
  state := ⟨fun _ => 0, fun _ => none, fun _ => none, fun _ => none, 0⟩
  callers := fun _ => none
  nextCaller := 0
  now := 0
  epoch := epoch

/-- A step of a caller. -/
def advance (world : MetadataWorld φ α) (index : ℕ) (answer : AcquireAnswer φ α) : MetadataWorld φ α :=
  match world.callers index with
  | none => world
  | some caller =>
    let next := caller.advance world answer
    { world with
      state := world.state.after caller.phase next
      callers := Function.update
        (fun other => (world.callers other).map fun beside =>
          { beside with phase := caller.phase.beside beside.phase })
        index (some { caller with phase := next }) }

/-- One thing happens. -/
def step (world : MetadataWorld φ α) : MetadataEvent φ α → MetadataWorld φ α
  | .call request =>
    { world with
      callers := Function.update world.callers world.nextCaller (some ⟨request, false, .started⟩)
      nextCaller := world.nextCaller + 1 }
  | .cancel index =>
    { world with
      callers := Function.update world.callers index
        ((world.callers index).map fun caller => { caller with cancelled := true }) }
  | .tick => { world with now := world.now + 1 }
  | .newEpoch => { world with epoch := world.epoch + 1 }
  | .markDirty packageRoot => { world with state := world.state.markDirty packageRoot }
  | .clear => { world with state := world.state.clear }
  | .advance index answer => world.advance index answer

def after (epoch : ℕ) (events : List (MetadataEvent φ α)) : MetadataWorld φ α :=
  Runs.run step (start epoch) events

/-- Where a caller is. -/
def phaseOf (world : MetadataWorld φ α) (index : ℕ) : Option (AcquirePhase φ α) :=
  (world.callers index).map AcquireCaller.phase

end MetadataWorld

end AgzRustMcp.Workspace
