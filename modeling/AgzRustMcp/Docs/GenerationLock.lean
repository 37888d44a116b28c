import AgzRustMcp.Cache.Publish

/-!
# The generation lock of a docs cache entry

`prepare_generation_bounded` takes an advisory lock on a file beside the entry, and the caller that
has it removes the lock files of other entries that are old or too many.  Several processes do this
to one directory, so every call of the file system is a step of its own.
-/

namespace AgzRustMcp.Docs

open Std (ExtTreeMap)
open Cache (Entry)

def maxGenerationLocks : ℕ := 256

def maxGenerationLockScan : ℕ := maxGenerationLocks * 4

/-- `GENERATION_LOCK_MAX_AGE`, in seconds. -/
def generationLockMaxAge : ℕ := 30 * 24 * 60 * 60

def lockEnding : String := ".generation.lock"

/-- The file name of `generation_lock_path`. -/
def generationLockName (entry : String) : String := entry ++ lockEnding

/-- `DocsCacheError`, as far as the lock is concerned. -/
inductive LockError
  | validation (message : String)
  | io
  | cancelled
  | deadlineExceeded
deriving DecidableEq

structure GenerationLockCandidate where
  name : String
  modified : ℕ
deriving DecidableEq

/-- The order in which `cleanup_generation_locks` looks at its candidates. -/
def GenerationLockCandidate.before (left right : GenerationLockCandidate) : Bool :=
  decide (left.modified < right.modified) ||
    decide (left.modified = right.modified) && decide (left.name ≤ right.name)

/-- The old candidates, and the first others while there are too many. -/
def locksToRemove (now : ℕ) (candidates : List GenerationLockCandidate) : List GenerationLockCandidate :=
  let sorted := candidates.mergeSort GenerationLockCandidate.before
  let excess := sorted.length - (maxGenerationLocks - 1)
  (sorted.zipIdx.filter fun (candidate, index) =>
    decide (candidate.modified ≤ now ∧ generationLockMaxAge ≤ now - candidate.modified) ||
      decide (index < excess)).map Prod.fst

/-- What a caller with the lock does next; `opened` is what it removes. -/
inductive LockWork
  | listing
  | reading (names : List String) (now : ℕ) (candidates : List GenerationLockCandidate)
  | cleaning (candidates : List GenerationLockCandidate)
  | probing (candidate : GenerationLockCandidate) (opened : ℕ)
      (candidates : List GenerationLockCandidate)
  | trying (candidate : GenerationLockCandidate) (opened : ℕ)
      (candidates : List GenerationLockCandidate)
  | inspecting (candidate : GenerationLockCandidate) (opened : ℕ)
      (candidates : List GenerationLockCandidate)
  | removing (candidate : GenerationLockCandidate) (opened : ℕ)
      (candidates : List GenerationLockCandidate)
  | unlocking (opened : ℕ) (candidates : List GenerationLockCandidate)
  | generating
deriving DecidableEq

/-- Where a caller is in `prepare_generation_bounded`. -/
inductive LockPhase
  | checking
  | opening
  | validating (file : ℕ)
  | locking (file : ℕ)
  | holds (file : ℕ) (work : LockWork)
  | failed (error : LockError)
  | released
  | crashed
deriving DecidableEq

/-- A caller, with the file name of its entry. -/
structure LockCaller where
  entry : String
  phase : LockPhase
deriving DecidableEq

/-- The root of the docs cache: the clock, the entries, and who has which lock. -/
structure LockWorld where
  now : ℕ
  entries : ExtTreeMap String Entry
  modified : List ℕ
  locks : ExtTreeMap ℕ ℕ := ∅
  callers : List LockCaller := []

/-- How a step ends: well, with the names it lists, or with an error. -/
inductive LockAnswer
  | ok (names : List String)
  | failed (error : LockError)

/-- What happens next. -/
inductive LockEvent
  | tick
  | call (entry : String)
  | advance (caller : ℕ) (answer : LockAnswer)
  | crash (caller : ℕ)

namespace LockWorld

variable (w : LockWorld)

def enter (k : ℕ) (caller : LockCaller) (phase : LockPhase) : LockWorld :=
  { w with callers := w.callers.modify k fun _ => { caller with phase } }

/-- The beginning of `acquire_generation_lock`. -/
def checkLockPath (k : ℕ) (caller : LockCaller) : LockWorld :=
  match w.entries[generationLockName caller.entry]? with
  | none | some (.file _) => w.enter k caller .opening
  | some _ =>
    w.enter k caller (.failed (.validation "local generation lock is not a regular file"))

/-- Opens the lock file, and creates it when it is missing. -/
def openLock (k : ℕ) (caller : LockCaller) : LockWorld :=
  match w.entries[generationLockName caller.entry]? with
  | some (.file file) => w.enter k caller (.validating file)
  | some _ => w.enter k caller (.failed .io)
  | none =>
    { w.enter k caller (.validating w.modified.length) with
      entries := w.entries.insert (generationLockName caller.entry) (.file w.modified.length)
      modified := w.modified ++ [w.now] }

def validateLockIdentity (name : String) (file : ℕ) : Except LockError Unit :=
  match w.entries[name]? with
  | none => .error .io
  | some (.file found) =>
    if found = file then .ok ()
    else .error (.validation "local generation lock identity changed while opening")
  | some _ => .error (.validation "local generation lock changed while opening")

/-- A turn of the loop in `acquire_generation_lock`. -/
def tryLock (k : ℕ) (caller : LockCaller) (file : ℕ) : LockWorld :=
  if w.locks.contains file then w
  else { w.enter k caller (.holds file .listing) with locks := w.locks.insert file k }

/-- The candidate that an entry of the directory gives. -/
def candidateAt (current name : String) : Option GenerationLockCandidate :=
  if ¬ lockEnding.toList <:+ name.toList ∨ name = current then none
  else match w.entries[name]? with
    | some (.file file) => w.modified[file]?.map fun modified => { name, modified }
    | _ => none

/-- A step of `cleanup_generation_locks` or of what follows. -/
def work (k : ℕ) (caller : LockCaller) (file : ℕ) (names : List String) : LockWork → LockWorld
  | .listing =>
    w.enter k caller (.holds file (.reading (names.take maxGenerationLockScan) w.now []))
  | .reading [] now candidates =>
    w.enter k caller (.holds file (.cleaning (locksToRemove now candidates)))
  | .reading (name :: names) now candidates =>
    w.enter k caller (.holds file (.reading names now
      (candidates ++ (w.candidateAt (generationLockName caller.entry) name).toList)))
  | .cleaning [] => w.enter k caller (.holds file .generating)
  | .cleaning (candidate :: candidates) =>
    match w.entries[candidate.name]? with
    | some (.file opened) => w.enter k caller (.holds file (.probing candidate opened candidates))
    | _ => w.enter k caller (.holds file (.cleaning candidates))
  | .probing candidate opened candidates =>
    match w.validateLockIdentity candidate.name opened with
    | .ok () => w.enter k caller (.holds file (.trying candidate opened candidates))
    | .error _ => w.enter k caller (.holds file (.cleaning candidates))
  | .trying candidate opened candidates =>
    if w.locks.contains opened then w.enter k caller (.holds file (.cleaning candidates))
    else { w.enter k caller (.holds file (.inspecting candidate opened candidates)) with
      locks := w.locks.insert opened k }
  | .inspecting candidate opened candidates =>
    match w.entries[candidate.name]? with
    | some (.file _) => w.enter k caller (.holds file (.removing candidate opened candidates))
    | _ => w.enter k caller (.holds file (.unlocking opened candidates))
  | .removing candidate opened candidates =>
    { w.enter k caller (.holds file (.unlocking opened candidates)) with
      entries := w.entries.erase candidate.name }
  | .unlocking opened candidates =>
    { w.enter k caller (.holds file (.cleaning candidates)) with locks := w.locks.erase opened }
  | .generating => { w.enter k caller .released with locks := w.locks.erase file }

/-- A step that succeeds. -/
def proceed (k : ℕ) (caller : LockCaller) (names : List String) : LockWorld :=
  match caller.phase with
  | .checking => w.checkLockPath k caller
  | .opening => w.openLock k caller
  | .validating file =>
    match w.validateLockIdentity (generationLockName caller.entry) file with
    | .ok () => w.enter k caller (.locking file)
    | .error error => w.enter k caller (.failed error)
  | .locking file => w.tryLock k caller file
  | .holds file work => w.work k caller file names work
  | .failed _ | .released | .crashed => w

/-- A step that fails: with the lock it is passed over. -/
def fail (k : ℕ) (caller : LockCaller) (error : LockError) : LockWorld :=
  match caller.phase with
  | .checking | .opening | .validating _ | .locking _ => w.enter k caller (.failed error)
  | .holds file .listing => w.enter k caller (.holds file .generating)
  | .holds file (.reading (_ :: names) now candidates) =>
    w.enter k caller (.holds file (.reading names now candidates))
  | .holds file (.cleaning (_ :: candidates)) | .holds file (.probing _ _ candidates)
  | .holds file (.trying _ _ candidates) => w.enter k caller (.holds file (.cleaning candidates))
  | .holds file (.inspecting _ opened candidates) | .holds file (.removing _ opened candidates) =>
    w.enter k caller (.holds file (.unlocking opened candidates))
  | _ => w

/-- The next step of a caller. -/
def act (k : ℕ) (answer : LockAnswer) : LockWorld :=
  match w.callers[k]? with
  | none => w
  | some caller =>
    match answer with
    | .ok names => w.proceed k caller names
    | .failed error => w.fail k caller error

/-- A caller crashes, and its locks are released. -/
def crash (k : ℕ) : LockWorld :=
  { w with
    locks := w.locks.filter fun _ holder => holder != k
    callers := w.callers.modify k fun caller => { caller with phase := .crashed } }

def step (w : LockWorld) : LockEvent → LockWorld
  | .tick => { w with now := w.now + 1 }
  | .call entry => { w with callers := w.callers ++ [{ entry, phase := .checking }] }
  | .advance k answer => w.act k answer
  | .crash k => w.crash k

def run (events : List LockEvent) : LockWorld := Runs.run step w events

/-- A directory that nobody uses. -/
def unused (now : ℕ) (entries : ExtTreeMap String Entry) (modified : List ℕ) : LockWorld :=
  { now, entries, modified }

end LockWorld

end AgzRustMcp.Docs
