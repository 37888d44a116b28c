import AgzRustMcp.Foundation.Runs
import AgzRustMcp.Foundation.Sha256

/-!
# Gate leases

A lease is a lock file in a directory that many processes share.  `acquire_lease` creates the file
exclusively and writes its process id into it; a waiter inspects the file and removes the path when
that process is gone or when an old file has no record yet.

Every call of the file system is a step of its own: `LeasePhase` is what an acquisition is going to
do next.  A file is a number in `inodes`, and `files` says which one is at a path, so that a removed
file can still be read.
-/

namespace AgzRustMcp.Gate

open Std (ExtTreeMap)

/-! ## Lock files -/

/-- `STALE_RECORD_AGE` in milliseconds. -/
def staleRecordAge : ℕ := 10000

structure LeaseRecord where
  pid : ℕ
  token : String
  createdAtMs : ℕ
deriving DecidableEq

/-- A lock file; `creator` made it, and may not have written it yet. -/
structure LockFile where
  creator : Option ℕ
  content : Option LeaseRecord
  modified : ℕ
deriving DecidableEq

/-- What `symlink_metadata` returns of a lock file. -/
structure LockMetadata where
  file : ℕ
  modified : ℕ
deriving DecidableEq

def keyChar (byte : UInt8) : Char :=
  let c := Char.ofNat byte.toNat
  if c.isAlphanum ∨ c = '_' ∨ c = '-' then c else '_'

def safeKey (key : String) : String :=
  let label := String.ofList ((key.toUTF8.toList.map keyChar).take 48)
  let digest := Sha256.sha256Hex key.toUTF8
  (if label = "" then "lease" else label) ++ "-" ++ String.ofList (digest.toList.take 16)

def leasePath (root key : String) : String := root ++ "/" ++ safeKey key ++ ".lock"

def leaseToken (pid now sequence : ℕ) : String := s!"{pid}-{now}-{sequence}"

/-! ## Acquisitions -/

structure Lease where
  path : String
  token : String
  released : Bool
deriving DecidableEq

inductive LeaseError
  | cancelled
  | timedOut (key : String)
  | io (path : String)
deriving DecidableEq

/-- A call of `acquire_lease` or of `acquire_host_slot`. -/
inductive LeaseRequest
  | lease (key : String)
  | hostSlot (slots : ℕ)
deriving DecidableEq

/-- The keys that a call tries one after another. -/
def LeaseRequest.keys : LeaseRequest → List String
  | .lease key => [key]
  | .hostSlot slots => (List.range slots).map fun index => s!"host-{index}"

/-- The error of a call whose deadline has passed. -/
def LeaseRequest.timedOut : LeaseRequest → LeaseError
  | .lease key => .timedOut key
  | .hostSlot _ => .timedOut "host slot"

/-- Where `acquire_lease` and `acquire_host_slot` look for cancellation. -/
def LeaseRequest.mayGiveUp (request : LeaseRequest) (index : ℕ) : Bool :=
  match request with
  | .lease _ => true
  | .hostSlot slots => decide (slots ≤ index)

/-- What an acquisition does next.  The index is that of the key it tries. -/
inductive LeasePhase
  | trying (index : ℕ)
  | writing (path : String) (file : ℕ)
  | syncing (path : String)
  | holding (lease : Lease)
  | releasing (lease : Lease)
  | unlinking (lease : Lease)
  | inspecting (index : ℕ)
  | opening (index : ℕ) (metadata : LockMetadata)
  | reading (index : ℕ) (metadata : LockMetadata) (file : ℕ)
  | judging (index : ℕ) (metadata : LockMetadata) (file : ℕ) (record : Option LeaseRecord)
  | removing (index : ℕ) (metadata : LockMetadata) (file : ℕ) (record : Option LeaseRecord)
  | over (error : Option LeaseError)
deriving DecidableEq

/-- An acquisition by a process, with the paths of its keys. -/
structure LeaseTask where
  pid : ℕ
  root : String
  request : LeaseRequest
  paths : List String
  token : String
  phase : LeasePhase
deriving DecidableEq

def LeaseTask.path (task : LeaseTask) (index : ℕ) : String := task.paths.getD index ""

/-- The path that a failed creation reports. -/
def LeaseTask.errorPath (task : LeaseTask) (path : String) : String :=
  match task.request with
  | .lease _ => path
  | .hostSlot _ => task.root

/-! ## The world -/

/-- A process and its counter `TOKEN_SEQUENCE`. -/
structure LeaseProcess where
  alive : Bool
  sequence : ℕ

/-- The file system, the system clock, the processes and their acquisitions. -/
structure LeaseWorld where
  now : ℕ := 0
  files : ExtTreeMap String ℕ := ∅
  inodes : List LockFile := []
  processes : ExtTreeMap ℕ LeaseProcess := ∅
  tasks : List LeaseTask := []

/-- How a system call ends, with what a sleeping acquisition may find. -/
inductive LeaseAnswer
  | ok
  | failed
  | cancelled
  | expired
deriving DecidableEq

/-- What looking for `/proc/{pid}` returns. -/
inductive ProcessProbe
  | found
  | notFound
  | unreadable
deriving DecidableEq

/-- `process_is_alive`, asked by the process `own`. -/
def processIsAlive (own pid : ℕ) (probe : ProcessProbe) : Bool :=
  if pid = 0 then false
  else if pid = own then true
  else match probe with
    | .found => true
    | .notFound => false
    | .unreadable => true

/-- Whether a file without a record is old enough to be removed. -/
def oldEnough (now modified : ℕ) : Bool := decide (modified ≤ now ∧ staleRecordAge ≤ now - modified)

/-- What `reclaim_dead_lease` decides. -/
def isReclaimable (own now : ℕ) (metadata : LockMetadata) (record : Option LeaseRecord)
    (probe : ℕ → ProcessProbe) : Bool :=
  match record with
  | none => oldEnough now metadata.modified
  | some record => !processIsAlive own record.pid (probe record.pid)

namespace LeaseWorld

variable (world : LeaseWorld)

/-- The process has started and has not died. -/
def isAlive (pid : ℕ) : Bool := world.processes[pid]?.any (·.alive)

/-- A live process is seen when `/proc` can be read; a dead one may be. -/
def probe (answer : LeaseAnswer) (pid : ℕ) : ProcessProbe :=
  match answer with
  | .ok => if world.isAlive pid then .found else .notFound
  | .failed => .unreadable
  | _ => .found

def nextToken (pid : ℕ) : String :=
  leaseToken pid world.now ((world.processes[pid]?.map (·.sequence)).getD 0)

/-- Advances `TOKEN_SEQUENCE` of a process. -/
def advance (pid : ℕ) : LeaseWorld :=
  { world with
    processes := world.processes.modify pid fun p => { p with sequence := p.sequence + 1 } }

/-- Replaces an acquisition. -/
def setTask (t : ℕ) (task : LeaseTask) : LeaseWorld :=
  { world with tasks := world.tasks.set t task }

/-- An acquisition goes on to a phase. -/
def goOn (t : ℕ) (task : LeaseTask) (phase : LeasePhase) : LeaseWorld :=
  world.setTask t { task with phase }

/-- An acquisition ends with an error. -/
def fail (t : ℕ) (task : LeaseTask) (error : LeaseError) : LeaseWorld :=
  world.goOn t task (.over (some error))

/-- `create_new`: a file that nobody else can have created. -/
def createNew (t : ℕ) (task : LeaseTask) (path : String) : LeaseWorld :=
  { world with
    files := world.files.insert path world.inodes.length
    inodes := world.inodes ++ [⟨some t, none, world.now⟩]
    tasks := world.tasks.set t { task with phase := .writing path world.inodes.length } }

def writeRecord (t : ℕ) (task : LeaseTask) (path : String) (file : ℕ) : LeaseWorld :=
  { world with
    inodes := world.inodes.modify file fun lock =>
      { lock with content := some ⟨task.pid, task.token, world.now⟩, modified := world.now }
    tasks := world.tasks.set t { task with phase := .syncing path } }

/-- `remove_file` removes whatever is at the path. -/
def remove (t : ℕ) (task : LeaseTask) (path : String) (phase : LeasePhase) : LeaseWorld :=
  { world with
    files := world.files.erase path
    tasks := world.tasks.set t { task with phase } }

/-- An acquisition tries the key with an index, with a token for each. -/
def try_ (t : ℕ) (task : LeaseTask) (index : ℕ) (answer : LeaseAnswer) : LeaseWorld :=
  match answer with
  | .cancelled =>
    if task.request.mayGiveUp index then world.fail t task .cancelled else world
  | .expired =>
    if task.request.mayGiveUp index then world.fail t task task.request.timedOut else world
  | .ok | .failed =>
    match task.paths[index]? with
    | none => world.goOn t task (.trying 0)
    | some _ =>
      let (world, task) := match task.request with
        | .lease _ => (world, task)
        | .hostSlot _ =>
          (world.advance task.pid, { task with token := world.nextToken task.pid })
      if world.files.contains (task.path index) then world.goOn t task (.inspecting index)
      else if answer = .ok then world.createNew t task (task.path index)
      else world.fail t task (.io (task.errorPath (task.path index)))

/-- `Lease::release` removes the file at the path when it is its own. -/
def readOwn (t : ℕ) (task : LeaseTask) (lease : Lease) (answer : LeaseAnswer) : LeaseWorld :=
  match answer, world.files[lease.path]?.bind (world.inodes[·]?) with
  | .ok, some ⟨_, some record, _⟩ =>
    if record.pid = task.pid ∧ record.token = lease.token then world.goOn t task (.unlinking lease)
    else world.goOn t task (.over none)
  | _, _ => world.goOn t task (.over none)

/-- `reclaim_dead_lease` looks at the file at the path. -/
def inspect (t : ℕ) (task : LeaseTask) (index : ℕ) (answer : LeaseAnswer) : LeaseWorld :=
  match answer, world.files[task.path index]? with
  | .ok, some file =>
    match world.inodes[file]? with
    | some lock => world.goOn t task (.opening index ⟨file, lock.modified⟩)
    | none => world.goOn t task (.trying (index + 1))
  | _, _ => world.goOn t task (.trying (index + 1))

/-- `reclaim_dead_lease` opens the file at the path. -/
def openFile (t : ℕ) (task : LeaseTask) (index : ℕ) (metadata : LockMetadata) (answer : LeaseAnswer) : LeaseWorld :=
  match answer, world.files[task.path index]? with
  | .ok, some file => world.goOn t task (.reading index metadata file)
  | _, _ => world.goOn t task (.trying (index + 1))

/-- `reclaim_dead_lease` reads the file that it opened. -/
def readFile (t : ℕ) (task : LeaseTask) (index : ℕ) (metadata : LockMetadata) (file : ℕ)
    (answer : LeaseAnswer) : LeaseWorld :=
  match answer, world.inodes[file]? with
  | .ok, some lock => world.goOn t task (.judging index metadata file lock.content)
  | _, _ => world.goOn t task (.trying (index + 1))

/-- `reclaim_dead_lease` decides whether it removes the file. -/
def judge (t : ℕ) (task : LeaseTask) (index : ℕ) (metadata : LockMetadata) (file : ℕ)
    (record : Option LeaseRecord) (answer : LeaseAnswer) : LeaseWorld :=
  if isReclaimable task.pid world.now metadata record (world.probe answer) then
    world.goOn t task (.removing index metadata file record)
  else world.goOn t task (.trying (index + 1))

/-- One step of an acquisition, with the answer of the operating system. -/
def act (t : ℕ) (task : LeaseTask) (answer : LeaseAnswer) : LeaseWorld :=
  match task.phase with
  | .trying index => world.try_ t task index answer
  | .writing path file =>
    if answer = .ok then world.writeRecord t task path file
    else world.fail t task (.io (task.errorPath path))
  | .syncing path =>
    if answer = .ok then world.goOn t task (.holding ⟨path, task.token, false⟩)
    else world.fail t task (.io (task.errorPath path))
  | .holding lease => world.goOn t task (.releasing { lease with released := true })
  | .releasing lease => world.readOwn t task lease answer
  | .unlinking lease =>
    if answer = .ok then world.remove t task lease.path (.over none)
    else world.goOn t task (.over none)
  | .inspecting index => world.inspect t task index answer
  | .opening index metadata => world.openFile t task index metadata answer
  | .reading index metadata file => world.readFile t task index metadata file answer
  | .judging index metadata file record => world.judge t task index metadata file record answer
  | .removing index _ _ _ =>
    if answer = .ok then world.remove t task (task.path index) (.trying (index + 1))
    else world.goOn t task (.trying (index + 1))
  | .over _ => world

/-- A process starts an acquisition. -/
def acquire (pid : ℕ) (root : String) (request : LeaseRequest) : LeaseWorld :=
  let paths := request.keys.map (leasePath root)
  match request with
  | .lease _ =>
    let task : LeaseTask := ⟨pid, root, request, paths, world.nextToken pid, .trying 0⟩
    { world.advance pid with tasks := world.tasks ++ [task] }
  | .hostSlot slots =>
    let phase := if slots = 0 then .over (some request.timedOut) else .trying 0
    { world with tasks := world.tasks ++ [⟨pid, root, request, paths, "", phase⟩] }

end LeaseWorld

/-- What happens in the world. -/
inductive LeaseAction
  | clock (now : ℕ)
  | start (pid : ℕ)
  | die (pid : ℕ)
  | acquire (pid : ℕ) (root : String) (request : LeaseRequest)
  | act (task : ℕ) (answer : LeaseAnswer)

namespace LeaseWorld

/-- One action; process ids are used once, and only live processes act. -/
def step (world : LeaseWorld) : LeaseAction → LeaseWorld
  | .clock now => { world with now }
  | .start pid =>
    if pid ≠ 0 ∧ world.processes[pid]? = none then
      { world with processes := world.processes.insert pid ⟨true, 0⟩ }
    else world
  | .die pid =>
    { world with processes := world.processes.modify pid fun p => { p with alive := false } }
  | .acquire pid root request => if world.isAlive pid then world.acquire pid root request else world
  | .act t answer =>
    match world.tasks[t]? with
    | none => world
    | some task => if world.isAlive task.pid then world.act t task answer else world

def run (world : LeaseWorld) (actions : List LeaseAction) : LeaseWorld :=
  Runs.run step world actions

/-- A world without processes, with the lock files that earlier ones have left. -/
def leftover (files : ExtTreeMap String ℕ) (inodes : List (Option LeaseRecord × ℕ)) : LeaseWorld :=
  { files, inodes := inodes.map fun entry => ⟨none, entry.1, entry.2⟩ }

/-- The path of the lease that an acquisition of a live process holds. -/
def heldPath (world : LeaseWorld) (t : ℕ) : Option String :=
  match world.tasks[t]? with
  | none => none
  | some task =>
    match task.phase with
    | .holding lease => if world.isAlive task.pid then some lease.path else none
    | _ => none

/-- An acquisition of a live process holds the lease of a key. -/
def Holds (world : LeaseWorld) (t : ℕ) (root key : String) : Prop :=
  world.heldPath t = some (leasePath root key)

instance (world : LeaseWorld) (t : ℕ) (root key : String) : Decidable (world.Holds t root key) :=
  inferInstanceAs (Decidable (_ = _))

/-- No two acquisitions of live processes hold the lease of one key. -/
def Exclusive (world : LeaseWorld) : Prop :=
  ∀ i j root key, world.Holds i root key → world.Holds j root key → i = j

end LeaseWorld

end AgzRustMcp.Gate
