import AgzRustMcp.Foundation.Runs

/-!
# Publishing a cache artifact

`publish` writes an artifact into a directory that several processes share.  Any other writer may
act between two calls of the file system, and a crash leaves behind what was created, so every call
is a step of its own: `PublishPhase` is what a writer is going to do next.
-/

namespace AgzRustMcp.Cache

open Std (ExtTreeMap)

/-! ## Names -/

def maxTempAttempts : ℕ := 64

def safeComponent (value : String) : String :=
  let sanitized := value.toList.map fun c =>
    if c.isAlphanum ∨ c = '.' ∨ c = '_' ∨ c = '-' then c else '_'
  if sanitized = [] then "writer" else String.ofList sanitized

/-- The file name of `lock_path`. -/
def lockName (name : String) : String := "." ++ name ++ ".lock"

/-- What the names of temporary files begin with. -/
def tempStart (name : String) : String := "." ++ name ++ ".tmp."

/-- The file name of `temporary_path`. -/
def temporaryName (name stem : String) (attempt : ℕ) : String :=
  tempStart name ++ safeComponent stem ++ "-" ++ toString attempt

/-- The name of an entry that `cleanup_stale_temps` may remove. -/
def IsTempName (name candidate : String) : Prop := (tempStart name).toList <+: candidate.toList

instance (name candidate : String) : Decidable (IsTempName name candidate) :=
  inferInstanceAs (Decidable ((tempStart name).toList <+: candidate.toList))

/-! ## Writers -/

inductive PublishError
  | invalidPath
  | missingParent
  | symlink
  | notDirectory
  | notRegularFile
  | lockContended
  | cancelled
  | deadlineExceeded
  | io
  | validation
  | tempExhausted
deriving DecidableEq

inductive PublishOutcome
  | published
  | preservedExisting
deriving DecidableEq

/-- `TemporaryFile`, with the file that its handle is open on. -/
structure TemporaryFile where
  name : String
  inode : ℕ
deriving DecidableEq

/-- What a writer does next, with its temporary file, and at the end its result. -/
inductive PublishPhase
  | processLocking
  | openingLock
  | locking (lock : ℕ)
  | listing
  | cleaning (names : List String)
  | removing (name : String) (names : List String)
  | inspecting
  | naming
  | creating (stem : String) (attempt : ℕ)
  | writing (temp : TemporaryFile) (written : ℕ)
  | validating (temp : TemporaryFile)
  | checking (temp : TemporaryFile)
  | rechecking (temp : TemporaryFile)
  | clearing (temp : TemporaryFile)
  | unlinking (temp : TemporaryFile)
  | confirming (temp : TemporaryFile)
  | renaming (temp : TemporaryFile)
  | dropping (temp : TemporaryFile) (result : Except PublishError PublishOutcome)
  | unlocking (result : Except PublishError PublishOutcome)
  | releasing (result : Except PublishError PublishOutcome)
  | over (result : Except PublishError PublishOutcome)
  | crashed
deriving DecidableEq

/-- The arguments of `publish`, with its process and its path of the lock file. -/
structure PublishCall where
  process : ℕ
  lockPath : String
  contents : List UInt8
  validate : List UInt8 → Bool
  staleTempAge : ℕ
  tempStem : Option String

/-- A call of `publish`.  `renamed` says that it has renamed its file. -/
structure Writer where
  call : PublishCall
  phase : PublishPhase
  lock : Option ℕ := none
  renamed : Bool := false

def Writer.crash (process : ℕ) (writer : Writer) : Writer :=
  match writer.phase with
  | .over _ => writer
  | _ => if writer.call.process = process then { writer with phase := .crashed, lock := none }
    else writer

/-! ## The directory -/

inductive Entry
  | file (inode : ℕ)
  | symlink (modified : ℕ)
  | directory
deriving DecidableEq

/-- The content of a file and when it was last changed. -/
structure FileData where
  content : List UInt8
  modified : ℕ
deriving DecidableEq

/-- `FinalState`, and `inspect_final`. -/
inductive FinalState
  | absent
  | existing
  | staleSymlink
deriving DecidableEq

/-- The directory, all files, the clock, the locks, and the statics of every process. -/
structure CacheWorld where
  finalName : String
  now : ℕ := 0
  entries : ExtTreeMap String Entry
  files : List FileData
  locks : ExtTreeMap ℕ ℕ := ∅
  activeLocks : List (ℕ × String) := []
  sequence : ExtTreeMap ℕ ℕ := ∅
  writers : List Writer := []

/-- How a step ends: well, with an error of the call, or in a failure passed over. -/
inductive PublishAnswer
  | ok (bytes : ℕ)
  | refused (error : PublishError)
  | ignored
deriving DecidableEq

/-- What happens next. -/
inductive PublishEvent
  | tick
  | call (call : PublishCall)
  | advance (writer : ℕ) (answer : PublishAnswer)
  | crash (process : ℕ)

namespace CacheWorld

variable (w : CacheWorld)

def inspectFinal : Except PublishError FinalState :=
  match w.entries[w.finalName]? with
  | none => .ok .absent
  | some (.file _) => .ok .existing
  | some (.symlink _) => .ok .staleSymlink
  | some .directory => .error .notRegularFile

def contentAt (name : String) : Option (List UInt8) :=
  match w.entries[name]? with
  | some (.file inode) => w.files[inode]?.map FileData.content
  | _ => none

/-- When an entry that is a regular file or a link was last changed. -/
def modifiedAt (name : String) : Option ℕ :=
  match w.entries[name]? with
  | some (.file inode) => w.files[inode]?.map FileData.modified
  | some (.symlink modified) => some modified
  | _ => none

/-- Whether `cleanup_stale_temps` removes the entry. -/
def isStaleTemp (staleAge : ℕ) (name : String) : Bool :=
  decide (IsTempName w.finalName name) &&
    (w.modifiedAt name).any fun modified => decide (modified ≤ w.now ∧ staleAge ≤ w.now - modified)

/-- `remove_file`, which removes no directory. -/
def removeFile (name : String) : CacheWorld :=
  if w.entries[name]? = some .directory then w else { w with entries := w.entries.erase name }

/-- Creates an empty file. -/
def createFile (name : String) : CacheWorld :=
  { w with
    entries := w.entries.insert name (.file w.files.length)
    files := w.files ++ [⟨[], w.now⟩] }

def setWriter (k : ℕ) (writer : Writer) : CacheWorld :=
  { w with writers := w.writers.modify k fun _ => writer }

def enter (k : ℕ) (writer : Writer) (phase : PublishPhase) : CacheWorld :=
  w.setWriter k { writer with phase }

def openLock (k : ℕ) (writer : Writer) : CacheWorld :=
  match w.entries[lockName w.finalName]? with
  | some (.symlink _) => w.enter k writer (.releasing (.error .symlink))
  | some .directory => w.enter k writer (.releasing (.error .notRegularFile))
  | some (.file lock) => w.enter k writer (.locking lock)
  | none => (w.createFile (lockName w.finalName)).enter k writer (.locking w.files.length)

def sequenceOf (process : ℕ) : ℕ := (w.sequence[process]?).getD 0

/-- The beginning of `create_temporary`. -/
def nameTemporary (k : ℕ) (writer : Writer) : CacheWorld :=
  match writer.call.tempStem with
  | some stem => w.enter k writer (.creating (safeComponent stem) 0)
  | none =>
    let process := writer.call.process
    { w.enter k writer (.creating s!"{process}-{w.sequenceOf process}" 0) with
      sequence := w.sequence.insert process (w.sequenceOf process + 1) }

/-- A turn of the loop in `create_temporary`. -/
def createTemporary (k : ℕ) (writer : Writer) (stem : String) (attempt : ℕ) : CacheWorld :=
  let name := temporaryName w.finalName stem attempt
  if maxTempAttempts ≤ attempt then w.enter k writer (.unlocking (.error .tempExhausted))
  else if w.entries.contains name then w.enter k writer (.creating stem (attempt + 1))
  else (w.createFile name).enter k writer (.writing ⟨name, w.files.length⟩ 0)

/-- Writes more of the contents, or finds everything written. -/
def writeMore (k : ℕ) (writer : Writer) (temp : TemporaryFile) (written bytes : ℕ) : CacheWorld :=
  let contents := writer.call.contents
  if written < contents.length then
    { w.enter k writer (.writing temp (min (written + bytes) contents.length)) with
      files := w.files.modify temp.inode fun _ =>
        ⟨contents.take (min (written + bytes) contents.length), w.now⟩ }
  else w.enter k writer (.validating temp)

def lookAtFinal (k : ℕ) (writer : Writer) (temp : TemporaryFile) (absent stale : PublishPhase) : CacheWorld :=
  match w.inspectFinal with
  | .error error => w.enter k writer (.dropping temp (.error error))
  | .ok .existing => w.enter k writer (.dropping temp (.ok .preservedExisting))
  | .ok .absent => w.enter k writer absent
  | .ok .staleSymlink => w.enter k writer stale

def renameTemporary (k : ℕ) (writer : Writer) (temp : TemporaryFile) : CacheWorld :=
  match w.entries[temp.name]? with
  | none => w.enter k writer (.dropping temp (.error .io))
  | some entry =>
    { w.setWriter k { writer with phase := .unlocking (.ok .published), renamed := true } with
      entries := (w.entries.erase temp.name).insert w.finalName entry }

/-- A step that succeeds. -/
def proceed (k : ℕ) (writer : Writer) (bytes : ℕ) : CacheWorld :=
  match writer.phase with
  | .processLocking =>
    if (writer.call.process, writer.call.lockPath) ∈ w.activeLocks then w
    else { w.enter k writer .openingLock with
      activeLocks := (writer.call.process, writer.call.lockPath) :: w.activeLocks }
  | .openingLock => w.openLock k writer
  | .locking lock =>
    if w.locks.contains lock then w
    else { w.setWriter k { writer with phase := .listing, lock := some lock } with
      locks := w.locks.insert lock k }
  | .listing => w.enter k writer (.cleaning w.entries.keys)
  | .cleaning [] => w.enter k writer .inspecting
  | .cleaning (name :: names) =>
    if w.isStaleTemp writer.call.staleTempAge name then w.enter k writer (.removing name names)
    else w.enter k writer (.cleaning names)
  | .removing name names => (w.removeFile name).enter k writer (.cleaning names)
  | .inspecting =>
    match w.inspectFinal with
    | .error error => w.enter k writer (.unlocking (.error error))
    | .ok .existing => w.enter k writer (.unlocking (.ok .preservedExisting))
    | .ok _ => w.enter k writer .naming
  | .naming => w.nameTemporary k writer
  | .creating stem attempt => w.createTemporary k writer stem attempt
  | .writing temp written => w.writeMore k writer temp written bytes
  | .validating temp =>
    if (w.contentAt temp.name).any writer.call.validate then w.enter k writer (.checking temp)
    else w.enter k writer (.dropping temp (.error .validation))
  | .checking temp =>
    match w.entries[temp.name]? with
    | some (.file _) => w.enter k writer (.rechecking temp)
    | _ => w.enter k writer (.dropping temp (.error .validation))
  | .rechecking temp => w.lookAtFinal k writer temp (.clearing temp) (.clearing temp)
  | .clearing temp =>
    match w.inspectFinal with
    | .error error => w.enter k writer (.dropping temp (.error error))
    | .ok .staleSymlink => w.enter k writer (.unlinking temp)
    | .ok _ => w.enter k writer (.confirming temp)
  | .unlinking temp => (w.removeFile w.finalName).enter k writer (.confirming temp)
  | .confirming temp =>
    w.lookAtFinal k writer temp (.renaming temp) (.dropping temp (.error .symlink))
  | .renaming temp => w.renameTemporary k writer temp
  | .dropping temp result => (w.removeFile temp.name).enter k writer (.unlocking result)
  | .unlocking result =>
    match writer.lock with
    | none => w.enter k writer (.releasing result)
    | some lock =>
      { w.setWriter k { writer with phase := .releasing result, lock := none } with
        locks := w.locks.erase lock }
  | .releasing result =>
    { w.enter k writer (.over result) with
      activeLocks := w.activeLocks.erase (writer.call.process, writer.call.lockPath) }
  | .over _ | .crashed => w

/-- A step that ends the call with an error: what the writer has is given back. -/
def refuse (k : ℕ) (writer : Writer) (error : PublishError) : CacheWorld :=
  match writer.phase with
  | .processLocking => w.enter k writer (.over (.error error))
  | .openingLock | .locking _ => w.enter k writer (.releasing (.error error))
  | .listing | .cleaning _ | .inspecting | .naming | .creating _ _ =>
    w.enter k writer (.unlocking (.error error))
  | .writing temp _ | .validating temp | .checking temp | .rechecking temp | .clearing temp
  | .unlinking temp | .confirming temp | .renaming temp =>
    w.enter k writer (.dropping temp (.error error))
  | _ => w

/-- A step whose failure is passed over. -/
def passOver (k : ℕ) (writer : Writer) : CacheWorld :=
  match writer.phase with
  | .listing => w.enter k writer .inspecting
  | .cleaning (_ :: names) | .removing _ names => w.enter k writer (.cleaning names)
  | .dropping _ result => w.enter k writer (.unlocking result)
  | _ => w

/-- The next step of a writer. -/
def act (k : ℕ) (answer : PublishAnswer) : CacheWorld :=
  match w.writers[k]? with
  | none => w
  | some writer =>
    match answer with
    | .ok bytes => w.proceed k writer bytes
    | .refused error => w.refuse k writer error
    | .ignored => w.passOver k writer

/-- A process crashes, and the locks of its writers are released. -/
def crash (process : ℕ) : CacheWorld :=
  { w with
    locks := w.locks.filter fun _ k =>
      !(w.writers[k]?).any fun writer => writer.call.process == process
    activeLocks := w.activeLocks.filter fun active => active.1 != process
    writers := w.writers.map (Writer.crash process) }

def step (w : CacheWorld) : PublishEvent → CacheWorld
  | .tick => { w with now := w.now + 1 }
  | .call call => { w with writers := w.writers ++ [{ call, phase := .processLocking }] }
  | .advance k answer => w.act k answer
  | .crash process => w.crash process

def run (events : List PublishEvent) : CacheWorld := Runs.run step w events

/-- A directory with any entries, but without the artifact. -/
def without (finalName : String) (entries : ExtTreeMap String Entry) (files : List FileData) : CacheWorld :=
  { finalName, entries := entries.erase finalName, files }

end CacheWorld

end AgzRustMcp.Cache
