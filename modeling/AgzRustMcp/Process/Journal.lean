import Mathlib

/-!
# The process journal

`ProcessJournal` keeps a file for each child of the supervisor.  When the server starts again,
`recover_orphans` looks up the recorded child of every owner that is gone and kills its process
group.  The process table says what `/proc` shows; the other answers of the system are those of a
turn.
-/

namespace AgzRustMcp.Process

/-! ## Records -/

inductive ProcessGroupIdentity
  | unix (pgid : ℕ)
  | windowsJob (processId : ℕ)
  | unmanaged
deriving DecidableEq

structure JournalRecord where
  version : ℕ
  token : String
  ownerPid : ℕ
  ownerStartTime : Option ℕ
  childPid : ℕ
  startTime : Option ℕ
  executable : String
  group : ProcessGroupIdentity
  commandHash : String
deriving DecidableEq

structure StoredJournalRecord where
  record : JournalRecord
  alternateCommandHash : Option String
deriving DecidableEq

def journalVersion : ℕ := 1

/-- `JournalRecord::new`, with the group that `group_identity` gives. -/
def JournalRecord.new (token : String) (owner : ℕ × Option ℕ) (childPid : ℕ) (startTime : Option ℕ)
    (executable commandHash : String) : JournalRecord where
  version := journalVersion
  token := token
  ownerPid := owner.1
  ownerStartTime := owner.2
  childPid := childPid
  startTime := startTime
  executable := executable
  group := .unix childPid
  commandHash := commandHash

/-- `validate_token`. -/
def validToken (token : String) : Bool :=
  !token.isEmpty && token.utf8ByteSize ≤ 128 && token.toList.all fun c => c.isAlphanum || c == '_' || c == '-'

/-! ## The process table -/

/-- A file of a process under `/proc`. -/
inductive ProcFile (α : Type)
  | found (content : α)
  | notFound
  | failed (reason : String)

/-- What the table shows of a process, perhaps one that has exited. -/
structure ProcEntry where
  startTime : ℕ
  group : ℕ
  running : Bool
  executable : ProcFile String
  cmdline : ProcFile (List UInt8)

/-- The processes by their identifiers. -/
abbrev ProcessTable := ℕ → Option ProcEntry

structure LiveProcessIdentity where
  startTime : ℕ
  executable : String
  groupId : ℕ
  argv : List (List UInt8)

def readProcessIdentity (table : ProcessTable) (pid : ℕ) : Except String (Option LiveProcessIdentity) :=
  match table pid with
  | none => .ok none
  | some entry =>
    match entry.executable with
    | .notFound => .ok none
    | .failed reason => .error reason
    | .found executable =>
      match entry.cmdline with
      | .notFound => .ok none
      | .failed reason => .error reason
      | .found cmdline => .ok (some {
          startTime := entry.startTime
          executable := executable
          groupId := entry.group
          argv := (cmdline.splitOn 0).filter fun argument => argument ≠ [] })

def commandHashBytes (sha256 : ByteArray → String) (executable : String) (arguments : List (List UInt8)) : String :=
  sha256 (arguments.foldl (fun bytes argument => bytes ++ ⟨#[0]⟩ ++ ⟨argument.toArray⟩)
    ("agz-rust-mcp-command\x00" ++ executable).toUTF8)

/-- What becomes of a process that a group kill was sent to. -/
inductive KillEffect
  | survives
  | exits
  | disappears
deriving DecidableEq

/-- The answer to a kill of a group, and what became of its members. -/
structure KillAnswer where
  result : Except String Unit
  effect : ℕ → KillEffect

/-- The table after a kill of a group.  A process that has exited has no executable. -/
def ProcessTable.kill (table : ProcessTable) (group : ℕ) (effect : ℕ → KillEffect) : ProcessTable :=
  fun pid =>
    match table pid with
    | none => none
    | some entry =>
      if entry.group = group then
        match effect pid with
        | .survives => some entry
        | .exits => some { entry with running := false, executable := .notFound, cmdline := .found [] }
        | .disappears => none
      else some entry

def ProcessTable.Gone (table : ProcessTable) (group : ProcessGroupIdentity) : Prop :=
  ∀ pid entry, table pid = some entry → group = .unix entry.group → entry.running = false

/-! ## Recovery -/

inductive RecoveryDisposition
  | ownerAlive | alreadyExited | identityMismatch | unverifiable | killed | killFailed | invalid
deriving DecidableEq

structure RecoveryEntry where
  token : String
  disposition : RecoveryDisposition
  reason : String
deriving DecidableEq

structure RecoveryReport where
  inspected : ℕ := 0
  killed : ℕ := 0
  skipped : ℕ := 0
  truncated : Bool := false
  entries : List RecoveryEntry := []
deriving DecidableEq

/-- What a name in the journal directory stands for. -/
inductive JournalFile
  | missing (reason : String)
  | notRegular
  | unreadable (reason : String)
  | stored (record : StoredJournalRecord)

/-- An entry of the journal directory, by its name without and its extension. -/
structure JournalEntry where
  stem : String
  extension : Option String
  file : JournalFile

/-- What the system answers while an entry is looked at. -/
structure RecoveryAnswers where
  canonicalize : String → Except String String
  isFile : String → Bool
  kill : KillAnswer
  removes : Bool

/-- The journal that recovers, with the group of its process. -/
structure ProcessJournal where
  ownerPid : ℕ
  ownerStartTime : Option ℕ
  currentGroupId : Option ℕ
  sha256 : ByteArray → String

inductive VerifyFailure
  | alreadyExited (reason : String)
  | mismatch (reason : String)
  | unverifiable (reason : String)

def ownerState (journal : ProcessJournal) (table : ProcessTable) (record : JournalRecord) : Option RecoveryEntry :=
  if record.ownerPid = journal.ownerPid ∧ record.ownerStartTime = journal.ownerStartTime then
    some ⟨record.token, .ownerAlive, "journal owner is this live process"⟩
  else
    match readProcessIdentity table record.ownerPid with
    | .ok (some identity) =>
      if record.ownerStartTime = some identity.startTime then
        some ⟨record.token, .ownerAlive, "journal owner is still alive"⟩
      else
        some ⟨record.token, .unverifiable, "owner PID was reused with a different start time"⟩
    | .ok none => none
    | .error error =>
      some ⟨record.token, .unverifiable, "owner identity cannot be verified: " ++ error⟩

def verifyChild (journal : ProcessJournal) (table : ProcessTable) (answers : RecoveryAnswers)
    (record : JournalRecord) (alternateCommandHash : Option String) : Except VerifyFailure ℕ :=
  match readProcessIdentity table record.childPid with
  | .ok none => .error (.alreadyExited "recorded child is no longer present")
  | .error error => .error (.unverifiable ("child identity cannot be read: " ++ error))
  | .ok (some identity) =>
    match record.startTime with
    | none => .error (.unverifiable "journal has no child start time")
    | some startTime =>
      if identity.startTime ≠ startTime then
        .error (.mismatch "child PID was reused with a different start time")
      else
        match record.group with
        | .windowsJob _ | .unmanaged => .error (.unverifiable
            "the recorded process group cannot be verified on this platform")
        | .unix pgid =>
          if pgid ≤ 1 ∨ pgid ≠ record.childPid ∨ identity.groupId ≠ pgid then
            .error (.mismatch "child process group does not match the journal")
          else if journal.currentGroupId = some pgid then
            .error (.mismatch "refusing to signal the current process group")
          else
            match answers.canonicalize record.executable with
            | .error error =>
              .error (.unverifiable ("recorded executable cannot be resolved: " ++ error))
            | .ok expected =>
              match answers.canonicalize identity.executable with
              | .error error =>
                .error (.unverifiable ("live executable cannot be resolved: " ++ error))
              | .ok actual =>
                if expected ≠ actual then
                  .error (.mismatch "child executable does not match the journal")
                else if identity.argv = [] then
                  .error (.unverifiable "live command line is unavailable")
                else
                  let actualHash :=
                    commandHashBytes journal.sha256 record.executable identity.argv.tail
                  if actualHash ≠ record.commandHash ∧ alternateCommandHash ≠ some actualHash then
                    .error (.mismatch "child command hash does not match the journal")
                  else .ok pgid

/-- `force_kill_group`: the result, and the table afterwards. -/
def forceKillGroup (table : ProcessTable) (answers : RecoveryAnswers) (pgid : ℕ) :
    Except String Unit × ProcessTable :=
  match ["/bin/kill", "/usr/bin/kill"].find? answers.isFile with
  | none => (.error "no fixed kill executable is available", table)
  | some _ => (answers.kill.result, table.kill pgid answers.kill.effect)

/-- What a look leaves: the table, whether the file went, and the report. -/
structure RecoveryOutcome where
  table : ProcessTable
  removed : Bool
  result : Except String RecoveryEntry

/-- The part of `recover_entry` after the owner of the record was found to be gone. -/
def recoverOrphan (journal : ProcessJournal) (table : ProcessTable) (answers : RecoveryAnswers)
    (stored : StoredJournalRecord) : RecoveryOutcome :=
  let token := stored.record.token
  match verifyChild journal table answers stored.record stored.alternateCommandHash with
  | .error (.alreadyExited reason) =>
    ⟨table, answers.removes, .ok ⟨token, .alreadyExited, reason⟩⟩
  | .error (.mismatch reason) => ⟨table, false, .ok ⟨token, .identityMismatch, reason⟩⟩
  | .error (.unverifiable reason) => ⟨table, false, .ok ⟨token, .unverifiable, reason⟩⟩
  | .ok group =>
    let killed := forceKillGroup table answers group
    match killed.1 with
    | .ok () =>
      ⟨killed.2, answers.removes, .ok ⟨token, .killed, "all recorded process identities matched"⟩⟩
    | .error reason => ⟨killed.2, false, .ok ⟨token, .killFailed, reason⟩⟩

def recoverEntry (journal : ProcessJournal) (table : ProcessTable) (answers : RecoveryAnswers)
    (entry : JournalEntry) : RecoveryOutcome :=
  match entry.file with
  | .missing reason => ⟨table, false, .error reason⟩
  | .notRegular =>
    ⟨table, false, .ok ⟨entry.stem, .unverifiable, "journal entry is not a regular file"⟩⟩
  | .unreadable reason => ⟨table, false, .error reason⟩
  | .stored stored =>
    if stored.record.version ≠ journalVersion then
      ⟨table, false, .ok ⟨stored.record.token, .invalid, "unsupported journal version"⟩⟩
    else if validToken stored.record.token = false ∨ entry.stem ≠ stored.record.token then
      ⟨table, false, .ok ⟨stored.record.token, .invalid, "journal token does not match its file"⟩⟩
    else
      match ownerState journal table stored.record with
      | some report => ⟨table, false, .ok report⟩
      | none => recoverOrphan journal table answers stored

/-- `push_entry`. -/
def RecoveryReport.push (report : RecoveryReport) (entry : RecoveryEntry) (limit : ℕ) : RecoveryReport :=
  if report.entries.length < limit then { report with entries := report.entries ++ [entry] }
  else { report with truncated := true }

/-- The state of the loop over the journal directory. -/
structure RecoveryState where
  table : ProcessTable
  removed : List JournalEntry
  report : RecoveryReport

/-- An entry of the directory as it is met, with the answers while it is looked at. -/
abbrev RecoveryTurn := Except String (JournalEntry × RecoveryAnswers)

/-- One turn of the loop over the journal directory. -/
def recoverTurn (journal : ProcessJournal) (limit : ℕ) (state : RecoveryState) : RecoveryTurn → RecoveryState
  | .error error =>
    let report := { state.report with inspected := state.report.inspected + 1 }
    { state with
      report := report.push ⟨"", .unverifiable, "cannot inspect journal entry: " ++ error⟩ limit }
  | .ok (entry, answers) =>
    if entry.extension ≠ some "json" then state
    else
      let outcome := recoverEntry journal state.table answers entry
      let recovery := match outcome.result with
        | .ok recovery => recovery
        | .error error => ⟨entry.stem, .unverifiable, error⟩
      let report := { state.report with inspected := state.report.inspected + 1 }
      let report := if recovery.disposition = .killed then { report with killed := report.killed + 1 }
        else { report with skipped := report.skipped + 1 }
      { table := outcome.table
        removed := if outcome.removed then state.removed ++ [entry] else state.removed
        report := report.push recovery limit }

/-- The loop over the journal directory. -/
def recoverTurns (journal : ProcessJournal) (limit : ℕ) : RecoveryState → List RecoveryTurn → RecoveryState
  | state, [] => state
  | state, turn :: turns =>
    if state.report.inspected ≥ limit then
      { state with report := { state.report with truncated := true } }
    else recoverTurns journal limit (recoverTurn journal limit state turn) turns

def recoverOrphansWithLimit (journal : ProcessJournal) (limit : ℕ) (table : ProcessTable)
    (entries : Except String (List RecoveryTurn)) : RecoveryState :=
  match entries with
  | .error error =>
    ⟨table, [], ({} : RecoveryReport).push
      ⟨"", .unverifiable, "cannot inspect journal directory: " ++ error⟩ limit⟩
  | .ok turns => recoverTurns journal limit ⟨table, [], {}⟩ turns

def recoverOrphans (journal : ProcessJournal) (table : ProcessTable)
    (entries : Except String (List RecoveryTurn)) : RecoveryState :=
  recoverOrphansWithLimit journal 256 table entries

end AgzRustMcp.Process
