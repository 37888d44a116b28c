import AgzRustMcp.Foundation.Tasks
import AgzRustMcp.Foundation.Sha256
import AgzRustMcp.Repair.Predicate

/-!
# The minimizer

`minimize` of `repair/minimize.rs` as a task: every look at the cancellation token or the clock,
every write of a tree and every Cargo run is a step whose answer comes from outside, so that nothing
is assumed about the compiler.

Which reductions there are is a parameter, the `Reducer`.  By `minimize_sound` a reproduction
is confirmed only after a last run on exactly the exported tree, every accepted tree was run and
showed the failure, and the runs stay within the budget.
-/

namespace AgzRustMcp

open Tasks
open Std (ExtTreeMap)

/-! ## Requests and results -/

abbrev SourceTree := ExtTreeMap String String

inductive RepairReductionScope where
  | files | items | modules | all

structure RepairBudget where
  maxCandidates : ℕ
  maxCompiles : ℕ
  wallTimeMs : ℕ

/-- `CandidateTree`: the captured files, and whether it left some out. -/
structure CandidateTree where
  files : SourceTree
  truncated : Bool

/-- `MinimizeRequest` with what is computed from it before the first run: the candidate tree, the
selected diagnostics, the ids that match none, and the scratch directory. -/
structure MinimizeRequest where
  changeId : String
  baseIdentity : Option String
  revision : ℕ
  evidenceRevision : ℕ
  failurePredicate : Option RepairFailurePredicateInput
  reductionScope : RepairReductionScope
  budget : RepairBudget
  tree : Except String CandidateTree
  filtered : List ChangeDiagnosticData
  unmatched : List String
  scratch : Except String Unit

/-- The reductions of a tree, and how a group is described. -/
structure Reducer where
  Unit : Type
  plan : SourceTree → FailurePredicate → RepairReductionScope → SourceTree → ℕ → ℕ → List Unit × ℕ × ℕ
  apply : SourceTree → List Unit → Option SourceTree
  files : Unit → List String
  lines : Unit → SourceTree → ℕ
  itemCount : Unit → ℕ
  groupKind : List Unit → String
  describeGroup : List Unit → SourceTree → String

structure RepairReductionData where
  id : String
  kind : String
  files : List String
  items : ℕ
  linesRemoved : ℕ
  status : String
  failureMatch : String
  reason : String
  totalMs : ℕ

structure RepairProofFileData where
  file : String
  sha256 : String
  bytes : ℕ
  content : Option String
  contentOmitted : Bool

/-- `RepairProofData`, without the fields that describe the toolchain. -/
structure RepairProofData where
  files : List RepairProofFileData
  filesTotal : ℕ
  totalBytes : ℕ
  packageComplete : Bool
  omitted : List String
  sourceSha256 : String
  reproductionCommand : String
  cargoTomlSha256 : Option String
  lockfileSha256 : Option String
  lockfilePreserved : Bool
  exportVerified : Bool
  initialReproduction : String
  exportVerification : String

structure RepairPredicateData where
  diagnosticId : String
  code : String
  level : String
  file : Option String
  message : String
  messageTokens : List String
  source : String

structure RepairBudgetData where
  maxCandidates : ℕ
  maxCompiles : ℕ
  wallTimeMs : ℕ
  candidatesUsed : ℕ
  compilesUsed : ℕ
  elapsedMs : ℕ

/-- The fields of `RepairData` that a minimization fills in. -/
structure RepairData where
  action : String := "minimize"
  usable : Bool := false
  changeId : Option String := none
  baseIdentity : Option String := none
  revision : Option ℕ := none
  evidenceRevision : Option ℕ := none
  verification : String := ""
  budget : Option RepairBudgetData := none
  predicate : Option RepairPredicateData := none
  proof : Option RepairProofData := none
  reductions : List RepairReductionData := []
  reductionsTotal : ℕ := 0
  reductionsOmitted : ℕ := 0
  reproduced : Bool := false
  stopReason : String := ""
  remainingRisks : List String := []
  reason : String := ""

structure MinimizeOutcome where
  status : String
  summary : String
  isError : Bool
  data : RepairData

/-! ## The session -/

/-- The two directories in which trees are run. -/
inductive RunRoot where
  | trial | export
  deriving DecidableEq

/-- What a step receives from outside. -/
structure MinimizeInput where
  cancelled : Bool
  elapsedMs : ℕ
  /-- Why the tree could not be written. -/
  fault : Option String
  evidence : CargoEvidence

/-- What a step of the minimizer is about. -/
inductive MinimizeLabel where
  /-- The cancellation token is polled. -/
  | poll
  /-- The clock is read. -/
  | clock
  /-- A tree is written to a directory. -/
  | materialize (root : RunRoot) (tree : SourceTree)
  /-- Cargo runs on a tree. -/
  | run (root : RunRoot) (tree : SourceTree)
  /-- A reduction is recorded. -/
  | record
  /-- The search goes on from a tree. -/
  | accept (tree : SourceTree)
  /-- A risk is noted. -/
  | risk

/-- The changing part of a `MinimizeSession`, and the tree that the search has reached. -/
structure MinimizeSession where
  compiles : ℕ
  attempts : ℕ
  lastCommand : String
  reductions : List RepairReductionData
  reductionsTotal : ℕ
  risks : List String
  current : Option SourceTree

/-- The session before its first run. -/
def MinimizeSession.new : MinimizeSession := ⟨0, 0, "", [], 0, [], none⟩

/-- A part of the minimizer. -/
abbrev MinimizeTask := Task MinimizeSession MinimizeInput MinimizeLabel

def maxReductions : ℕ := 64

def maxTouchedFilesPerReduction : ℕ := 8

def maxReductionMessage : ℕ := 320

/-- `CancellationToken::is_cancelled`. -/
def pollCancelled : MinimizeTask Bool := Task.look .poll fun input _ => input.cancelled

/-- The session as it is, and the time that it took so far. -/
def sessionNow : MinimizeTask (MinimizeSession × ℕ) :=
  Task.look .clock fun input session => (session, input.elapsedMs)

def pushRisk (risk : String) : MinimizeTask Unit :=
  Task.modify .risk fun _ session => { session with risks := session.risks ++ [risk] }

def pushRiskIf (condition : Bool) (risk : String) : MinimizeTask Unit :=
  if condition then pushRisk risk else pure ()

def acceptTree (tree : SourceTree) : MinimizeTask Unit :=
  Task.modify (.accept tree) fun _ session => { session with current := some tree }

def canCompile (budget : RepairBudget) : MinimizeTask Bool :=
  Task.look .clock fun _ session => session.compiles < budget.maxCompiles

def budgetStop (budget : RepairBudget) : MinimizeTask (Option String) :=
  Task.look .clock fun input session =>
    if session.compiles ≥ budget.maxCompiles then some "maxCompiles"
    else if session.attempts ≥ budget.maxCandidates then some "maxCandidates"
    else if input.elapsedMs > budget.wallTimeMs then some "wallTimeMs"
    else none

/-- `safe_relative`: why a path is not written. -/
def unsafeRelative (relative : String) : Option String :=
  if relative = "" ∨ relative.utf8ByteSize > 1024 then
    some "a candidate path is empty or too long"
  else if isAbsolute relative.toList then some "a candidate path is absolute"
  else if (components relative.toList).any fun component =>
      match component with
      | .normal _ => false
      | _ => true then
    some "a candidate path escapes the trial root"
  else none

/-- Why the tree is not written; a fault comes before the paths. -/
def materialize (root : RunRoot) (tree : SourceTree) : MinimizeTask (Option String) :=
  Task.look (.materialize root tree) fun input _ =>
    input.fault.orElse fun _ => tree.toList.findSome? fun entry => unsafeRelative entry.1

def runTree (tree : SourceTree) (root : RunRoot) : MinimizeTask (Except String TrialRun) := do
  match ← materialize root tree with
  | some reason => return .error reason
  | none =>
    .step (.run root tree) (fun _ => true)
      (fun input session =>
        { session with
          compiles := session.compiles + 1
          lastCommand :=
            if (convertEvidence input.evidence).command = "" then session.lastCommand
            else (convertEvidence input.evidence).command })
      fun input _ => .done (.ok (convertEvidence input.evidence))

section Minimizer

variable (lowercase : String → String) (sha : ByteArray → String) (reducer : Reducer)

/-- The files that a group of units touches, in order and without repetitions. -/
def Reducer.groupFiles (group : List reducer.Unit) : List String :=
  ((group.flatMap reducer.files).insertionSort (· ≤ ·)).dedup

/-- The entry of a reduction in the report. -/
def reductionData (group : List reducer.Unit) (run : TrialRun) (evaluation : Evaluation)
    (before : SourceTree) (number : ℕ) : RepairReductionData where
  id := s!"r-{number}"
  kind := reducer.groupKind group
  files := (reducer.groupFiles group).take maxTouchedFilesPerReduction
  items := group.foldl (fun items unit => saturatingAdd items (reducer.itemCount unit)) 0
  linesRemoved := group.foldl (fun lines unit => saturatingAdd lines (reducer.lines unit before)) 0
  status :=
    if evaluation.matched then "accepted"
    else if evaluation.kind = .inconclusive then "inconclusive" else "rejected"
  failureMatch := evaluation.kind.asStr
  reason := truncate
    (if evaluation.matched then
      let described := reducer.describeGroup group before
      s!"selected: {described} still reproduces the target predicate and added no new error signatures"
    else s!"not selected: {evaluation.reason}") maxReductionMessage
  totalMs := run.totalMs

def recordReduction (group : List reducer.Unit) (run : TrialRun) (evaluation : Evaluation)
    (before : SourceTree) : MinimizeTask Unit :=
  Task.modify .record fun _ session =>
    { session with
      reductionsTotal := session.reductionsTotal + 1
      attempts := session.attempts + 1
      reductions :=
        if session.reductions.length ≥ maxReductions then session.reductions
        else session.reductions ++ [reductionData reducer group run evaluation before (session.reductionsTotal + 1)] }

inductive RoundEnd where
  | cancelled
  | unavailable (reason : String)
  | stopped (stop : String)
  | exhausted
  | progressed (trial : SourceTree)
  | outOfFuel

inductive SearchEnd where
  | cancelled
  | unavailable (reason : String)
  | ended (current : SourceTree) (skippedReferenced skippedScope : ℕ) (stopReason : String)
  | outOfFuel

section Search

variable (predicate : FailurePredicate) (baseline : List String) (budget : RepairBudget)

/-- The inner loop over the groups of units that are still to be tried. -/
def searchRound (current : SourceTree) : ℕ → List (List reducer.Unit) → MinimizeTask RoundEnd
  | _, [] => return .exhausted
  | 0, _ :: _ => return .outOfFuel
  | fuel + 1, group :: stack => do
    if ← pollCancelled then return .cancelled
    match ← budgetStop budget with
    | some stop => return .stopped stop
    | none =>
      match reducer.apply current group with
      | none => searchRound current fuel stack
      | some trial =>
        match ← runTree trial .trial with
        | .error reason => return .unavailable reason
        | .ok run =>
          let evaluation := evaluateRun lowercase predicate baseline run
          recordReduction reducer group run evaluation current
          if evaluation.matched then
            acceptTree trial
            return .progressed trial
          else if group.length > 1 then
            let middle := group.length / 2
            searchRound current fuel (group.take middle :: group.drop middle :: stack)
          else searchRound current fuel stack

def searchLoop (initial : SourceTree) (scope : RepairReductionScope) : ℕ → SourceTree → ℕ → ℕ → MinimizeTask SearchEnd
  | 0, _, _, _ => return .outOfFuel
  | fuel + 1, current, skippedReferenced, skippedScope => do
    if ← pollCancelled then return .cancelled
    match ← budgetStop budget with
    | some stop => return .ended current skippedReferenced skippedScope stop
    | none =>
      let (plan, skippedReferenced, skippedScope) :=
        reducer.plan initial predicate scope current skippedReferenced skippedScope
      if plan.isEmpty then return .ended current skippedReferenced skippedScope "completed"
      else
        match ← searchRound lowercase reducer predicate baseline budget current (2 * plan.length)
          [plan] with
        | .cancelled => return .cancelled
        | .unavailable reason => return .unavailable reason
        | .stopped stop => return .ended current skippedReferenced skippedScope stop
        | .exhausted => return .ended current skippedReferenced skippedScope "completed"
        | .progressed trial => searchLoop initial scope fuel trial skippedReferenced skippedScope
        | .outOfFuel => return .outOfFuel

end Search

/-! ## Outcomes -/

def baseData (request : MinimizeRequest) (stopReason reason : String) : RepairData :=
  { changeId := some request.changeId
    baseIdentity := request.baseIdentity
    revision := some request.revision
    evidenceRevision := some request.evidenceRevision
    stopReason
    reason := truncate reason 512 }

def noEvidenceOutcome (request : MinimizeRequest) (reason : String) : MinimizeOutcome :=
  ⟨"NO_EVIDENCE", "No usable minimization evidence was published.", true, baseData request "noUsableEvidence" reason⟩

def cancelledOutcome (changeId : String) : MinimizeOutcome :=
  ⟨"CANCELLED", "No usable reproducer was published because the action was cancelled before it started.", true,
    { changeId := some changeId
      stopReason := "cancelled"
      reason := "repair was cancelled before it started" }⟩

/-- The `INCONCLUSIVE` outcome without a scratch directory. -/
def scratchOutcome (request : MinimizeRequest) (reason : String) : MinimizeOutcome :=
  ⟨"INCONCLUSIVE", "The minimization scratch could not be prepared.", true, baseData request "scratchFailure" reason⟩

def FailurePredicate.data (predicate : FailurePredicate) : RepairPredicateData where
  diagnosticId := predicate.diagnosticId
  code := predicate.code
  level := predicate.level
  file := predicate.file
  message :=
    if predicate.normalizedMessage = "" then " & ".intercalate predicate.messageFragments
    else predicate.normalizedMessage
  messageTokens := predicate.messageTokens
  source := predicate.source

def budgetData (budget : RepairBudget) (session : MinimizeSession) (elapsed : ℕ) : RepairBudgetData :=
  ⟨budget.maxCandidates, budget.maxCompiles, budget.wallTimeMs, session.attempts, session.compiles, elapsed⟩

def finishUnavailable (request : MinimizeRequest) (reason : String) : MinimizeOutcome :=
  ⟨"NOT_REPRODUCED", "The minimization could not run to a verified reproducer.", false,
    { baseData request "inconclusive" reason with verification := "none" }⟩

def finishNotReproduced (request : MinimizeRequest) (stopReason reason : String) (run : TrialRun)
    (predicate : FailurePredicate) : MinimizeTask MinimizeOutcome := do
  pushRisk s!"The observed run reported {run.status.asStr}."
  pushRiskIf run.diagnostics.isEmpty "The run carried no bounded compiler diagnostic."
  let (session, elapsed) ← sessionNow
  return ⟨"NOT_REPRODUCED", "The candidate failure could not be reproduced as a stable, exact predicate.", false,
    { baseData request stopReason reason with
      predicate := some predicate.data
      verification := "none"
      budget := some (budgetData request.budget session elapsed)
      remainingRisks := session.risks }⟩

def finishCancelled (request : MinimizeRequest) (predicate : FailurePredicate) : MinimizeTask MinimizeOutcome := do
  let (session, elapsed) ← sessionNow
  return ⟨"CANCELLED", "No usable reproducer was published because the action was cancelled.", true,
    { baseData request "cancelled"
        "the minimization was cancelled before a verified reproducer was exported" with
      predicate := some predicate.data
      reductions := session.reductions
      reductionsTotal := session.reductionsTotal
      reductionsOmitted := session.reductionsTotal - session.reductions.length
      budget := some (budgetData request.budget session elapsed)
      remainingRisks := session.risks }⟩

def maxProofFiles : ℕ := 64

def maxProofFileBytes : ℕ := 64 * 1024

def maxProofTotalBytes : ℕ := 256 * 1024

/-- `tree_sha256`. -/
def treeSha256 (tree : SourceTree) : String :=
  sha ("agz-rust-mcp-minimized-tree\x00" ++
    String.join (tree.toList.map fun entry => entry.1 ++ "\x00" ++ entry.2 ++ "\x00")).toUTF8

/-- What the loop of `build_proof` has collected. -/
structure ProofFiles where
  files : List RepairProofFileData
  totalBytes : ℕ
  packageComplete : Bool
  omitted : List String

/-- One turn of the loop of `build_proof`. -/
def proofFile (collected : ProofFiles) (entry : String × String) : ProofFiles :=
  let bytes := entry.2.utf8ByteSize
  if collected.files.length < maxProofFiles ∧ bytes ≤ maxProofFileBytes ∧
      saturatingAdd collected.totalBytes bytes ≤ maxProofTotalBytes then
    { collected with
      totalBytes := saturatingAdd collected.totalBytes bytes
      files := collected.files ++ [⟨entry.1, sha entry.2.toUTF8, bytes, some entry.2, false⟩] }
  else
    { collected with
      packageComplete := false
      omitted :=
        if collected.omitted.length < 16 then
          collected.omitted ++ [s!"{entry.1}: content omitted at the proof bound"]
        else collected.omitted
      files := collected.files ++ [⟨entry.1, sha entry.2.toUTF8, bytes, none, true⟩] }

def reproductionCommand (command : String) : String :=
  match (splitWhitespace command.toList).drop 1 with
  | [] => "cargo check"
  | rest =>
    let arguments := " ".intercalate (rest.map String.ofList)
    truncate s!"cargo {arguments}" 512

def buildProof (tree : SourceTree) (session : MinimizeSession) (predicate : FailurePredicate)
    (exportVerified : Bool) (exportVerification : String) : RepairProofData :=
  let collected := tree.toList.foldl (proofFile sha) ⟨[], 0, true, []⟩
  { files := collected.files
    filesTotal := tree.size
    totalBytes := collected.totalBytes
    packageComplete := collected.packageComplete
    omitted := collected.omitted
    sourceSha256 := treeSha256 sha tree
    reproductionCommand := reproductionCommand session.lastCommand
    cargoTomlSha256 := tree["Cargo.toml"]?.map fun text => sha text.toUTF8
    lockfileSha256 := tree["Cargo.lock"]?.map fun text => sha text.toUTF8
    lockfilePreserved := tree.contains "Cargo.lock"
    exportVerified
    initialReproduction :=
      s!"the unchanged candidate reproduced {predicate.diagnosticId} at the first fresh run"
    exportVerification := truncate exportVerification 512 }

def finishReproducer (request : MinimizeRequest) (predicate : FailurePredicate)
    (current : SourceTree) (proof : RepairProofData) (status stopReason : String) : MinimizeTask MinimizeOutcome := do
  let reproduced := status == "REPRODUCED"
  let usable := reproduced || status == "BEST_KNOWN_REPRODUCER"
  pushRiskIf (stopReason != "completed")
    s!"The reduction search stopped at the {stopReason} budget; the reported reproducer is only small relative to the tried transformation set."
  pushRiskIf (!reproduced && usable)
    "A mathematically minimal reproducer is not claimed; remaining unsearched scope stays visible."
  let (session, elapsed) ← sessionNow
  return ⟨status,
    s!"{status}: minimized to {current.size} file(s) ({proof.totalBytes} byte(s)); {session.reductionsTotal} reduction(s) were compile-evaluated.",
    !usable,
    { usable
      changeId := some request.changeId
      baseIdentity := request.baseIdentity
      revision := some request.revision
      evidenceRevision := some request.evidenceRevision
      predicate := some predicate.data
      proof := some proof
      reductions := session.reductions
      reductionsTotal := session.reductionsTotal
      reductionsOmitted := session.reductionsTotal - session.reductions.length
      reproduced
      verification :=
        if reproduced then "exportVerified" else if usable then "trialVerified" else "none"
      budget := some (budgetData request.budget session elapsed)
      stopReason
      remainingRisks := session.risks
      reason :=
        if reproduced then
          "the minimized source reproduced the target predicate in a clean directory"
        else
          "a budget or portability limit stopped the bounded search before a clean-directory REPRODUCED result" }⟩

/-! ## `minimize` -/

/-- What the verification in a clean directory found. -/
structure ExportCheck where
  status : String
  stopReason : String
  verified : Bool
  verification : String

/-- A stop reason that does not replace an earlier one. -/
def orStop (stopReason stop : String) : String := if stopReason = "completed" then stop else stopReason

/-- The verification of the minimized source in a clean directory. -/
def verifyExport (predicate : FailurePredicate) (baseline : List String) (budget : RepairBudget)
    (current : SourceTree) (stopReason : String) : MinimizeTask ExportCheck := do
  match ← budgetStop budget with
  | some stop =>
    pushRisk "The clean-directory export verification did not run because a budget stop was reached; the minimized source is verified only in the trial directory."
    return ⟨"BEST_KNOWN_REPRODUCER", orStop stopReason stop, false,
      s!"not run: the {stop} budget stop was reached before the clean-directory verification"⟩
  | none =>
    match ← runTree current .export with
    | .error reason =>
      return ⟨"NOT_REPRODUCED", orStop stopReason "exportInconclusive", false,
        s!"the clean-directory verification could not start: {reason}"⟩
    | .ok run =>
      let evaluation := evaluateRun lowercase predicate baseline run
      if evaluation.matched then
        return ⟨"REPRODUCED", stopReason, true,
          s!"fresh {run.status.asStr} in a clean directory reproduced the target predicate with no new error signatures"⟩
      else
        return ⟨"NOT_REPRODUCED", orStop stopReason "exportMismatch", false,
          s!"the clean-directory verification did not reproduce the target predicate ({evaluation.reason})"⟩

/-- `minimize` after the search. -/
def exportMinimized (request : MinimizeRequest) (predicate : FailurePredicate)
    (baseline : List String) (initial current : SourceTree) (confirmed : Bool)
    (skippedReferenced skippedScope : ℕ) (stopReason : String) : MinimizeTask MinimizeOutcome := do
  pushRiskIf (skippedReferenced > 0)
    s!"{skippedReferenced} item(s) were not offered as reductions because their names are still referenced elsewhere in the candidate."
  pushRiskIf (skippedScope > 0)
    s!"{skippedScope} unit(s) could not be expressed under the requested reductionScope."
  let result ← verifyExport lowercase predicate baseline request.budget current stopReason
  let status :=
    if !result.verified && result.status == "REPRODUCED" then "BEST_KNOWN_REPRODUCER"
    else result.status
  pushRiskIf (!confirmed)
    "The failure was reproduced once but not confirmed by a second fresh unchanged run."
  pushRiskIf (!initial.contains "Cargo.lock")
    "The candidate carries no Cargo.lock; the export preserves whatever lockfile state exists in the candidate copy."
  pushRiskIf current.isEmpty "The minimized source is empty."
  let (session, _) ← sessionNow
  let proof := buildProof sha current session predicate result.verified result.verification
  finishReproducer request predicate current proof status result.stopReason

/-- The second run of the candidate, or the outcome that ends it. -/
def confirmFailure (request : MinimizeRequest) (predicate : FailurePredicate)
    (baseline : List String) (initial : SourceTree) : MinimizeTask (Except MinimizeOutcome Bool) := do
  if ← canCompile request.budget then
    match ← runTree initial .trial with
    | .error reason =>
      return .error (finishUnavailable request s!"the confirmation run could not start: {reason}")
    | .ok run =>
      let confirm := evaluateRun lowercase predicate baseline run
      if confirm.matched then return .ok true
      else
        let outcome ← finishNotReproduced request "unreproducible"
          s!"The failure did not reproduce on a second fresh run of the unchanged candidate ({confirm.reason}); it is treated as flaky and no reduction was attempted."
          run predicate
        return .error outcome
  else
    pushRisk "The confirmation run was skipped because the compile budget was exhausted."
    return .ok false

/-- `minimize` with a scratch directory; no result: too little fuel. -/
def minimizeTree (request : MinimizeRequest) (data : CandidateTree) (predicate : FailurePredicate) :
    MinimizeTask (Option MinimizeOutcome) := do
  pushRiskIf data.truncated
    "The candidate snapshot omitted files at a capture bound; the package states this portability limit."
  match ← runTree data.files .trial with
  | .error reason => return some (finishUnavailable request reason)
  | .ok initialRun =>
    let baseline := initialRun.signatures lowercase
    let initial := evaluateRun lowercase predicate baseline initialRun
    if !initial.matched then
      let outcome ← finishNotReproduced request
        (if initial.kind = .inconclusive then "initialInconclusive" else "initialMismatch")
        s!"The unchanged candidate did not reproduce the target failure predicate ({initial.reason}). No minimization was attempted."
        initialRun predicate
      return some outcome
    else
      match ← confirmFailure lowercase request predicate baseline data.files with
      | .error outcome => return some outcome
      | .ok confirmed =>
        acceptTree data.files
        match ← searchLoop lowercase reducer predicate baseline request.budget data.files
            request.reductionScope (request.budget.maxCompiles + 1) data.files 0 0 with
        | .outOfFuel => return none
        | .unavailable reason => return some (finishUnavailable request reason)
        | .cancelled => return some (← finishCancelled request predicate)
        | .ended current skippedReferenced skippedScope stopReason =>
          if ← pollCancelled then return some (← finishCancelled request predicate)
          else
            return some (← exportMinimized lowercase sha request predicate baseline data.files current
              confirmed skippedReferenced skippedScope stopReason)

def minimize (request : MinimizeRequest) : MinimizeTask (Option MinimizeOutcome) := do
  if ← pollCancelled then return some (cancelledOutcome request.changeId)
  match request.tree with
  | .error reason => return some (noEvidenceOutcome request reason)
  | .ok data =>
    if request.filtered = [] then
      let listed := ", ".intercalate request.unmatched
      return some (noEvidenceOutcome request
        (if request.unmatched = [] then
          "the fresh FAIL evidence carries no compiler diagnostics to minimize"
        else s!"diagnosticIds did not match: {listed}"))
    else
      match FailurePredicate.build lowercase request.filtered request.failurePredicate with
      | .error reason => return some (noEvidenceOutcome request reason)
      | .ok predicate =>
        match request.scratch with
        | .error reason => return some (scratchOutcome request reason)
        | .ok () => minimizeTree lowercase sha reducer request data predicate

end Minimizer

end AgzRustMcp
