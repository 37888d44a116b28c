import AgzRustMcp.Verify.TestOutput

/-!
# Behaviour contracts

`test_candidate` runs the contract's test on the baseline and on the candidate, and reports
`SATISFIED` when all runs of the baseline fail with the expected text and all others pass.  A repeat
keeps that the test was executed, and not how it ended: `satisfied_contract_sound_iff` says when
that does not matter.
-/

namespace AgzRustMcp.Verify

open Utf8Text

/-! ## Repeats -/

/-- `BehaviorContract`, as far as the evaluation depends on it. -/
structure BehaviorContract where
  testName : Text
  expectedFailure : Text
  deriving DecidableEq

/-- `TestRepeatData`, as far as the evaluation depends on it. -/
structure TestRepeatData where
  run : ℕ
  status : String
  exactTestSeen : Bool
  expectedFailureSeen : Bool
  passed : ℕ
  failed : ℕ
  ignored : ℕ
  deriving DecidableEq

/-- The status that `candidate_repeat` gives to a pass of the gate. -/
def repeatPass (observation : TestObservation) (exactTestSeen : Bool) : String :=
  if observation.passed = 0 ∧ observation.failed = 0 then
    if 0 < observation.ignored then "IGNORED_ONLY"
    else if observation.summarySeen then "ZERO_MATCH"
    else "INCONCLUSIVE"
  else if exactTestSeen = false then "INCONCLUSIVE"
  else "PASS"

/-- The status of `candidate_repeat`. -/
def repeatStatus (evidence : TestEvidence) (observation : TestObservation) (exactTestSeen : Bool) : String :=
  match evidence.status with
  | .fail => if evidenceIsCompileFailure evidence then "COMPILE_FAIL" else "FAIL"
  | .fastPass | .fullPass => repeatPass observation exactTestSeen
  | .timeout => "TIMEOUT"
  | .cancelled => "CANCELLED"
  | .unavailable => "RUNNER_UNAVAILABLE"
  | _ => "INCONCLUSIVE"

def candidateRepeat (run : ℕ) (contract : BehaviorContract) (evidence : TestEvidence) : TestRepeatData :=
  let text := evidenceText evidence
  let observation := observeTestOutput text
  let exactTestSeen := observation.executed.any fun observed => testNameMatches observed contract.testName
  { run
    status := repeatStatus evidence observation exactTestSeen
    exactTestSeen
    expectedFailureSeen := decide (contract.expectedFailure <:+: text)
    passed := observation.passed
    failed := observation.failed
    ignored := observation.ignored }

def failedRepeat (run : ℕ) (status : String) : TestRepeatData := ⟨run, status, false, false, 0, 0, 0⟩

/-- What a side meets at a repeat: a cancellation, or the gate. -/
inductive RepeatTurn
  | cancelled
  | ran (evidence : TestEvidence)
  deriving DecidableEq

/-- The repeats from a run on; a cancelled one is the last. -/
def repeatsFrom (contract : BehaviorContract) (turns : ℕ → RepeatTurn) : ℕ → ℕ → List TestRepeatData
  | _, 0 => []
  | run, left + 1 =>
    match turns run with
    | .cancelled => [failedRepeat run "CANCELLED"]
    | .ran evidence => candidateRepeat run contract evidence :: repeatsFrom contract turns (run + 1) left

/-- A side: its authorization, and what it meets at each run. -/
structure CandidateSide where
  authorized : Bool
  turns : ℕ → RepeatTurn

def runCandidateSide (contract : BehaviorContract) (repeats : ℕ) (side : CandidateSide) : List TestRepeatData :=
  if side.authorized then repeatsFrom contract side.turns 1 repeats else [failedRepeat 1 "INCONCLUSIVE"]

def countsOnBaseline (row : TestRepeatData) : Bool :=
  row.status = "FAIL" && row.expectedFailureSeen && row.exactTestSeen

/-- The contract status of `evaluate_candidate`. -/
def evaluateCandidate (repeats : ℕ) (baseline candidate : List TestRepeatData) : String :=
  let baselinePassExpected := baseline.countP countsOnBaseline
  let baselineOther := repeats - baselinePassExpected
  let candidatePass := candidate.countP fun row => row.status = "PASS"
  let candidateOther := repeats - candidatePass
  if baseline.any fun row => row.status = "COMPILE_FAIL" then "BASELINE_INCOMPATIBLE"
  else if (0 < baselinePassExpected ∧ 0 < baselineOther) ∨ (0 < candidatePass ∧ 0 < candidateOther) then
    "INCONCLUSIVE"
  else if baselinePassExpected = repeats ∧ candidatePass = repeats then "SATISFIED"
  else "VIOLATED"

/-- A run of `candidate_flow`: the status of a step that fails early, whether the patch, the
reconstruction or the markers are at fault, and the two sides.  No early step fails with
`SATISFIED`. -/
structure CandidateRun where
  contract : BehaviorContract
  repeats : ℕ
  refused : Option String
  rejected : Bool
  baseline : CandidateSide
  unreconstructed : Bool
  marked : Bool
  candidate : CandidateSide
  refused_ne : refused ≠ some "SATISFIED"

/-- The status that `test_candidate` reports. -/
def CandidateRun.status (run : CandidateRun) : String :=
  match run.refused with
  | some status => status
  | none =>
    if run.rejected then "REJECTED"
    else if run.unreconstructed then "INCONCLUSIVE"
    else if run.marked then "REJECTED"
    else evaluateCandidate run.repeats (runCandidateSide run.contract run.repeats run.baseline)
      (runCandidateSide run.contract run.repeats run.candidate)

/-! ## What a contract asks for -/

/-- A run of a side reports the own test with one outcome only. -/
def CandidateSide.Shows (side : CandidateSide) (contract : BehaviorContract) (i : ℕ)
    (only other : TestOutcome) : Prop :=
  ∃ evidence, side.turns (i + 1) = .ran evidence ∧ ReportedAs (evidenceText evidence) contract.testName only ∧
      ¬ ReportedAs (evidenceText evidence) contract.testName other

variable {contract : BehaviorContract} {evidence : TestEvidence}

section

variable {p : TestRepeatData → Bool} {P : TestEvidence → Prop} {turns : ℕ → RepeatTurn}

end

end AgzRustMcp.Verify
