import AgzRustMcp.Gate.Scope

/-!
# Test runs and matrix runs

`test_run` executes the items of a test plan, or the one Cargo suite that stands for all of them,
and `matrix_run` the cells of a matrix plan.  What a command works on is decided by the gate; the
plans say `workspace` before it has chosen anything.
-/

namespace AgzRustMcp.Verify

open AgzRustMcp.Gate

/-! ## Plans -/

/-- `TestPlanItem`, as far as its execution depends on it. -/
structure TestPlanItem where
  id : String
  targetKind : String
  filter : Option String
  exactTest : Option String
  features : List String
  noDefaultFeatures : Bool
  runner : TestRunner
  compileOnly : Bool
  cargoSuiteDoctests : Option ℕ
  packages : List String
  cargoTarget : Option CargoTargetSelection
deriving DecidableEq

/-- `TestPlanBuild`, as far as a run depends on it. -/
structure TestPlanBuild where
  items : List TestPlanItem
  cargoSuite : Option TestPlanItem
  skipped : List String
  full : Bool
deriving DecidableEq

/-- What the inventory ends with: whether it was widened, whether there are members, the items and
the skipped ones; nothing when a selection is refused. -/
structure TestInventory where
  widened : Bool
  hasMembers : Bool
  items : List TestPlanItem
  skipped : List String
deriving DecidableEq

def cargoSuiteItem (configuration : ValidationOptions) (items : List TestPlanItem) : TestPlanItem where
  id := "configuration--cargo-suite"
  targetKind := "cargo-suite"
  filter := none
  exactTest := none
  features := configuration.features
  noDefaultFeatures := configuration.noDefaultFeatures
  runner := .cargo
  compileOnly := false
  cargoSuiteDoctests := some (items.countP fun item => item.targetKind = "doctest")
  packages := configuration.packages
  cargoTarget := configuration.cargoTarget

/-- The end of `build_test_plan`, from the inventory on. -/
def buildTestPlan (configuration : ValidationOptions) (mapped : Bool)
    (inventory : Except (List String) TestInventory) (maxTests : ℕ) : TestPlanBuild :=
  match inventory with
  | .error skipped => ⟨[], none, skipped, false⟩
  | .ok inventory =>
    let explicitSelection := configuration.packages ≠ [] ∨ configuration.cargoTarget.isSome ∨
      (configuration.testFilter.isSome ∧ inventory.hasMembers)
    let items := inventory.items.take maxTests
    let skipped := inventory.skipped ++ (inventory.items.drop maxTests).map TestPlanItem.id
    let full := decide (inventory.widened ∧ ¬ explicitSelection ∧ skipped = [])
    let suite := if (full ∨ configuration.packages ≠ []) ∧ skipped = [] ∧
        configuration.runner = .cargo ∧ mapped = false ∧ configuration.testFilter = none then
      some (cargoSuiteItem configuration items) else none
    ⟨items, suite, skipped, full⟩

def TestPlanBuild.executionItems (build : TestPlanBuild) : List TestPlanItem :=
  match build.cargoSuite with
  | some suite => [suite]
  | none => build.items

/-! ## Items -/

/-- The request of `run_test_item`. -/
def itemRequest (configuration : ValidationOptions) (item : TestPlanItem) : GateRequest :=
  let doctest := item.targetKind = "doctest"
  { options := { configuration with
      packages := item.packages
      cargoTarget := item.cargoTarget
      features := item.features
      noDefaultFeatures := item.noDefaultFeatures
      runner := if doctest ∨ item.compileOnly then .cargo else item.runner
      testFilter := if doctest ∨ item.compileOnly then none else item.filter }
    cargoTestDefaults := item.cargoSuiteDoctests.isSome
    target := if item.compileOnly then .build else if doctest then .doc else .test
    timings := false }

/-- The steps of an evidence as the test output reader sees them. -/
def testEvidence (evidence : Gate.GateEvidence) : TestEvidence :=
  ⟨evidence.status, evidence.steps.map GateStepResult.output⟩

/-- `observe_test_output` of a run, unless it only compiles. -/
def observeItem (item : TestPlanItem) (evidence : Gate.GateEvidence) : TestObservation :=
  if item.compileOnly then {} else observeTestOutput (evidenceText (testEvidence evidence))

/-- The steps of a suite have complete summaries. -/
def suiteComplete (evidence : Gate.GateEvidence) (doctests : ℕ) : Bool :=
  evidence.steps ≠ [] && evidence.steps.all fun step =>
    step.target = .test && step.output.stats.buildFinished && step.output.stats.buildSuccess = some true &&
      0 < step.output.stats.testsExecuted.getD 0 &&
      step.output.stats.emptyTestSummaries = 0 &&
      step.output.stats.testBinaries + doctests ≤ step.output.stats.testSummaries

/-- The status that `classify_test_evidence` gives to an evidence without a verdict. -/
def classifyUnsettled (exactIgnored : Bool) (observation : TestObservation) : String :=
  if exactIgnored ∨ (observation.passed = 0 ∧ observation.failed = 0 ∧ 0 < observation.ignored ∧
      observation.summarySeen) then "IGNORED_ONLY"
  else if observation.summarySeen ∧ observation.passed = 0 ∧ observation.failed = 0 then "ZERO_MATCH"
  else "INCONCLUSIVE"

/-- The status that `classify_test_evidence` gives to a pass of the gate. -/
def classifyPass (item : TestPlanItem) (evidence : Gate.GateEvidence) (exactSeen exactIgnored : Bool)
    (observation : TestObservation) : String :=
  if item.cargoSuiteDoctests.any fun doctests => !suiteComplete evidence doctests then "INCONCLUSIVE"
  else if item.compileOnly then
    if evidence.steps ≠ [] ∧ evidence.steps.all fun step => step.target = .build &&
        step.output.stats.buildFinished && step.output.stats.buildSuccess = some true then "COMPILED"
    else "INCONCLUSIVE"
  else if exactIgnored then "IGNORED_ONLY"
  else if observation.summarySeen = false then "INCONCLUSIVE"
  else if observation.passed = 0 ∧ observation.failed = 0 then
    if 0 < observation.ignored then "IGNORED_ONLY" else "ZERO_MATCH"
  else if item.exactTest.isSome ∧ exactSeen = false then "INCONCLUSIVE"
  else "PASS"

/-- The status of `classify_test_evidence`. -/
def classifyTestEvidence (item : TestPlanItem) (evidence : Gate.GateEvidence)
    (observation : TestObservation) : String :=
  let exactSeen := item.exactTest.all fun name =>
    observation.executed.any fun observed => testNameMatches observed name.toList
  let exactIgnored := item.exactTest.any fun name =>
    observation.ignoredNames.any fun observed => testNameMatches observed name.toList
  match evidence.status with
  | .fail => if evidenceIsCompileFailure (testEvidence evidence) then "COMPILE_FAIL" else "FAIL"
  | .fastPass | .fullPass => classifyPass item evidence exactSeen exactIgnored observation
  | .timeout => "TIMEOUT"
  | .cancelled => "CANCELLED"
  | .unavailable => "RUNNER_UNAVAILABLE"
  | _ => classifyUnsettled exactIgnored observation

/-! ## Test runs -/

/-- What a test run meets at an item: an end, or the gate. -/
inductive ItemTurn
  | cancelled
  | skippedBudget
  | runs (run : GateRun)

def itemRun (configured : ConfigGateScope) (configuration : ValidationOptions) (item : TestPlanItem)
    (run : GateRun) : GateRun :=
  { run with configured := configured, request := itemRequest configuration item }

/-- The status of an item: that of its run, or why it was stopped. -/
def itemStatus (sha : ByteArray → String) (configured : ConfigGateScope)
    (configuration : ValidationOptions) (item : TestPlanItem) : ItemTurn → String
  | .cancelled => "CANCELLED"
  | .skippedBudget => "SKIPPED_BUDGET"
  | .runs run =>
    let evidence := (itemRun configured configuration item run).evidence sha
    classifyTestEvidence item evidence (observeItem item evidence)

/-- A test run: the service, the plan, the items, and the identity. -/
structure TestRun where
  sha : ByteArray → String
  configured : ConfigGateScope
  configuration : ValidationOptions
  mapped : Bool
  inventory : Except (List String) TestInventory
  maxTests : ℕ
  turns : ℕ → ItemTurn
  identityError : Option GateStatus

def TestRun.build (run : TestRun) : TestPlanBuild :=
  buildTestPlan run.configuration run.mapped run.inventory run.maxTests

def TestRun.statuses (run : TestRun) : List String :=
  run.build.executionItems.zipIdx.map fun (item, index) =>
    itemStatus run.sha run.configured run.configuration item (run.turns index)

/-- The status of `test_run`. -/
def TestRun.status (run : TestRun) : String :=
  let passes := fun status : String => status = "PASS" ∨ status = "COMPILED"
  match run.identityError with
  | some status => status.asStr
  | none =>
    if run.statuses = [] then "INCONCLUSIVE"
    else if run.statuses.any fun status => status = "FAIL" ∨ status = "COMPILE_FAIL" then "FAIL"
    else if (run.statuses.all fun status => passes status) ∧ run.build.full ∧
        run.build.cargoSuite.isSome ∧ run.build.skipped = [] ∧ "PASS" ∈ run.statuses then
      "FULL_REQUESTED_SUITE"
    else if "PASS" ∈ run.statuses then "TESTED_SUBSET"
    else "INCONCLUSIVE"

/-! ## Matrix runs -/

inductive VerifyStage
  | check | build | clippy | test | doc
deriving DecidableEq

def VerifyStage.target : VerifyStage → GateTargetId
  | .check => .check
  | .build => .build
  | .clippy => .clippy
  | .test => .test
  | .doc => .doc

/-- `MatrixCell`, as far as its execution depends on it. -/
structure MatrixCell where
  id : String
  packageScope : String
  features : List String
  noDefaultFeatures : Bool
  targetTriple : Option String
  toolchain : Option String
  stage : VerifyStage
  runner : TestRunner
deriving DecidableEq

inductive CellStatus
  | planned | pass | fail | timeout | cancelled | runnerUnavailable | resourceBlocked | inconclusive
  | skippedBudget | skippedCancelled | notInstalled | unsupportedConfiguration
deriving DecidableEq

def mapGateStatus : GateStatus → CellStatus
  | .fastPass | .fullPass => .pass
  | .fail => .fail
  | .timeout => .timeout
  | .cancelled => .cancelled
  | .unavailable => .runnerUnavailable
  | .resourceBlocked => .resourceBlocked
  | .pending | .stale | .superseded | .inconclusive => .inconclusive

def cellRequest (cell : MatrixCell) : GateRequest where
  options := {
    features := cell.features
    noDefaultFeatures := cell.noDefaultFeatures
    targetTriple := cell.targetTriple
    runner := cell.runner }
  cargoTestDefaults := false
  target := cell.stage.target
  timings := false

/-- The gate run of a cell, with its toolchain for a shim. -/
def cellRun (configured : ConfigGateScope) (cell : MatrixCell) (run : GateRun) : GateRun :=
  { run with
    configured := configured, request := cellRequest cell
    toolchain := run.toolchain.bind fun _ => cell.toolchain }

/-- What a matrix run meets at a cell: an end, or the gate. -/
inductive CellTurn
  | cancelled
  | skippedBudget
  | runs (run : GateRun) (cancelled expired : Bool)

/-- The status of a cell of `run_plan`. -/
def cellStatus (sha : ByteArray → String) (configured : ConfigGateScope) (cell : MatrixCell) : CellTurn → CellStatus
  | .cancelled => .skippedCancelled
  | .skippedBudget => .skippedBudget
  | .runs run cancelled expired =>
    if cancelled then .cancelled
    else if expired then .skippedBudget
    else mapGateStatus ((cellRun configured cell run).evidence sha).status

/-- A matrix run: the service, the cells of the plan, and what is met at each. -/
structure MatrixRun where
  sha : ByteArray → String
  configured : ConfigGateScope
  cells : List MatrixCell
  turns : ℕ → CellTurn

end AgzRustMcp.Verify
