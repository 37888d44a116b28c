import AgzRustMcp.Foundation.Median
import AgzRustMcp.Gate.Commands

/-!
# The comparison of two builds

`build_comparison` of `tools/profile.rs`.  Times are natural numbers and their ratios exact
fractions.  `Formats` are the texts of the standard library for an optional string (`{:?}`) and for
a percentage (`{:+.1}`).
-/

namespace AgzRustMcp.Profile

open Gate Median

/-- How the standard library writes the arguments of a message. -/
structure Formats where
  debug : Option String → String
  signedTenth : ℚ → String

def profileFormatVersion : ℕ := 1

def noiseRatio : ℚ := 1 / 2

def materialityRatio : ℚ := 1 / 20

/-! ## Records -/

structure ConditionValue where
  available : Bool
  summary : String
  reason : String
  deriving DecidableEq

def ConditionValue.unavailable (reason : String) : ConditionValue := ⟨false, "unavailable", reason⟩

/-- `ConditionSnapshot`, as far as a comparison reads it. -/
structure ConditionSnapshot where
  toolchain : ConditionValue
  hardware : ConditionValue
  cacheState : String
  inputHash : String

structure ConfigurationSnapshot where
  target : String
  options : ValidationOptions
  cargo : String
  cacheMode : String
  detail : String
  deriving DecidableEq

/-- `ProfilePhase`, as far as a comparison reads it. -/
structure ProfilePhase where
  name : String
  ms : Option ℕ

/-- `ProfileRecord`, as far as a comparison reads it. -/
structure ProfileRecord where
  evidenceId : String
  status : String
  reason : String
  changeId : Option String
  workspaceRoot : Option String
  rootEpoch : ℕ
  configuration : ConfigurationSnapshot
  conditions : ConditionSnapshot
  phases : List ProfilePhase
  wallMs : ℕ

/-- `CompareRequest`, as far as a comparison reads it. -/
structure CompareRequest where
  rootEpoch : ℕ
  workspaceRoot : String
  changeId : Option String

structure ComparisonSide where
  samples : ℕ
  evidenceIds : List String
  wallMedianMs : Option ℕ
  wallMinMs : Option ℕ
  wallMaxMs : Option ℕ
  cargoMedianMs : Option ℕ
  cargoMinMs : Option ℕ
  cargoMaxMs : Option ℕ
  toolchain : ConditionValue
  hardware : ConditionValue
  cacheState : String
  inputHash : String
  workspaceRoot : Option String
  rootEpoch : ℕ

structure ChangeBinding where
  changeId : Option String
  baselineInputHash : String
  candidateInputHash : String
  changed : Bool

structure PhaseDelta where
  name : String
  baselineMs : Option ℕ
  candidateMs : Option ℕ
  deltaMs : Option ℤ
  deltaPercent : Option ℚ

structure ProfileComparison where
  formatVersion : ℕ
  status : String
  reason : String
  configuration : Option ConfigurationSnapshot
  conditionsMatch : Bool
  conditionDifferences : List String
  changeBinding : ChangeBinding
  requiredSamples : ℕ
  baseline : ComparisonSide
  candidate : ComparisonSide
  phaseDeltas : List PhaseDelta
  speedClaim : Option String
  warnings : List String

/-- A turn of the loop of `complete_records`. -/
def completeTurn (label : String) (state : List String × List ProfileRecord × List String)
    (record : ProfileRecord) : List String × List ProfileRecord × List String :=
  let (seen, kept, dropped) := state
  if record.evidenceId ∈ seen then
    (seen, kept, dropped ++ [label ++ " evidence " ++ record.evidenceId ++
      " appeared more than once and was counted once"])
  else if record.status ≠ "COMPLETE" then
    (record.evidenceId :: seen, kept, dropped ++ [label ++ " sample " ++ record.evidenceId ++
      " was excluded because it finished as " ++ record.status ++ ": " ++ record.reason])
  else (record.evidenceId :: seen, kept ++ [record], dropped)

/-- `complete_records`: the records that are kept, and the warnings about the others. -/
def completeRecords (records : List ProfileRecord) (label : String) : List ProfileRecord × List String :=
  (records.foldl (completeTurn label) ([], [], [])).2

/-! ## Conditions -/

/-- The difference of one condition within a side. -/
def fieldDifference (label field : String) (value : ConditionValue) (summaries : List String) : List String :=
  if ¬ value.available then [label ++ " " ++ field ++ " is unavailable: " ++ value.reason]
  else if summaries.any (· ≠ value.summary) then [label ++ " " ++ field ++ " differs between samples"]
  else []

def sideDifferences (label : String) (side : List ProfileRecord) : List String :=
  match side with
  | [] => []
  | first :: _ =>
    fieldDifference label "toolchain" first.conditions.toolchain (side.map (·.conditions.toolchain.summary)) ++
    fieldDifference label "hardware" first.conditions.hardware (side.map (·.conditions.hardware.summary)) ++
    if side.any (·.conditions.cacheState ≠ first.conditions.cacheState) then
      [label ++ " mixes cache states; warm and cold experiments are not comparable"] else []

/-- The differences between the first records of the sides. -/
def firstDifferences (base cand : ConditionSnapshot) : List String :=
  (if base.toolchain.available ∧ cand.toolchain.available ∧ base.toolchain.summary ≠ cand.toolchain.summary then
    ["toolchain differs between baseline and candidate"] else []) ++
  (if base.hardware.summary ≠ cand.hardware.summary then
    ["hardware class differs between baseline and candidate"] else []) ++
  (if base.cacheState ≠ cand.cacheState then
    ["cache state differs between baseline (" ++ base.cacheState ++ ") and candidate (" ++ cand.cacheState ++ ")"]
    else [])

def conditionDifferences (baseline candidate : List ProfileRecord) : List String :=
  List.eraseDups (sideDifferences "baseline" baseline ++ sideDifferences "candidate" candidate ++
    match baseline.head?, candidate.head? with
    | some base, some cand => firstDifferences base.conditions cand.conditions
    | _, _ => [])

/-- The loop of `side_binding_problem`, with the input hash of the records before. -/
def bindingProblem (formats : Formats) (request : CompareRequest) (label : String) :
    Option String → List ProfileRecord → Option String
  | _, [] => none
  | inputHash, record :: records =>
    match record.workspaceRoot with
    | none => some (label ++ " evidence " ++ record.evidenceId ++ " has no workspace identity and cannot be compared")
    | some root =>
      if root ≠ request.workspaceRoot then
        some (label ++ " evidence " ++ record.evidenceId ++ " belongs to workspace " ++ root ++ " instead of " ++
          request.workspaceRoot)
      else if record.rootEpoch ≠ request.rootEpoch then
        some (label ++ " evidence " ++ record.evidenceId ++ " was measured under root epoch " ++
          toString record.rootEpoch ++ " instead of " ++ toString request.rootEpoch)
      else if record.changeId ≠ request.changeId then
        some (label ++ " evidence " ++ record.evidenceId ++ " is bound to changeId " ++
          formats.debug record.changeId ++ " instead of " ++ formats.debug request.changeId)
      else
        match inputHash with
        | none => bindingProblem formats request label (some record.conditions.inputHash) records
        | some hash =>
          if hash = record.conditions.inputHash then bindingProblem formats request label (some hash) records
          else some (label ++ " samples mix input identities; changed or warm/cold inputs are not comparable")

def sideBindingProblem (formats : Formats) (records : List ProfileRecord) (request : CompareRequest)
    (label : String) : Option String :=
  bindingProblem formats request label none records

/-! ## Series -/

def comparableWallMs (record : ProfileRecord) : ℕ :=
  record.wallMs - (((record.phases.find? (·.name = "mcpAdmission")).bind (·.ms)).getD 0)

def cargoPhaseMs (record : ProfileRecord) : Option ℕ :=
  let times := (record.phases.filter fun phase => "cargo:".toList.isPrefixOf phase.name.toList).filterMap (·.ms)
  if times = [] then none else some (times.foldl saturatingAdd 0)

def side (records : List ProfileRecord) : ComparisonSide :=
  let records := (completeRecords records "side").1
  let wall := records.map comparableWallMs
  let cargo := records.filterMap cargoPhaseMs
  let first := records.head?
  { samples := records.length
    evidenceIds := records.map (·.evidenceId)
    wallMedianMs := median wall
    wallMinMs := wall.min?
    wallMaxMs := wall.max?
    cargoMedianMs := median cargo
    cargoMinMs := cargo.min?
    cargoMaxMs := cargo.max?
    toolchain := (first.map (·.conditions.toolchain)).getD (.unavailable "no samples")
    hardware := (first.map (·.conditions.hardware)).getD (.unavailable "no samples")
    cacheState := (first.map (·.conditions.cacheState)).getD "unknown"
    inputHash := (first.map (·.conditions.inputHash)).getD ""
    workspaceRoot := first.bind (·.workspaceRoot)
    rootEpoch := (first.map (·.rootEpoch)).getD 0 }

/-- `i64::MAX`. -/
def i64Max : ℕ := 2 ^ 63 - 1

def phaseMedian (records : List ProfileRecord) (name : String) : Option ℕ :=
  median (((records.flatMap (·.phases)).filter (·.name = name)).filterMap (·.ms))

def phaseDeltas (baseline candidate : List ProfileRecord) : List PhaseDelta :=
  (sortedDistinct ((baseline ++ candidate).flatMap fun record => record.phases.map (·.name))).map fun name =>
    let base := phaseMedian baseline name
    let cand := phaseMedian candidate name
    { name
      baselineMs := base
      candidateMs := cand
      deltaMs := base.bind fun base => cand.map fun cand => (min cand i64Max : ℤ) - (min base i64Max : ℤ)
      deltaPercent := base.bind fun base => cand.bind fun cand =>
        if 0 < base then some (((cand : ℚ) - base) / base * 100) else none }

def noisy (median min max : Option ℕ) : Bool := spreadOver noiseRatio median min max

/-- What `compare_measurements` says about a measurable ratio. -/
def classifyRatio (formats : Formats) (required : ℕ) (ratio : ℚ) : Option String × String :=
  let claim :=
    if ratio ≤ -materialityRatio then some "candidate-faster"
    else if materialityRatio ≤ ratio then some "baseline-faster"
    else none
  (claim, match claim with
    | none => "median Cargo phase changed " ++ formats.signedTenth (ratio * 100) ++
        "%, within the 5% materiality threshold"
    | some claim => "median Cargo phase changed " ++ formats.signedTenth (ratio * 100) ++ "% across " ++
        toString required ++ " samples per side; claim=" ++ claim)

def compareMeasurements (formats : Formats) (baseline candidate : ComparisonSide) (required : ℕ)
    (changed conditionsMatch : Bool) : Except String (Option String × String) :=
  if required < 2 then
    .error "compareSamples must be at least 2; a single run per side can never yield a speed claim"
  else if baseline.samples < required ∨ candidate.samples < required then
    .error ("insufficient samples (baseline " ++ toString baseline.samples ++ ", candidate " ++
      toString candidate.samples ++ "; " ++ toString required ++ " required per side)")
  else if ¬ conditionsMatch then .error "conditions differ between baseline and candidate"
  else if ¬ changed then
    .error "baseline and candidate input identities are identical; no source change was recorded"
  else if noisy baseline.cargoMedianMs baseline.cargoMinMs baseline.cargoMaxMs ∨
      noisy candidate.cargoMedianMs candidate.cargoMinMs candidate.cargoMaxMs then
    .error "cargo samples are too noisy to compare (relative spread above 50%)"
  else if noisy baseline.wallMedianMs baseline.wallMinMs baseline.wallMaxMs ∨
      noisy candidate.wallMedianMs candidate.wallMinMs candidate.wallMaxMs then
    .error "wall samples are too noisy to compare (relative spread above 50%)"
  else
    match baseline.cargoMedianMs, candidate.cargoMedianMs with
    | some base, some cand =>
      if base = 0 then .error "baseline Cargo phase median is zero; no ratio is measurable"
      else .ok (classifyRatio formats required (((cand : ℚ) - base) / base))
    | _, _ => .error "Cargo phase timing was not observed on both sides"

/-- The configuration of the comparison, and the difference of a record from it. -/
def configurationDifference (baseline candidate : List ProfileRecord) : Option ConfigurationSnapshot × List String :=
  let configuration := (baseline.head?.or candidate.head?).map (·.configuration)
  (configuration, match configuration with
    | some configuration =>
      if (candidate ++ baseline).any (·.configuration ≠ configuration) then
        ["configuration differs between samples"] else []
    | none => [])

def buildComparison (formats : Formats) (request : CompareRequest) (required : ℕ)
    (baseline candidate : List ProfileRecord) (warnings : List String) : ProfileComparison :=
  let (baseline, droppedBaseline) := completeRecords baseline "baseline"
  let (candidate, droppedCandidate) := completeRecords candidate "candidate"
  let (configuration, mixed) := configurationDifference baseline candidate
  let baselineSide := side baseline
  let candidateSide := side candidate
  let changed := baselineSide.inputHash ≠ "" && candidateSide.inputHash ≠ "" &&
    baselineSide.inputHash ≠ candidateSide.inputHash
  let binding := (sideBindingProblem formats baseline request "baseline").or
    (sideBindingProblem formats candidate request "candidate")
  let differences := (conditionDifferences baseline candidate ++ mixed ++ binding.toList).eraseDups
  let conditionsMatch := differences.isEmpty
  let result : Except String (Option String × String) := match binding with
    | some reason => .error reason
    | none => compareMeasurements formats baselineSide candidateSide required changed conditionsMatch
  { formatVersion := profileFormatVersion
    status := match result with | .ok _ => "COMPARABLE" | .error _ => "INCONCLUSIVE"
    reason := match result with | .ok (_, reason) => reason | .error reason => reason
    configuration
    conditionsMatch
    conditionDifferences := differences
    changeBinding := ⟨request.changeId, baselineSide.inputHash, candidateSide.inputHash, changed⟩
    requiredSamples := required
    baseline := baselineSide
    candidate := candidateSide
    phaseDeltas := phaseDeltas baseline candidate
    speedClaim := match result with | .ok (claim, _) => claim | .error _ => none
    warnings := warnings ++ droppedBaseline ++ droppedCandidate ++ if conditionsMatch then [] else
      ["conditions differed between sides; no speed claim is valid from these samples"] }

end AgzRustMcp.Profile
