import AgzRustMcp.Verify.Features
import AgzRustMcp.Verify.Suite

/-!
# The matrix plan

`build_plan` makes the cells of a matrix out of the feature groups, the targets and the compiler
that the policy and the request name.  What it does not plan it skips, with a reason.  `unique_id`
appends a number to an identifier that is taken.
-/

namespace AgzRustMcp.Verify

open TextScan Utf8Text

/-! ## Policies, requests and facts -/

structure ProjectPolicy where
  source : String
  featureGroups : List (List String)
  mutuallyExclusive : List (List String)
  targets : List String
  msrv : Option String
  stages : List VerifyStage

structure RequiredConfigurations where
  includeDefault : Bool := true
  includeNoDefault : Bool := false
  includePolicy : Bool := true
  featureGroups : List (List String) := []
  targets : List String := []
  includeMsrv : Bool := false
  stages : List VerifyStage := []
  runner : Gate.TestRunner := .cargo

/-- `ToolchainFacts`, with what `resolve_toolchain_cargo` finds. -/
structure ToolchainFacts where
  hostTarget : Option String
  installedTargets : List String
  installedToolchains : List String
  rustupShimAvailable : Bool
  ciSuggestions : List String
  resolveToolchainCargo : String → Option Gate.FsPath

def ToolchainFacts.targetInstalled (facts : ToolchainFacts) (triple : String) : Bool :=
  facts.installedTargets.any fun installed => installed == triple

def versionMatches (installed requested : Text) : Bool :=
  installed == requested || (stripPrefix requested installed).any (fun rest => rest.head? == some '.') ||
    (stripPrefix installed requested).any (fun rest => rest.head? == some '.')

def ToolchainFacts.toolchainFor (facts : ToolchainFacts) (requested : String) : Option String :=
  match facts.installedToolchains.find? fun toolchain => toolchain == requested with
  | some exact => some exact
  | none => facts.installedToolchains.find? fun toolchain =>
      versionMatches ((toolchain.toList.splitOn '-').headD toolchain.toList) requested.toList

/-! ## Plans -/

def VerifyStage.asStr (stage : VerifyStage) : String := stage.target.asStr

/-- A `MatrixCell` with what the plan says about it. -/
structure PlannedCell extends MatrixCell where
  msrv : Option String
  includedBecause : String
  compileOnly : Bool
  deriving DecidableEq

structure SkippedCell where
  id : String
  status : CellStatus
  reason : String
  deriving DecidableEq

structure MatrixPlan where
  cells : List PlannedCell
  skipped : List SkippedCell
  policySource : String
  resolver : String
  packageScope : String
  featureUnification : String
  warnings : List String

def effectiveStages (required : RequiredConfigurations) (policy : ProjectPolicy) : List VerifyStage :=
  let stages := if required.stages = [] then policy.stages else required.stages
  (if stages = [] then [.check] else stages).eraseDups

def runnerFor (stage : VerifyStage) (runner : Gate.TestRunner) : Gate.TestRunner :=
  if stage = .test then runner else .cargo

def sanitizeId (value : String) : String :=
  let id := value.toList.map fun c => if c.isAlphanum || c == '-' || c == '_' then c.toLower else '-'
  if id.isEmpty then "cell" else String.ofList id

def specId (featureLabel target toolchain stage : String) : String :=
  featureLabel ++ "--" ++ target ++ "--" ++ toolchain ++ "--" ++ stage

def numberedId (base : String) (suffix : ℕ) : String := base ++ "-" ++ toString suffix

/-- The loop of `unique_id`; a turn of `fuel` tries one number. -/
def freeId (used : List String) (base : String) : ℕ → ℕ → String
  | 0, suffix => numberedId base suffix
  | fuel + 1, suffix =>
    if numberedId base suffix ∈ used then freeId used base fuel (suffix + 1) else numberedId base suffix

/-- `unique_id`; one of the first numbers is free. -/
def uniqueId (used : List String) (base : String) : String :=
  let base := sanitizeId base
  if base ∈ used then freeId used base used.length 2 else base

/-! ## Feature groups -/

structure FeatureSet where
  label : String
  features : List String
  noDefaultFeatures : Bool
  because : String

def requestFeatureGroupLimit : ℕ := 16

def maxGroupFeatures : ℕ := 32

/-- A group as it is planned: in order and without repetition. -/
def normalizeGroup (group : List String) : List String := (group.insertionSort (· ≤ ·)).dedup

def defaultSets (required : RequiredConfigurations) : List FeatureSet :=
  (if required.includeDefault then
    [⟨"default", [], false, "default feature set on the host target and toolchain"⟩] else []) ++
  (if required.includeNoDefault then
    [⟨"no-default", [], true, "explicitly requested --no-default-features cell"⟩] else [])

/-- The groups of the policy and of the request with their labels. -/
def labelledGroups (required : RequiredConfigurations) (policy : ProjectPolicy) : List (String × List String) :=
  (if required.includePolicy then
    policy.featureGroups.zipIdx.map fun (group, index) => ("policy-" ++ toString (index + 1), group)
    else []) ++
  (required.featureGroups.take requestFeatureGroupLimit).zipIdx.map fun (group, index) =>
    ("requested-" ++ toString (index + 1), group)

/-- The requested groups that are too many. -/
def excessGroups (required : RequiredConfigurations) : List SkippedCell :=
  ((required.featureGroups.zipIdx).drop requestFeatureGroupLimit).map fun (_, index) =>
    ⟨"requested-group-" ++ toString (index + 1), .unsupportedConfiguration,
      "at most " ++ toString requestFeatureGroupLimit ++ " requested feature groups are accepted"⟩

/-- Why a group in its normal form cannot be built. -/
def groupRefusal (policy : ProjectPolicy) (features : FeatureMap) (group : List String) : Option String :=
  match group.find? fun feature => !validFeatureName feature with
  | some feature => some s!"feature name `{feature}` is not a bounded Cargo feature name"
  | none =>
    match group.find? fun feature => !featureIsDeclared features feature with
    | some feature => some <| s!"feature `{feature}` is not declared by any workspace package; " ++
          "unsupported configuration is not a product regression"
    | none => featureConflict policy.mutuallyExclusive (featureClosure features group true)

/-- The loop of `feature_sets` over the groups. -/
structure GroupLoop where
  seen : List (List String)
  sets : List FeatureSet
  skipped : List SkippedCell

/-- One group of `feature_sets`. -/
def planGroup (policy : ProjectPolicy) (features : FeatureMap) (loop : GroupLoop)
    (labelled : String × List String) : GroupLoop :=
  let (label, group) := labelled
  let skip := fun reason => { loop with
    skipped := loop.skipped ++ [⟨label, .unsupportedConfiguration, reason⟩] }
  if group.isEmpty || maxGroupFeatures < group.length then
    skip s!"feature group must contain 1..={maxGroupFeatures} feature names"
  else
    let normalized := normalizeGroup group
    if normalized ∈ loop.seen then loop
    else
      match groupRefusal policy features normalized with
      | some reason => { skip reason with seen := normalized :: loop.seen }
      | none =>
        { loop with
          seen := normalized :: loop.seen
          sets := loop.sets ++ [⟨label, normalized, false,
            s!"explicitly supported feature group `{label}` from project policy ({policy.source})"⟩] }

def featureSets (required : RequiredConfigurations) (policy : ProjectPolicy) (features : FeatureMap) :
    List FeatureSet × List SkippedCell :=
  let loop := (labelledGroups required policy).foldl (planGroup policy features)
    ⟨[], defaultSets required, excessGroups required⟩
  (loop.sets, loop.skipped)

/-- The cells and skipped candidates so far, with the taken identifiers. -/
structure Planning where
  cells : List PlannedCell
  skipped : List SkippedCell
  usedIds : List String

def Planning.pushCell (planning : Planning) (cell : PlannedCell) (id : String) : Planning :=
  let id := uniqueId planning.usedIds id
  { planning with
    cells := planning.cells ++ [{ cell with id := id }]
    usedIds := id :: planning.usedIds }

def Planning.skip (planning : Planning) (skipped : SkippedCell) : Planning :=
  { planning with skipped := planning.skipped ++ [skipped] }

def hostCell (required : RequiredConfigurations) (set : FeatureSet) (stage : VerifyStage) : PlannedCell where
  id := ""
  packageScope := "workspace"
  features := set.features
  noDefaultFeatures := set.noDefaultFeatures
  targetTriple := none
  toolchain := none
  msrv := none
  stage := stage
  runner := runnerFor stage required.runner
  includedBecause := set.because
  compileOnly := false

def planFeatures (required : RequiredConfigurations) (stages : List VerifyStage) (sets : List FeatureSet)
    (planning : Planning) : Planning :=
  sets.foldl (fun planning set => stages.foldl (fun planning stage =>
    planning.pushCell (hostCell required set stage) (specId set.label "host" "default" stage.asStr))
    planning) planning

/-! ## Targets -/

def looksLikeTriple (value : String) : Bool :=
  2 ≤ value.toList.count '-' && value.toList.head? != some '-' &&
    value.toList.all fun c => c.isAlphanum || c == '_' || c == '-' || c == '.'

/-- The targets named by the policy, the request, and the workflows. -/
def namedTargets (required : RequiredConfigurations) (policy : ProjectPolicy) (facts : ToolchainFacts) :
    List String :=
  (if required.includePolicy then policy.targets else []) ++ required.targets ++
    (facts.ciSuggestions.filterMap fun suggestion =>
      (splitWhitespace suggestion.toList).head?.map String.ofList).filter facts.targetInstalled

/-- The cell of a target, without its identifier. -/
def targetCell (target : String) : PlannedCell where
  id := ""
  packageScope := "workspace"
  features := []
  noDefaultFeatures := false
  targetTriple := some target
  toolchain := none
  msrv := none
  stage := .check
  runner := .cargo
  includedBecause :=
    s!"installed target {target}; compile-only cell, never claims test execution on that platform"
  compileOnly := true

/-- Why a target has no cell. -/
def targetRefusal (facts : ToolchainFacts) (stages : List VerifyStage) (target : String) :
    Option (CellStatus × String) :=
  if facts.hostTarget = some target then
    some (.unsupportedConfiguration, s!"target {target} is the host target and is already covered")
  else if facts.targetInstalled target = false then
    some (.notInstalled, s!"target {target} is not installed; no download is attempted and " ++
      "compile-only plans cannot run")
  else if VerifyStage.check ∉ stages then
    some (.unsupportedConfiguration,
      s!"target {target} is compile-only and `check` was not among the requested stages")
  else none

/-- One target of `plan_targets`, with the targets seen before. -/
def planTarget (facts : ToolchainFacts) (stages : List VerifyStage) (state : List String × Planning)
    (target : String) : List String × Planning :=
  let (seen, planning) := state
  let id := "target-" ++ sanitizeId target
  if looksLikeTriple target = false then
    (seen, planning.skip ⟨id, .unsupportedConfiguration, s!"`{target}` is not a bounded built-in target triple"⟩)
  else if target ∈ seen then state
  else
    match targetRefusal facts stages target with
    | some (status, reason) => (target :: seen, planning.skip ⟨id, status, reason⟩)
    | none =>
      (target :: seen, planning.pushCell (targetCell target) (specId "default" (sanitizeId target) "host" "check"))

def planTargets (required : RequiredConfigurations) (policy : ProjectPolicy) (facts : ToolchainFacts)
    (stages : List VerifyStage) (planning : Planning) : Planning :=
  let planning := ((namedTargets required policy facts).foldl (planTarget facts stages) ([], planning)).2
  if (required.stages.any fun stage => stage ≠ .check) ∧ required.targets ≠ [] then
    planning.skip ⟨"target-non-check-stages", .unsupportedConfiguration,
      "non-host matrix cells are compile-only and currently support check; requested " ++
        "build/test/clippy/doc stages are not executed on the foreign target"⟩
  else planning

/-! ## The declared compiler -/

def compareVersions (left right : String) : Ordering :=
  let parse := fun value : String => (value.toList.splitOn '.').map fun part => (parseU64 part).getD 0
  compare (parse left) (parse right)

/-- `declared_rust_version`; the last of the greatest versions. -/
def declaredRustVersion (snapshot : PlanSnapshot) : Option String :=
  let versions := (snapshot.packages.filter fun package =>
    snapshot.workspaceMembers.contains package.id).filterMap PlanPackage.rustVersion
  versions.foldl (fun greatest version =>
    match greatest with
    | none => some version
    | some other => if compareVersions other version = .gt then some other else some version) none

def validateToolchainName (toolchain : String) : Except String Unit :=
  if toolchain.isEmpty || 96 < toolchain.utf8ByteSize || toolchain.toList.head? == some '-' ||
      !(toolchain.toList.all fun c => c.isAlphanum || c == '_' || c == '-' || c == '.') then
    .error "toolchain must be a bounded rustup toolchain name"
  else if (toolchain.toList.splitOn '-').any fun segment =>
      !segment.isEmpty && segment.all fun c => c == '.' then
    .error "toolchain must be a bounded rustup toolchain name"
  else .ok ()

/-- The cell of the declared compiler, without its identifier. -/
def msrvCell (requested toolchain : String) : PlannedCell where
  id := ""
  packageScope := "workspace"
  features := []
  noDefaultFeatures := false
  targetTriple := none
  toolchain := some toolchain
  msrv := some requested
  stage := .check
  runner := .cargo
  includedBecause :=
    s!"installed MSRV toolchain {toolchain} selected for rust-version {requested}; the gate pins " ++
      "RUSTC/RUSTUP_TOOLCHAIN/PATH (or uses the rustup +toolchain shim) so the selected compiler is " ++
      "actually invoked and bound by the command and environment hashes"
  compileOnly := false

/-- The candidate of `plan_msrv`: none, skipped, or with its toolchain. -/
def msrvCandidate (required : RequiredConfigurations) (policy : ProjectPolicy) (facts : ToolchainFacts)
    (snapshot : PlanSnapshot) : Option (Except SkippedCell (String × String)) :=
  let declared := declaredRustVersion snapshot
  if required.includeMsrv ∨ (required.includePolicy ∧ (policy.msrv.isSome ∨ declared.isSome)) then
    some <|
      match policy.msrv.or declared with
      | none => .error ⟨"msrv", .unsupportedConfiguration,
          "no MSRV was requested and no workspace package declares rust-version"⟩
      | some requested =>
        match facts.toolchainFor requested with
        | none => .error ⟨"msrv", .notInstalled,
            s!"MSRV toolchain matching {requested} is not installed; no download is attempted"⟩
        | some toolchain =>
          if (facts.resolveToolchainCargo toolchain).isNone ∧ facts.rustupShimAvailable = false then
            .error ⟨"msrv", .unsupportedConfiguration,
              s!"MSRV toolchain {toolchain} has no direct cargo and the configured cargo is not a " ++
                "rustup shim; no toolchain download is attempted"⟩
          else
            match validateToolchainName toolchain with
            | .error message => .error ⟨"msrv", .unsupportedConfiguration, message⟩
            | .ok () => .ok (requested, toolchain)
  else none

def planMsrv (required : RequiredConfigurations) (policy : ProjectPolicy) (facts : ToolchainFacts)
    (snapshot : PlanSnapshot) (planning : Planning) : Planning :=
  match msrvCandidate required policy facts snapshot with
  | none => planning
  | some (.error skipped) => planning.skip skipped
  | some (.ok (requested, toolchain)) =>
    planning.pushCell (msrvCell requested toolchain)
      (specId "default" "host" (sanitizeId toolchain) "check")

/-! ## The plan -/

structure PlanInput where
  required : RequiredConfigurations
  policy : ProjectPolicy
  facts : ToolchainFacts
  snapshot : PlanSnapshot
  resolver : String
  warnings : List String

def PlanInput.features (input : PlanInput) : FeatureMap := workspaceFeatures input.snapshot

/-- The stages of the host cells. -/
def PlanInput.stages (input : PlanInput) : List VerifyStage := effectiveStages input.required input.policy

/-- All the candidates of a plan, before the bound on the cells. -/
def PlanInput.planning (input : PlanInput) : Planning :=
  let (sets, skipped) := featureSets input.required input.policy input.features
  planMsrv input.required input.policy input.facts input.snapshot <|
    planTargets input.required input.policy input.facts input.stages <|
      planFeatures input.required input.stages sets ⟨[], skipped, []⟩

/-- A cell past the bound. -/
def budgetSkip (cell : PlannedCell) : SkippedCell :=
  ⟨cell.id, .skippedBudget, "verify.maxCells budget exhausted during planning"⟩

def buildPlan (input : PlanInput) (maxCells : ℕ) : MatrixPlan :=
  let planning := input.planning
  { cells := planning.cells.take maxCells
    skipped := planning.skipped ++ (planning.cells.drop maxCells).map budgetSkip
    policySource := input.policy.source
    resolver := input.resolver
    packageScope := "workspace"
    featureUnification :=
      s!"resolver {input.resolver}; selected features apply with workspace scope and Cargo feature " ++
        "unification decides the effective set"
    warnings := if input.warnings = [] then
      ["verify reads CI workflow files as literal configuration input only and never executes them"]
      else input.warnings }

end AgzRustMcp.Verify
