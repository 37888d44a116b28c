import AgzRustMcp.Verify.TestOutput
import AgzRustMcp.Gate.Targets

/-!
# The scope of a gate run

`prepare` takes the identity of the workspace, chooses the packages, and takes the identity again
when the command is another one then.  `execute_prepared` publishes a verdict only when a last
identity is that of the prepared check.  What a run meets outside are the answers of a `GateRun`.
-/

namespace AgzRustMcp.Gate

/-! ## The workspace -/

abbrev FsPath := List String

/-- `PackageNode`.  Cargo accepts no name that starts with a dash. -/
structure PackageNode where
  packageId : String
  name : String
  root : FsPath
  workspaceMember : Bool
  name_valid : name.toList.head? ≠ some '-' := by decide +kernel
deriving DecidableEq

structure Package where
  id : String
  name : String
  targets : List CargoTarget
deriving DecidableEq

/-- What the gate reads, in the order of the identifiers. -/
structure WorkspaceSnapshot where
  canonicalWorktree : FsPath
  manifestPath : String
  isVirtual : Bool
  packages : List Package
  workspaceMembers : List String
  nodes : List PackageNode
  edges : List (String × String)
  externalPaths : List FsPath
  manifest_absolute : manifestPath.toList.head? = some '/' := by decide +kernel
deriving DecidableEq

/-- The queued packages and their dependents; `fuel` counts turns. -/
def dependentsFrom (edges : List (String × String)) : ℕ → List String → List String → List String
  | 0, affected, _ => affected
  | _, affected, [] => affected
  | fuel + 1, affected, packageId :: queue =>
    let new := ((edges.filter fun edge => edge.2 = packageId).map Prod.fst).dedup.filter
      fun dependent => dependent ∉ affected
    dependentsFrom edges fuel (affected ++ new) (queue ++ new)

/-- `reverse_dependents`, with a turn for every seed and edge. -/
def reverseDependents (edges : List (String × String)) (seeds : List String) : List String :=
  dependentsFrom edges (seeds.length + edges.length) seeds.dedup seeds.dedup

def affectedByPaths (snapshot : WorkspaceSnapshot) (paths : List FsPath) : List String :=
  reverseDependents snapshot.edges
    ((snapshot.nodes.filter fun node => paths.any fun path => node.root.isPrefixOf path).map
      PackageNode.packageId)

def extension? (name : String) : Option String :=
  let reversed := name.toList.reverse
  match reversed.dropWhile (· ≠ '.') with
  | [] => none
  | [_] => none
  | _ :: _ => some (String.ofList (reversed.takeWhile (· ≠ '.')).reverse)

def isGlobalCargoInput (path : FsPath) : Bool :=
  (match path.getLast? with
    | some name => name ∈ ["Cargo.toml", "Cargo.lock", "build.rs", "rust-toolchain", "rust-toolchain.toml"]
    | none => false) ||
  path.any (· = ".cargo") || path.getLast?.bind extension? ≠ some "rs"

/-- `affected_packages`: the names and the identifiers, or why the scope is widened. -/
def affectedPackages (snapshot : WorkspaceSnapshot) (changedPaths : List FsPath) :
    Except String (List String × List String) :=
  if changedPaths = [] then .error "changed set is empty; widened to workspace"
  else if snapshot.externalPaths ≠ [] then
    .error "external path dependencies require workspace scope"
  else if snapshot.packages.any fun package => package.targets.any fun target =>
      target.kind.any (· = .procMacro) then
    .error "procedural macro workspace requires workspace scope"
  else if changedPaths.any isGlobalCargoInput then
    .error "global Cargo input changed; widened to workspace"
  else
    let absolutePaths := changedPaths.map fun path => snapshot.canonicalWorktree ++ path
    if absolutePaths.any fun path => !snapshot.nodes.any fun node =>
        node.workspaceMember && node.root.isPrefixOf path then
      .error "changed path has no workspace package owner; widened to workspace"
    else
      let affected := affectedByPaths snapshot absolutePaths
      let packages := (snapshot.nodes.filter fun node =>
        node.workspaceMember && affected.any (· = node.packageId)).map fun node =>
          (node.name, node.packageId)
      if packages = [] then
        .error "changed set resolved to no workspace package; widened to workspace"
      else .ok (packages.map Prod.fst, packages.map Prod.snd)

lemma affectedPackages_valid {snapshot : WorkspaceSnapshot} {paths : List FsPath}
    {packages packageIds : List String} (h : affectedPackages snapshot paths = .ok (packages, packageIds)) :
    ∀ name ∈ packages, name.toList.head? ≠ some '-' := by
  unfold affectedPackages at h
  dsimp only at h
  split_ifs at h
  obtain ⟨rfl, -⟩ := Prod.mk.inj (Except.ok.inj h)
  intro name hname
  obtain ⟨pair, hpair, rfl⟩ := List.mem_map.mp hname
  obtain ⟨node, -, rfl⟩ := List.mem_map.mp hpair
  exact node.name_valid

/-! ## The scope -/

inductive GateScopeStrategy
  | workspace | affected | shadow | explicit
deriving DecidableEq

structure GateScope where
  strategy : GateScopeStrategy
  packages : List String
  packageIds : List String
  changedPaths : List FsPath
  widenedBecause : List String
deriving DecidableEq

/-- `GateScope::workspace`. -/
def GateScope.ofWorkspace (changedPaths : List FsPath) (reason : String) : GateScope :=
  ⟨.workspace, [], [], changedPaths, [reason]⟩

inductive ConfigGateScope
  | workspace | shadow | affected
deriving DecidableEq

structure CheckScope where
  evidence : GateScope
  args : List String
deriving DecidableEq

/-- The arguments that select packages. -/
def packageArgs (packages : List String) : List String :=
  packages.flatMap fun package => ["-p", package]

def checkScope (snapshot : WorkspaceSnapshot) (target : GateTargetId) (configured : ConfigGateScope)
    (changedPaths : List FsPath) : CheckScope :=
  if target = .all ∨ target = .fmt then
    ⟨.ofWorkspace changedPaths "full validation and formatting use workspace scope", []⟩
  else
    match configured with
    | .workspace => ⟨.ofWorkspace changedPaths "configured workspace scope", ["--workspace"]⟩
    | .shadow =>
      match affectedPackages snapshot changedPaths with
      | .ok (packages, packageIds) =>
        ⟨⟨.shadow, packages, packageIds, changedPaths, []⟩, ["--workspace"]⟩
      | .error reason => ⟨⟨.shadow, [], [], changedPaths, [reason]⟩, ["--workspace"]⟩
    | .affected =>
      match affectedPackages snapshot changedPaths with
      | .ok (packages, packageIds) =>
        ⟨⟨.affected, packages, packageIds, changedPaths, []⟩, packageArgs packages⟩
      | .error reason => ⟨.ofWorkspace changedPaths reason, ["--workspace"]⟩

def CargoTargetSelection.matches (selected : CargoTargetSelection) (target : CargoTarget) : Bool :=
  match selected with
  | .lib => target.kind.any fun kind =>
      kind ∈ [.lib, .rlib, .dylib, .cdylib, .staticlib, .procMacro]
  | .bin name => name = target.name && target.kind.any (· = .bin)
  | .test name => name = target.name && target.kind.any (· = .test)
  | .example name => name = target.name && target.kind.any (· = .example)
  | .bench name => name = target.name && target.kind.any (· = .bench)

/-- The loop of `resolve` over the requested names. -/
def resolveNames (snapshot : WorkspaceSnapshot) (cargoTarget : Option CargoTargetSelection) :
    List String → Except String (List String)
  | [] => .ok []
  | name :: names =>
    match snapshot.packages.find? fun package =>
        package.name = name && snapshot.workspaceMembers.any (· = package.id) with
    | none => .error ("requested package " ++ name ++ " is not a workspace member")
    | some package =>
      if cargoTarget.any fun target => !package.targets.any target.matches then
        .error ("requested Cargo target does not exist in workspace package " ++ name)
      else (resolveNames snapshot cargoTarget names).map (package.id :: ·)

def resolve (snapshot : WorkspaceSnapshot) (options : ValidationOptions) : Except String (Option CheckScope) :=
  if options.packages = [] then .ok none
  else
    let packages := options.packages.dedup.insertionSort (· ≤ ·)
    (resolveNames snapshot options.cargoTarget packages).map fun packageIds =>
      some ⟨⟨.explicit, packages, packageIds, [], []⟩, packageArgs packages⟩

/-! ## Identities -/

/-- What an identity finds in the workspace. -/
structure SourceState where
  sourceHash : String
  changedPaths : List FsPath
  complete : Bool
deriving DecidableEq

structure InputIdentity where
  hash : String
  sourceHash : String
  commandHash : String
  environmentHash : String
  changedPaths : List FsPath
  complete : Bool
deriving DecidableEq

/-- A field of `IdentityHasher`, with its length in front. -/
def hasherField (value : String) : ByteArray :=
  ⟨((List.range 8).map fun i => (value.utf8ByteSize >>> (8 * i)).toUInt8).toArray⟩ ++ value.toUTF8

/-- `IdentityHasher`, on fields of text. -/
def identityHash (sha : ByteArray → String) (fields : List String) : String :=
  sha (fields.foldl (fun bytes field => bytes ++ hasherField field) .empty)

/-- The variables of an environment with their values. -/
def environmentFields (environment : List (String × String)) : List String :=
  environment.flatMap fun (key, value) => [key, value]

def hashCommand (sha : ByteArray → String) (cargo : String) (command : List String)
    (environment : List (String × String)) : String :=
  identityHash sha ("agz-rust-mcp-command" :: cargo :: command ++ environmentFields environment)

def hashEnvironment (sha : ByteArray → String) (environment : List (String × String)) : String :=
  identityHash sha ("agz-rust-mcp-environment" :: environmentFields environment)

/-- `identity_for`, when it finds the given state of the sources. -/
def identityFor (sha : ByteArray → String) (cargo : String) (command : List String)
    (environment : List (String × String)) (source : SourceState) : InputIdentity :=
  let commandHash := hashCommand sha cargo command environment
  let environmentHash := hashEnvironment sha environment
  { hash := identityHash sha
      ["agz-rust-mcp-input-identity-v2", source.sourceHash, commandHash, environmentHash]
    sourceHash := source.sourceHash
    commandHash := commandHash
    environmentHash := environmentHash
    changedPaths := source.changedPaths
    complete := source.complete }

/-! ## Preparing and running -/

/-- A status that is no verdict, with its message. -/
structure Refusal where
  status : GateStatus
  message : String
  isRefusal : status.isVerdict = false := by decide

/-- `CargoBuildTelemetry`, as far as a profile reads it. -/
structure CargoBuildTelemetry where
  totalUnits : ℕ
  freshUnits : ℕ
  rebuiltUnits : ℕ
  isPartial : Bool
deriving DecidableEq

/-- `GateStepResult`, as far as the verdict, a profile and a test run depend on it. -/
structure GateStepResult where
  target : GateTargetId
  exitCode : ℤ
  timedOut : Bool
  cancelled : Bool
  durationMs : ℕ
  drainComplete : Bool
  cleanupComplete : Bool
  output : Verify.TestStep
  build : Option CargoBuildTelemetry
deriving DecidableEq

/-- Why the last identity could not be taken. -/
inductive IdentityError
  | cancelled | timedOut | failed
deriving DecidableEq

/-- A run of the gate.  `refused` is a refusal before the sources are looked at, `interrupted` one
before the end of the commands; `answers` are their results. -/
structure GateRun where
  request : GateRequest
  snapshot : WorkspaceSnapshot
  configured : ConfigGateScope
  cargo : String
  toolchain : Option String
  environment : List (String × String)
  refused : Option Refusal
  first : Except Refusal SourceState
  second : Except Refusal SourceState
  interrupted : Option Refusal
  answers : ℕ → Option GateStepResult
  sccacheClosed : Bool
  last : Except IdentityError SourceState

structure PreparedCheck where
  targets : List GateTarget
  identity : InputIdentity
  scope : GateScope

/-- The arguments of all targets. -/
def commandOf (targets : List GateTarget) : List String := targets.flatMap GateTarget.args

def hasDoctestableTarget (snapshot : WorkspaceSnapshot) : Bool :=
  snapshot.packages.any fun package => snapshot.workspaceMembers.any (· = package.id) &&
    package.targets.any fun target =>
      target.doctest && target.kind.any fun kind => kind ∈ [.lib, .rlib, .procMacro]

/-- `targets_for`, with the options and the toolchain of the request. -/
def GateRun.targets (run : GateRun) (scopeArgs : List String) : List GateTarget :=
  let target := fun id full => targetFor id run.snapshot.manifestPath run.snapshot.isVirtual full
    run.request.timings scopeArgs
  let targets := if run.request.target = .all then
      (fullOrder.filter fun id => id ≠ .doc || hasDoctestableTarget run.snapshot).filterMap
        fun id => target id true
    else (target run.request.target false).toList
  targets.map fun target => applyToolchain run.toolchain (run.request.applyOptions target)

/-- The identity of the workspace in the given state. -/
def GateRun.identity (run : GateRun) (sha : ByteArray → String) (targets : List GateTarget)
    (source : SourceState) : InputIdentity :=
  identityFor sha run.cargo (commandOf targets) run.environment source

/-- The scope arguments that `prepare` starts with. -/
def GateRun.initialArgs (run : GateRun) (explicitScope : Option CheckScope) : List String :=
  match explicitScope with
  | some scope => scope.args
  | none => if run.request.target = .all ∨ run.request.target = .fmt then [] else ["--workspace"]

/-- The scope that `prepare` chooses when it has found the given paths changed. -/
def GateRun.chosenScope (run : GateRun) (explicitScope : Option CheckScope)
    (changedPaths : List FsPath) : CheckScope :=
  let scope := explicitScope.getD
    (checkScope run.snapshot run.request.target run.configured changedPaths)
  if run.request.options.packages = [] ∧ run.request.options.hasBuildSelection ∧
      run.initialArgs explicitScope ≠ [] then
    ⟨.ofWorkspace changedPaths "explicit feature/platform selection requires workspace scope",
      ["--workspace"]⟩
  else { scope with evidence := { scope.evidence with changedPaths := changedPaths } }

def GateRun.prepare (run : GateRun) (sha : ByteArray → String) : Except Refusal PreparedCheck :=
  match run.refused with
  | some refusal => .error refusal
  | none =>
    match resolve run.snapshot run.request.options with
    | .error reason => .error ⟨.inconclusive, reason, rfl⟩
    | .ok explicitScope =>
      let initialArgs := run.initialArgs explicitScope
      if run.targets initialArgs = [] then
        .error ⟨.inconclusive, "no applicable Cargo target was selected", rfl⟩
      else
        match run.first with
        | .error refusal => .error refusal
        | .ok first =>
          let scope := run.chosenScope explicitScope first.changedPaths
          if initialArgs ≠ [] ∧ scope.args ≠ initialArgs then
            let targets := run.targets scope.args
            match run.second with
            | .error refusal => .error refusal
            | .ok second =>
              .ok ⟨targets, run.identity sha targets second,
                { scope.evidence with changedPaths := second.changedPaths }⟩
          else
            let targets := run.targets initialArgs
            .ok ⟨targets, run.identity sha targets first, scope.evidence⟩

/-- The status after a step, when the steps before it passed. -/
def stepStatus (request : GateRequest) (step : GateStepResult) : GateStatus :=
  if step.cancelled then .cancelled
  else if step.timedOut then .timeout
  else if step.drainComplete = false ∨ step.cleanupComplete = false then .unavailable
  else if step.exitCode ≠ 0 ∨ step.output.stats.buildSuccess = some false then .fail
  else if step.target = .test ∧ request.options.runner = .cargo ∧
      (request.options.testFilter.isSome ∨ request.options.packages ≠ []) ∧
      step.output.stats.testsExecuted.getD 0 = 0 then .inconclusive
  else .fastPass

/-- The loop of `execute_prepared`, up to the first failure. -/
def executeTargets (request : GateRequest) (answers : ℕ → Option GateStepResult) :
    ℕ → List GateTarget → GateStatus × List GateStepResult
  | _, [] => (.fastPass, [])
  | index, target :: targets =>
    match answers index with
    | none => (.cancelled, [])
    | some answer =>
      let step := { answer with target := target.id }
      let status := stepStatus request step
      if status ≠ .fastPass then (status, [step])
      else
        let rest := executeTargets request answers (index + 1) targets
        (rest.1, step :: rest.2)

/-- The status after the Cargo commands, once the compiler cache is closed. -/
def GateRun.executed (run : GateRun) (prepared : PreparedCheck) : GateStatus :=
  if run.request.options.sccache ∧ run.sccacheClosed = false then .unavailable
  else (executeTargets run.request run.answers 0 prepared.targets).1

/-- A verdict is kept when the last identity is that of the prepared check. -/
def GateRun.checked (run : GateRun) (sha : ByteArray → String) (prepared : PreparedCheck)
    (status : GateStatus) : GateStatus :=
  if status = .fastPass ∨ status = .fail then
    match run.last with
    | .error .cancelled => .cancelled
    | .error .timedOut => .timeout
    | .error .failed => .unavailable
    | .ok last =>
      let identity := run.identity sha prepared.targets last
      if identity.complete = false ∨ identity.hash ≠ prepared.identity.hash then .stale else status
  else status

def GateRun.verdict (run : GateRun) (sha : ByteArray → String) (prepared : PreparedCheck) : GateStatus :=
  let status := run.checked sha prepared (run.executed prepared)
  if status = .fastPass ∧ run.request.target = .all then .fullPass else status

/-- `GateEvidence`, as far as the scope, the identity and the steps of a run go. -/
structure GateEvidence where
  status : GateStatus
  scope : GateScope
  inputHash : String
  commandHash : String
  environmentHash : String
  steps : List GateStepResult
  message : String

def terminalEvidence (refusal : Refusal) : GateEvidence where
  status := refusal.status
  scope := ⟨.workspace, [], [], [], ["preflight is still running"]⟩
  inputHash := "pending"
  commandHash := "pending"
  environmentHash := "pending"
  steps := []
  message := refusal.message

/-- `execute_prepared`. -/
def GateRun.execute (run : GateRun) (sha : ByteArray → String) (prepared : PreparedCheck) : GateEvidence :=
  let steps := (executeTargets run.request run.answers 0 prepared.targets).2
  { status := run.verdict sha prepared
    scope := prepared.scope
    inputHash := prepared.identity.hash
    commandHash := prepared.identity.commandHash
    environmentHash := prepared.identity.environmentHash
    steps := steps
    message := toString steps.length ++ " of " ++ toString prepared.targets.length ++ " target(s) completed" }

/-- `run` of the check service. -/
def GateRun.evidence (run : GateRun) (sha : ByteArray → String) : GateEvidence :=
  match run.prepare sha with
  | .error refusal => terminalEvidence refusal
  | .ok prepared =>
    if prepared.identity.complete = false then
      terminalEvidence
        ⟨.inconclusive, "input identity is incomplete; no Cargo process was started", rfl⟩
    else
      match run.interrupted with
      | some refusal => terminalEvidence refusal
      | none => run.execute sha prepared

end AgzRustMcp.Gate
