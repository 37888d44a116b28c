import AgzRustMcp.Gate.Validation
import AgzRustMcp.Verify.MatrixPlan
import AgzRustMcp.Workspace.Graph

/-!
# The test plan

`build_test_plan` narrows the tests of a workspace to the packages that own a changed path, to those
that depend on them, and to those that a mapping names; a path that it cannot narrow widens the plan
to all members.  The end of the function, from the inventory on, is `buildTestPlan`.
-/

namespace AgzRustMcp.Verify

open Gate (FsPath CargoTarget TargetKind CargoTargetSelection ValidationOptions)
open Workspace (Metadata MetadataPackage)

/-! ## What a plan is made from -/

structure TestMapping where
  path : Option String := none
  package : Option String := none
  target : Option String := none
  testName : Option String := none
  deriving DecidableEq

/-- What `resolve_changed_set` finds of the change that a request names. -/
inductive ChangeLookup
  | unnamed
  | disabled
  | unreadable (error : String)
  | missing
  | found (changedFiles : List String)
  deriving DecidableEq

/-- `VerifyRequest`, as far as a plan depends on it, with what is found of its change. -/
structure TestRequest (isAlphanumeric : Char → Bool) where
  change : ChangeLookup
  recordFiles : List String
  changedPaths : List String
  semanticReferences : List String
  testConfiguration : ValidationOptions
  testMappings : List TestMapping
  configuration_valid : testConfiguration.validate isAlphanumeric .test = .ok ()

/-- What a test plan reads of a `WorkspaceSnapshot`. -/
structure TestSnapshot where
  metadata : Metadata
  canonicalWorktree : FsPath
  manifestPath : String
  isVirtual : Bool
  externalPaths : List FsPath
  manifest_absolute : manifestPath.toList.head? = some '/'
  names_unique : ∀ left ∈ metadata.packages, ∀ right ∈ metadata.packages,
    left.id ∈ metadata.workspaceMembers → right.id ∈ metadata.workspaceMembers →
      left.name = right.name → left.id = right.id

def TestSnapshot.view (snapshot : TestSnapshot) : Gate.WorkspaceSnapshot :=
  Workspace.snapshotOf snapshot.metadata snapshot.canonicalWorktree snapshot.manifestPath snapshot.isVirtual
    snapshot.externalPaths snapshot.manifest_absolute

def TestSnapshot.graph (snapshot : TestSnapshot) : Workspace.PackageGraph :=
  Workspace.buildPackageGraph snapshot.metadata

def TestSnapshot.isMember (snapshot : TestSnapshot) (package : MetadataPackage) : Bool :=
  snapshot.metadata.workspaceMembers.contains package.id

/-- The workspace members, in the order of the metadata. -/
def TestSnapshot.members (snapshot : TestSnapshot) : List MetadataPackage :=
  snapshot.metadata.packages.filter fun package => snapshot.isMember package

variable {isAlphanumeric : Char → Bool}

/-! ## The changed set -/

/-- The changed paths, and why the plan is widened. -/
structure ChangedSet where
  paths : List FsPath
  widenedBecause : List String
  deriving DecidableEq

def normalNames (path : List Component) : List String :=
  path.filterMap fun
    | .normal name => some name
    | _ => none

/-- The path that a text names below the worktree, or why it names none. -/
def boundedPath (root : FsPath) (raw : String) : Except String FsPath :=
  let trimmed := trim raw.toList
  if trimmed = [] then .error "an empty changed path was ignored"
  else if isAbsolute trimmed ∨ .parentDir ∈ components trimmed then
    .error s!"changed path `{String.ofList trimmed}` is not a bounded workspace-relative path"
  else .ok (root ++ normalNames (components trimmed))

def pushChangedPath (root : FsPath) (set : ChangedSet) (raw : String) : ChangedSet :=
  match boundedPath root raw with
  | .error reason => { set with widenedBecause := set.widenedBecause ++ [reason] }
  | .ok path => { set with paths := set.paths ++ [path] }

/-- Why a change widens the plan. -/
def changeReasons : ChangeLookup → List String
  | .unnamed => []
  | .disabled => ["changeId was supplied but the change tool is disabled; widened to workspace"]
  | .unreadable error => [s!"the change record could not be read ({error}); widened to workspace"]
  | .missing => ["the change id has no server-owned record; the changed set is unknown and " ++
      "was widened to workspace"]
  | .found [] => ["the change record has no staged files; widened to workspace"]
  | .found _ => []

/-- The changed or requested files, and those of the references. -/
def rawChangedPaths (request : TestRequest isAlphanumeric) : List String :=
  (match request.change with
    | .found (file :: files) => file :: files
    | _ => request.changedPaths) ++ request.semanticReferences

def resolveChangedSet (root : FsPath) (request : TestRequest isAlphanumeric) : ChangedSet :=
  let set := (rawChangedPaths request).foldl (pushChangedPath root) ⟨[], changeReasons request.change⟩
  { set with paths := set.paths.dedup.insertionSort (· ≤ ·) }

/-- `as_os_str().len()` of a path. -/
def pathLength (path : FsPath) : ℕ := (path.map fun name => name.utf8ByteSize + 1).sum

/-- `owner_node`; `max_by_key` takes the last of the greatest. -/
def ownerNode (snapshot : TestSnapshot) (absolute : FsPath) : Option Workspace.PackageNode :=
  let owners := (snapshot.graph.nodes.toList.map Prod.snd).filter fun node =>
    node.workspaceMember && node.root.isPrefixOf absolute
  owners.foldl (fun best node =>
    if best.any fun found => pathLength node.root < pathLength found.root then best else some node) none

def globalCargoInput (path : FsPath) : Option String :=
  match path.getLast? with
  | some "Cargo.toml" => some "a Cargo manifest"
  | some "Cargo.lock" => some "the lockfile"
  | some "build.rs" => some "a build script"
  | some "rust-toolchain" => some "the toolchain file"
  | some "rust-toolchain.toml" => some "the toolchain file"
  | _ => if ".cargo" ∈ path then some "Cargo configuration" else none

def packageHasProcMacro (package : MetadataPackage) : Bool :=
  package.targets.any fun target => target.kind.contains .procMacro

def libRootTarget (package : MetadataPackage) (absolute : FsPath) : Bool :=
  package.targets.any fun target =>
    (target.kind.any fun kind => kind ∈ [TargetKind.lib, .rlib, .dylib, .cdylib, .staticlib]) &&
      target.srcPath == absolute

def displayRelative (path : FsPath) (snapshot : TestSnapshot) : String :=
  if snapshot.canonicalWorktree.isPrefixOf path then
    String.intercalate "/" (path.drop snapshot.canonicalWorktree.length)
  else "/" ++ String.intercalate "/" path

/-- The package that a changed path is narrowed to, or why the plan is widened. -/
def narrowPath (snapshot : TestSnapshot) (path : FsPath) : Except String String :=
  let shown := displayRelative path snapshot
  match globalCargoInput path with
  | some input => .error s!"{input} changed ({shown}); a narrow test plan cannot be trusted"
  | none =>
    match ownerNode snapshot path with
    | none => .error s!"changed path {shown} has no owning workspace package"
    | some node =>
      match snapshot.metadata.packages.find? fun package => package.id == node.packageId with
      | none => .error s!"changed path {shown} belongs to package {node.name} that is missing from metadata"
      | some package =>
        if packageHasProcMacro package then
          .error (s!"procedural macro package {node.name} changed; macro expansion affects consumers and " ++
            "cannot be covered by a narrow plan")
        else if libRootTarget package path then
          .error s!"library root file {shown} changed; public API impact cannot be excluded"
        else .ok node.packageId

def validTestName (name : String) : Bool :=
  !name.isEmpty && name.utf8ByteSize ≤ 256 && name.toList.head? != some '-' && !name.toList.any Gate.isControl

def namedPackage (snapshot : TestSnapshot) (mapping : TestMapping) : Except String (Option MetadataPackage) :=
  match mapping.package with
  | none => .ok none
  | some name =>
    match snapshot.metadata.packages.find? fun package =>
        package.name == name && snapshot.isMember package with
    | none => .error s!"mapped package `{name}` is not a workspace member"
    | some package => .ok (some package)

def pathPackage (snapshot : TestSnapshot) (mapping : TestMapping) : Except String (Option MetadataPackage) :=
  match mapping.path with
  | none => .ok none
  | some path =>
    let parts := components path.toList
    if isAbsolute path.toList ∨ .parentDir ∈ parts then
      .error "mapping path must be workspace-relative without parent traversal"
    else
      match ownerNode snapshot (snapshot.canonicalWorktree ++ normalNames parts) with
      | none => .error "mapping path has no owning workspace package"
      | some node =>
        match snapshot.metadata.packages.find? fun package => package.id == node.packageId with
        | none => .error "mapping path owner is absent from Cargo metadata"
        | some package => .ok (some package)

def resolveMappingPackage (snapshot : TestSnapshot) (mapping : TestMapping) :
    Except String (Option MetadataPackage) :=
  if mapping.testName.any fun name => !validTestName name then
    .error "explicit mapping testName is not a bounded test name"
  else
    match namedPackage snapshot mapping, pathPackage snapshot mapping with
    | .error reason, _ => .error reason
    | .ok _, .error reason => .error reason
    | .ok named, .ok byPath =>
      if named.any fun left => byPath.any fun right => left.id != right.id then
        .error "mapping package and path have conflicting owners"
      else .ok (named.or byPath)

/-- The owners of the mappings, or the first that is refused. -/
def resolveMappings (snapshot : TestSnapshot) :
    List (TestMapping × ℕ) → Except SkippedCell (List (Option MetadataPackage))
  | [] => .ok []
  | (mapping, index) :: mappings =>
    match resolveMappingPackage snapshot mapping with
    | .error reason => .error ⟨s!"mapping-{index + 1}", .unsupportedConfiguration, reason⟩
    | .ok owner => (resolveMappings snapshot mappings).map (owner :: ·)

/-! ## Scopes -/

/-- What the plan is narrowed to, and why it is widened. -/
structure PlanScope where
  widenedBecause : List String
  changed : List String
  dependents : Finset String
  mapped : List String

def PlanScope.widened (scope : PlanScope) : Bool := !scope.widenedBecause.isEmpty

/-- Why the changed paths widen the plan. -/
def wideningReasons (snapshot : TestSnapshot) (request : TestRequest isAlphanumeric) : List String :=
  let set := resolveChangedSet snapshot.canonicalWorktree request
  set.widenedBecause ++ (set.paths.filterMap fun path => match narrowPath snapshot path with
      | .error reason => some reason
      | .ok _ => none) ++
    if snapshot.externalPaths.isEmpty then []
    else ["external path dependencies require workspace scope"]

/-- The packages that the changed paths are narrowed to. -/
def changedPackages (snapshot : TestSnapshot) (request : TestRequest isAlphanumeric) : List String :=
  ((resolveChangedSet snapshot.canonicalWorktree request).paths.filterMap fun path =>
    (narrowPath snapshot path).toOption).dedup.insertionSort (· ≤ ·)

/-- The scope of a plan, from the owners of the mappings. -/
def planScope (snapshot : TestSnapshot) (request : TestRequest isAlphanumeric)
    (owners : List (Option MetadataPackage)) : PlanScope :=
  let changed := changedPackages snapshot request
  let mapped := (owners.filterMap fun owner => owner.map MetadataPackage.id)
  let reasons := wideningReasons snapshot request ++
    if changed = [] ∧ mapped = [] ∧ request.testMappings.all fun mapping => mapping.testName.isNone then
      ["no changed set, mapping, or reference was provided; the plan conservatively " ++ "covers the workspace"]
    else []
  { widenedBecause := reasons.dedup.insertionSort (· ≤ ·)
    changed
    dependents := ((snapshot.graph.reverseDependents changed).getD ∅) \ changed.toFinset
    mapped }

/-- The members whose targets are planned. -/
def PlanScope.includes (scope : PlanScope) (snapshot : TestSnapshot) (request : TestRequest isAlphanumeric)
    (package : MetadataPackage) : Bool :=
  scope.changed.contains package.id || decide (package.id ∈ scope.dependents) || scope.mapped.contains package.id ||
    (snapshot.metadata.packages.any fun named =>
      request.testConfiguration.packages.contains named.name && named.id == package.id) ||
    (scope.widened && snapshot.isMember package)

/-- `PackagePlanContext`, with the options of the request. -/
structure PackagePlanContext where
  options : ValidationOptions
  packageScope : String
  rankBase : ℕ
  reasonPrefix : String

def PlanScope.context (scope : PlanScope) (options : ValidationOptions) (package : MetadataPackage) :
    PackagePlanContext :=
  if scope.mapped.contains package.id && !scope.changed.contains package.id then
    ⟨options, "mapping", 0, s!"explicit user mapping selects package {package.name}"⟩
  else if scope.changed.contains package.id then
    ⟨options, "changed", 1,
      s!"directly changed package {package.name} (changed paths resolved through the package graph)"⟩
  else if package.id ∈ scope.dependents then
    ⟨options, "consumer", 4, s!"reverse dependency consumer {package.name} depends on a changed package"⟩
  else
    ⟨options, "workspace", 7, s!"workspace-wide conservative widening includes package {package.name}"⟩

/-! ## Items -/

/-- A `TestPlanItem` with what the plan says about it. -/
structure PlannedItem extends TestPlanItem where
  rank : ℕ
  scope : String
  package : String
  packageId : String
  target : String
  featureGated : Bool
  reason : String
  deriving DecidableEq

def isTestBearingKind (kind : TargetKind) : Bool :=
  kind ∈ [.lib, .rlib, .bin, .test, .procMacro, .dylib, .cdylib, .staticlib, .example, .bench]

def isTestBearingKindTarget (target : CargoTarget) : Bool := target.kind.any isTestBearingKind

def kindName? : TargetKind → Option String
  | .lib => some "lib"
  | .rlib => some "rlib"
  | .dylib => some "dylib"
  | .cdylib => some "cdylib"
  | .staticlib => some "staticlib"
  | .bin => some "bin"
  | .test => some "test"
  | .procMacro => some "proc-macro"
  | .bench => some "bench"
  | .example => some "example"
  | .customBuild | .other => none

def targetKindName (target : CargoTarget) : String := (target.kind.findSome? kindName?).getD "unknown"

def targetSupportsDoctests (target : CargoTarget) : Bool :=
  target.doctest && target.kind.any fun kind => kind ∈ [TargetKind.lib, .rlib, .procMacro]

def cargoTestTarget (kind name : String) : Option CargoTargetSelection :=
  match kind with
  | "lib" | "rlib" | "proc-macro" | "dylib" | "cdylib" | "staticlib" => some .lib
  | "bin" => some (.bin name)
  | "test" => some (.test name)
  | "example" => some (.example name)
  | "bench" => some (.bench name)
  | _ => none

def debugNames (names : List String) : String :=
  "[" ++ String.intercalate ", " (names.map String.quote) ++ "]"

def packageTargetItem (package : MetadataPackage) (target : CargoTarget) (context : PackagePlanContext)
    (compileOnly : Bool) : PlannedItem :=
  let kind := targetKindName target
  let purpose := if compileOnly then "compiles the ordinary example without executing tests"
    else "executes this target's tests"
  { id := ""
    rank := context.rankBase
    scope := if compileOnly then "compile" else context.packageScope
    package := package.name
    packageId := package.id
    target := target.name
    targetKind := kind
    filter := if compileOnly then none else context.options.testFilter
    exactTest := none
    features := if context.options.allFeatures then [] else context.options.features
    packages := [package.name]
    cargoTarget := cargoTestTarget kind target.name
    compileOnly
    cargoSuiteDoctests := none
    noDefaultFeatures := context.options.noDefaultFeatures
    featureGated := !target.requiredFeatures.isEmpty
    runner := if compileOnly then .cargo else context.options.runner
    reason := s!"{context.reasonPrefix}: {kind} target `{target.name}` {purpose}; required features: " ++
      debugNames target.requiredFeatures }

def doctestItem (target : CargoTarget) (context : PackagePlanContext) (item : PlannedItem) : PlannedItem :=
  { item with
    rank := item.rank + 2
    scope := "doctest"
    targetKind := "doctest"
    cargoTarget := none
    filter := none
    compileOnly := false
    runner := .cargo
    reason := s!"{context.reasonPrefix}: doctests for `{target.name}` are a separate Cargo scope; " ++
      "nextest never replaces this gate" }

def isTested (target : CargoTarget) (options : ValidationOptions) : Bool :=
  target.test || options.cargoTarget.any fun selected => selected.matches target

def isCompileOnly (target : CargoTarget) (options : ValidationOptions) : Bool :=
  targetKindName target == "example" && !isTested target options && options.testFilter.isNone &&
    options.cargoTarget.isNone

def targetItems (package : MetadataPackage) (context : PackagePlanContext) (target : CargoTarget) :
    List PlannedItem :=
  if isTestBearingKindTarget target then
    let compileOnly := isCompileOnly target context.options
    let item := packageTargetItem package target context compileOnly
    (if isTested target context.options || compileOnly then [item] else []) ++
      if targetSupportsDoctests target && context.options.testFilter.isNone then
        [doctestItem target context item]
      else []
  else []

def targetSkipped (package : MetadataPackage) (options : ValidationOptions) (target : CargoTarget) :
    List SkippedCell :=
  if isTestBearingKindTarget target then
    if targetSupportsDoctests target && options.testFilter.isSome then
      [⟨sanitizeId package.name ++ "--doctest--" ++ sanitizeId target.name, .unsupportedConfiguration,
        "testFilter selects ordinary tests; the separate unfiltered doctest scope is not part of this subset"⟩]
    else []
  else if (target.test || target.doctest) && !target.kind.contains .customBuild then
    [⟨sanitizeId package.name ++ "--unsupported--" ++ sanitizeId target.name, .unsupportedConfiguration,
      s!"target {target.name} has an unsupported test target kind"⟩]
  else []

/-- The text that the identifier of an item is made from. -/
def itemSource (item : PlannedItem) : String :=
  s!"{item.package}--{item.targetKind}--{item.target}--" ++ item.filter.getD "suite"

/-- The items of the packages in a scope, with the texts for their identifiers. -/
def packageItems (snapshot : TestSnapshot) (request : TestRequest isAlphanumeric) (scope : PlanScope) :
    List (PlannedItem × String) :=
  (snapshot.members.filter fun package => scope.includes snapshot request package).flatMap fun package =>
    (package.targets.flatMap (targetItems package (scope.context request.testConfiguration package))).map
      fun item => (item, itemSource item)

def packageSkipped (snapshot : TestSnapshot) (request : TestRequest isAlphanumeric) (scope : PlanScope) :
    List SkippedCell :=
  (snapshot.members.filter fun package => scope.includes snapshot request package).flatMap fun package =>
    package.targets.flatMap (targetSkipped package request.testConfiguration)

/-- The item of a mapping to an exact test, with the text for its identifier. -/
def mappingItem (options : ValidationOptions) (mapping : TestMapping) (owner : Option MetadataPackage)
    (index : ℕ) (testName : String) : PlannedItem × String :=
  let target := mapping.target.getD "mapped-test"
  let doctest := target == "doctest"
  let item : PlannedItem :=
    { id := ""
      rank := 0
      scope := "mapping"
      package := (owner.map MetadataPackage.name).getD "workspace"
      packageId := (owner.map MetadataPackage.id).getD ""
      packages := (owner.map MetadataPackage.name).toList
      cargoTarget := none
      compileOnly := false
      cargoSuiteDoctests := none
      target
      targetKind := if doctest then "doctest" else "test"
      filter := if doctest then none else some testName
      exactTest := some testName
      features := options.features
      noDefaultFeatures := options.noDefaultFeatures
      featureGated := false
      runner := if doctest then .cargo else options.runner
      reason := s!"explicit user mapping requires exact test `{testName}`" ++
        match mapping.package with
        | none => ""
        | some name => s!" in package {name}" }
  (item, s!"mapping-{index + 1}-{testName}")

/-- The items of the mappings to exact tests. -/
def mappingItems (request : TestRequest isAlphanumeric) (owners : List (Option MetadataPackage)) :
    List (PlannedItem × String) :=
  (request.testMappings.zip owners).zipIdx.filterMap fun ((mapping, owner), index) =>
    mapping.testName.map fun testName =>
      mappingItem request.testConfiguration mapping owner index testName

/-- Items are given identifiers by `unique_id`. -/
def nameItems : List String → List (PlannedItem × String) → List PlannedItem
  | _, [] => []
  | used, (item, source) :: items =>
    let id := uniqueId used source
    { item with id } :: nameItems (id :: used) items

/-- The items of a plan, before they are bound. -/
def draftItems (snapshot : TestSnapshot) (request : TestRequest isAlphanumeric) (scope : PlanScope)
    (owners : List (Option MetadataPackage)) : List PlannedItem :=
  nameItems [] (packageItems snapshot request scope ++ mappingItems request owners)

/-! ## Binding to targets -/

def isNamedTarget (name : String) (target : CargoTarget) : Bool :=
  target.name == name || (name == "lib" &&
      targetKindName target ∈ ["lib", "rlib", "proc-macro", "dylib", "cdylib", "staticlib"])

/-- The targets that an item of a mapping can be bound to, with their packages. -/
def mappedTargets (snapshot : TestSnapshot) (options : ValidationOptions) (packageIds : List String)
    (item : PlannedItem) : List (MetadataPackage × CargoTarget) :=
  (snapshot.metadata.packages.filter fun package =>
      packageIds.contains package.id && (item.packageId == "" || item.packageId == package.id)).flatMap
    fun package => (package.targets.filter fun target => isNamedTarget item.target target &&
      options.cargoTarget.all fun selected => selected.matches target).map fun target => (package, target)

/-- An item of a mapping is bound to the only kind of target that the mapping names. -/
def bindTarget (snapshot : TestSnapshot) (isAlphanumeric : Char → Bool) (options : ValidationOptions)
    (packageIds : List String) (item : PlannedItem) : Except String PlannedItem :=
  let targets := mappedTargets snapshot options packageIds item
  if options.cargoTarget.isSome ∧ targets = [] then
    .error "a mapped test target conflicts with configuration.cargoTarget"
  else
    match (targets.map fun found => targetKindName found.2).dedup with
    | [kind] =>
      let cargoTarget := cargoTestTarget kind item.target
      if cargoTarget = none then .error "mapped target is not a supported Cargo test target"
      else if options.cargoTarget.any fun selected => cargoTarget ≠ some selected then
        .error "a mapped test target conflicts with configuration.cargoTarget"
      else
        let packages := (targets.map fun found => found.1.name).dedup.insertionSort (· ≤ ·)
        match ({ options with packages, cargoTarget } : ValidationOptions).validate isAlphanumeric .test with
        | .error reason => .error reason
        | .ok () => .ok { item with targetKind := kind, cargoTarget, packages }
    | _ => .error "a mapped target is unknown or ambiguous inside the selected packages"

def bindItem (snapshot : TestSnapshot) (isAlphanumeric : Char → Bool) (options : ValidationOptions)
    (selection : Gate.GateScope) (item : PlannedItem) (mapping : TestMapping) : Except String PlannedItem :=
  let explicit := options.packages ≠ [] ∨ options.cargoTarget.isSome
  if options.testFilter.isSome then
    .error "testFilter and exact test mappings cannot be combined; choose one filter source"
  else
    let item := if item.packages = [] ∧ explicit then { item with packages := selection.packages } else item
    if mapping.target = none then .ok { item with cargoTarget := options.cargoTarget }
    else if item.targetKind = "doctest" then
      if options.cargoTarget.isSome then
        .error "a mapped doctest conflicts with configuration.cargoTarget"
      else .ok item
    else bindTarget snapshot isAlphanumeric options selection.packageIds item

/-- The loop of `bind_test_selection`, mapping by mapping. -/
def bindItems (snapshot : TestSnapshot) (isAlphanumeric : Char → Bool) (options : ValidationOptions)
    (selection : Gate.GateScope) : List PlannedItem → List TestMapping → Except String (List PlannedItem)
  | [], _ => .ok []
  | item :: items, mappings =>
    if item.exactTest = none then
      (bindItems snapshot isAlphanumeric options selection items mappings).map (item :: ·)
    else
      match mappings with
      | [] => .ok (item :: items)
      | mapping :: mappings =>
        match bindItem snapshot isAlphanumeric options selection item mapping with
        | .error reason => .error reason
        | .ok bound => (bindItems snapshot isAlphanumeric options selection items mappings).map (bound :: ·)

def exactMappings (request : TestRequest isAlphanumeric) : List TestMapping :=
  request.testMappings.filter fun mapping => mapping.testName.isSome

/-- The options of a request, with all members when no packages are selected. -/
def selectedOptions (snapshot : TestSnapshot) (options : ValidationOptions) : ValidationOptions :=
  if options.packages = [] then
    { options with packages := snapshot.members.map MetadataPackage.name }
  else options

def keptItems (options : ValidationOptions) (selection : Gate.GateScope) (items : List PlannedItem) :
    List PlannedItem :=
  items.filter fun item => (item.packageId == "" || selection.packageIds.contains item.packageId) &&
    options.cargoTarget.all fun selected => item.cargoTarget == some selected

/-- The items of an explicit selection say so. -/
def explicitItem (item : PlannedItem) : PlannedItem :=
  { item with
    scope := if item.exactTest = none then "explicit" else item.scope
    reason := "explicit package/target subset: " ++ item.reason }

/-- `bind_test_selection`: the items, and whether the selection is an explicit one. -/
def bindTestSelection (snapshot : TestSnapshot) (request : TestRequest isAlphanumeric)
    (owners : List (Option MetadataPackage)) (items : List PlannedItem) : Except String (List PlannedItem × Bool) :=
  let options := request.testConfiguration
  let explicit := options.packages ≠ [] || options.cargoTarget.isSome
  match options.validate isAlphanumeric .test with
  | .error reason => .error reason
  | .ok () =>
    match Gate.resolve snapshot.view (selectedOptions snapshot options) with
    | .error reason => .error reason
    | .ok none => .ok (items, explicit)
    | .ok (some selection) =>
      if owners.any fun owner => owner.any fun package =>
          !selection.evidence.packageIds.contains package.id then
        .error "a test mapping conflicts with configuration.packages"
      else
        match bindItems snapshot isAlphanumeric options selection.evidence items (exactMappings request) with
        | .error reason => .error reason
        | .ok bound =>
          let kept := keptItems options selection.evidence bound
          .ok (if explicit then kept.map explicitItem else kept, explicit || options.testFilter.isSome)

/-! ## The plan -/

/-- `TestPlanBuild`, with what the plan says about its items. -/
structure TestPlan where
  items : List PlannedItem := []
  cargoSuite : Option PlannedItem := none
  skipped : List SkippedCell := []
  sources : List String
  widenedBecause : List String
  changedPackages : List String := []
  full : Bool := false
  maxTests : ℕ

/-- The order of the items: by rank, then by identifier. -/
def itemLe (left right : PlannedItem) : Bool :=
  left.rank < right.rank || (left.rank == right.rank && left.id ≤ right.id)

/-- What is told of an item that the budget cuts. -/
def budgetRow (item : PlannedItem) : SkippedCell :=
  ⟨item.id, .skippedBudget, "verify.maxTests budget exhausted during test planning"⟩

/-- The sources of a plan, before its items are bound. -/
def planSources (request : TestRequest isAlphanumeric) : List String :=
  ["cargo metadata test inventory", "workspace package graph (reverse dependents)"] ++
    (if request.testMappings.isEmpty then [] else ["explicit user mappings"]) ++
    (if request.semanticReferences.isEmpty then [] else ["caller-provided semantic reference hints"]) ++
    if request.recordFiles.isEmpty then [] else ["change record changed files"]

/-- The canonical Cargo suite of a plan. -/
def plannedSuite (options : ValidationOptions) (full : Bool) (items : List PlannedItem) : PlannedItem :=
  { cargoSuiteItem options (items.map PlannedItem.toTestPlanItem) with
    rank := 0
    scope := if full then "workspace" else "explicit"
    package := if options.packages = [] then "workspace" else String.intercalate ", " options.packages
    packageId := ""
    target := "Cargo requested test inventory"
    featureGated := false
    reason := "one Cargo test command preserves requested packages, targets, features and dependency " ++
      "feature unification; inventory entries are not independent execution claims" }

/-- The end of `build_test_plan`: the bound items are sorted and cut. -/
def finishPlan (request : TestRequest isAlphanumeric) (scope : PlanScope) (skipped : List SkippedCell)
    (maxTests : ℕ) (bound : List PlannedItem) (explicit : Bool) : TestPlan :=
  let options := request.testConfiguration
  let sorted := bound.insertionSort fun left right => itemLe left right = true
  let items := sorted.take maxTests
  let skipped := skipped ++ (sorted.drop maxTests).map budgetRow
  let full := scope.widened && !explicit && skipped.isEmpty
  let suite := (full || !options.packages.isEmpty) && skipped.isEmpty && options.runner = .cargo &&
    request.testMappings.isEmpty && options.testFilter.isNone
  { items
    cargoSuite := if suite then some (plannedSuite options full items) else none
    skipped
    sources := planSources request ++ (if explicit then
        ["explicit package/target/filter selection; development subset, not a full gate"] else []) ++
      if suite then ["canonical Cargo workspace suite preserves feature resolution"] else []
    widenedBecause := scope.widenedBecause
    changedPackages := scope.changed
    full
    maxTests }

/-- `build_test_plan`. -/
def planTests (snapshot : TestSnapshot) (request : TestRequest isAlphanumeric) (maxTests : ℕ) : TestPlan :=
  match resolveMappings snapshot request.testMappings.zipIdx with
  | .error row =>
    { skipped := [row]
      sources := planSources request
      widenedBecause := wideningReasons snapshot request
      maxTests }
  | .ok owners =>
    let scope := planScope snapshot request owners
    let skipped := packageSkipped snapshot request scope
    match bindTestSelection snapshot request owners (draftItems snapshot request scope owners) with
    | .error reason =>
      { skipped := skipped ++ [⟨"explicit-selection", .unsupportedConfiguration, reason⟩]
        sources := planSources request
        widenedBecause := scope.widenedBecause
        maxTests }
    | .ok (bound, explicit) => finishPlan request scope skipped maxTests bound explicit

end AgzRustMcp.Verify
