import Mathlib

/-!
# Targets of the gate

`target_for` writes the arguments of a Cargo command.  What a command works on is decided by the
scope arguments alone: `--workspace`, or `-p` with the name of a package.
-/

namespace AgzRustMcp.Gate

/-! ## Requests -/

inductive GateTargetId
  | check | build | clippy | test | doc | fmt | all
deriving DecidableEq

def GateTargetId.asStr : GateTargetId → String
  | .check => "check"
  | .build => "build"
  | .clippy => "clippy"
  | .test => "test"
  | .doc => "doc"
  | .fmt => "fmt"
  | .all => "all"

/-- `cargo_metadata::TargetKind`, as far as the gate tells the kinds apart. -/
inductive TargetKind
  | lib | rlib | dylib | cdylib | staticlib | procMacro | bin | test | example | bench | customBuild
  | other
deriving DecidableEq

/-- A Cargo target of a package; the path of its source is one by components. -/
structure CargoTarget where
  name : String
  kind : List TargetKind
  doctest : Bool
  test : Bool
  srcPath : List String
  requiredFeatures : List String
deriving DecidableEq

inductive CargoTargetSelection
  | lib
  | bin (name : String)
  | test (name : String)
  | example (name : String)
  | bench (name : String)
deriving DecidableEq

inductive TestRunner
  | cargo | nextest
deriving DecidableEq

structure ValidationOptions where
  packages : List String := []
  cargoTarget : Option CargoTargetSelection := none
  features : List String := []
  allFeatures : Bool := false
  noDefaultFeatures : Bool := false
  targetTriple : Option String := none
  testFilter : Option String := none
  runner : TestRunner := .cargo
  sccache : Bool := false
  context : Bool := false
deriving DecidableEq

def ValidationOptions.hasBuildSelection (options : ValidationOptions) : Bool :=
  options.packages ≠ [] || options.cargoTarget.isSome || options.allFeatures ||
    options.noDefaultFeatures || options.features ≠ [] || options.targetTriple.isSome

/-- `GateRequest`, as far as the command depends on it. -/
structure GateRequest where
  options : ValidationOptions
  cargoTestDefaults : Bool
  target : GateTargetId
  timings : Bool
deriving DecidableEq

/-! ## Arguments -/

structure GateTarget where
  id : GateTargetId
  label : String
  args : List String
deriving DecidableEq

/-- Flags go before the separator `--`, or to the end when there is none. -/
def insertFlags (flags args : List String) : List String :=
  args.takeWhile (· ≠ "--") ++ flags ++ args.dropWhile (· ≠ "--")

/-- The arguments that every command of a target starts with. -/
def baseArgs (id : GateTargetId) (manifest : String) (allPackages : Bool) : List String :=
  match id with
  | .check => ["check", "--manifest-path", manifest, "--locked", "--message-format=json"]
  | .build => ["build", "--manifest-path", manifest, "--locked", "--message-format=json"]
  | .clippy => ["clippy", "--manifest-path", manifest, "--locked", "--all-targets",
      "--message-format=json", "--", "-D", "warnings"]
  | .test => ["test", "--manifest-path", manifest, "--locked", "--all-targets",
      "--message-format=json"]
  | .doc => ["test", "--manifest-path", manifest, "--doc", "--locked", "--message-format=json"]
  | .fmt => ["fmt", "--manifest-path", manifest] ++ (if allPackages then ["--all"] else []) ++
      ["--check"]
  | .all => []

def targetLabel : GateTargetId → String
  | .check => "cargo check"
  | .build => "cargo build"
  | .clippy => "cargo clippy (warnings as errors)"
  | .test => "cargo test --all-targets"
  | .doc => "cargo test --doc"
  | .fmt => "cargo fmt --check"
  | .all => ""

/-- `target_for`; `isVirtual` is what `is_virtual_workspace` finds in the manifest. -/
def targetFor (id : GateTargetId) (manifest : String) (isVirtual fullWorkspace timings : Bool)
    (scopeArgs : List String) : Option GateTarget :=
  if id = .all then none
  else
    let args := baseArgs id manifest (fullWorkspace || isVirtual)
    let args := if fullWorkspace ∧ (id = .build ∨ id = .clippy ∨ id = .test ∨ id = .doc) then
      insertFlags ["--workspace"] args else args
    let args := if fullWorkspace = false ∧ id ≠ .fmt ∧ scopeArgs ≠ [] then
      insertFlags scopeArgs args else args
    let args := if timings ∧ id ≠ .fmt then insertFlags ["--timings"] args else args
    some ⟨id, targetLabel id, args⟩

def fullOrder : List GateTargetId := [.fmt, .clippy, .test, .doc]

def CargoTargetSelection.flags : CargoTargetSelection → List String
  | .lib => ["--lib"]
  | .bin name => ["--bin", name]
  | .test name => ["--test", name]
  | .example name => ["--example", name]
  | .bench name => ["--bench", name]

def CargoTargetSelection.apply (selected : CargoTargetSelection) (target : GateTarget) : GateTarget where
  id := target.id
  label := if target.id = .test then "cargo test (selected target)" else target.label
  args := insertFlags selected.flags (target.args.filter (· ≠ "--all-targets"))

/-- The flags for features and the platform. -/
def ValidationOptions.flags (options : ValidationOptions) : List String :=
  (if options.allFeatures then ["--all-features"] else []) ++
    (if options.noDefaultFeatures then ["--no-default-features"] else []) ++
    (if options.features ≠ [] then
      ["--features", ",".intercalate (options.features.dedup.insertionSort (· ≤ ·))] else []) ++
    match options.targetTriple with
    | some triple => ["--target", triple]
    | none => []

/-- The arguments of a Cargo test command as a nextest command. -/
def nextestArgs (args : List String) : List String :=
  (("nextest" :: "run" :: args.tail).map fun arg =>
    if arg = "--message-format=json" then "--cargo-message-format=json" else arg) ++
      ["--no-tests=fail"]

def ValidationOptions.apply (options : ValidationOptions) (target : GateTarget) : GateTarget :=
  if target.id = .fmt then target
  else
    let target := match options.cargoTarget with
      | some selected => selected.apply target
      | none => target
    let target := { target with args := insertFlags options.flags target.args }
    if target.id = .test then
      let target := if options.runner = .nextest then
        { target with args := nextestArgs target.args, label := "cargo nextest run" } else target
      match options.testFilter with
      | some filter => { target with args := target.args ++ [filter] }
      | none => target
    else target

def GateRequest.applyOptions (request : GateRequest) (target : GateTarget) : GateTarget :=
  let target := request.options.apply target
  if request.cargoTestDefaults ∧ target.id = .test then
    { target with args := target.args.filter (· ≠ "--all-targets") }
  else target

/-- `apply_toolchain`, on one target. -/
def applyToolchain (toolchain : Option String) (target : GateTarget) : GateTarget :=
  match toolchain with
  | some toolchain => { target with args := ("+" ++ toolchain) :: target.args }
  | none => target

section

variable {flags args : List String} {arg : String}

/-- Flags that are inserted are there afterwards, and nothing is lost. -/
@[simp]
lemma mem_insertFlags_iff : arg ∈ insertFlags flags args ↔ arg ∈ flags ∨ arg ∈ args := by
  have hsplit : arg ∈ args ↔ arg ∈ args.takeWhile (· ≠ "--") ∨ arg ∈ args.dropWhile (· ≠ "--") := by
    rw [← List.mem_append, List.takeWhile_append_dropWhile]
  rw [insertFlags, List.mem_append, List.mem_append, hsplit]
  tauto

end

end AgzRustMcp.Gate
