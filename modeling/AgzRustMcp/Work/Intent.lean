import AgzRustMcp.Work.Model

/-!
# The declared intent of a work session

`validate_intent` decides which intents a session can start with, and `candidate_scope_error`
whether a candidate may be staged under one: it compares the normalised paths with the scope paths
and the numbers of patches with the caps of the executor, not with the change budget of the intent.
-/

namespace AgzRustMcp

/-- `char::is_control`: the Unicode category `Cc`. -/
def isControl (c : Char) : Bool := c.toNat < 32 || (127 ≤ c.toNat && c.toNat < 160)

/-- A component that leaves the workspace. -/
def Component.escapes : Component → Bool
  | .rootDir | .parentDir => true
  | .curDir | .normal _ => false

def validateScopePath (path : String) : Except String Unit :=
  if trim path.toList = [] then .error "intent.scopePaths entries cannot be empty"
  else if path.toList.length > maxScopePathChars then
    .error s!"intent.scopePaths entries accept at most {maxScopePathChars} characters"
  else if path.toList.any isControl then
    .error "intent.scopePaths entries cannot contain control characters"
  else if isAbsolute path.toList || (components path.toList).any Component.escapes ||
      (components path.toList).isEmpty then
    .error s!"intent.scopePaths entry '{path}' must be a workspace-relative path without parent traversal"
  else .ok ()

def validateIntent (intent : WorkIntent) : Except String Unit := do
  if intent.scopePaths.isEmpty then
    throw "intent.scopePaths must declare the candidate target scope"
  if intent.scopePaths.length > maxScopePaths then
    throw s!"intent.scopePaths accepts at most {maxScopePaths} paths"
  intent.scopePaths.forM validateScopePath
  if trim intent.contract.toList = [] then throw "intent.contract cannot be empty"
  if intent.contract.toList.length > maxContractChars then
    throw s!"intent.contract accepts at most {maxContractChars} characters"
  if trim intent.stopCondition.toList = [] then throw "intent.stopCondition cannot be empty"
  if intent.stopCondition.toList.length > maxStopConditionChars then
    throw s!"intent.stopCondition accepts at most {maxStopConditionChars} characters"
  if intent.acceptanceGates.isEmpty then throw "intent.acceptanceGates must not be empty"
  if intent.acceptanceGates.length > maxAcceptanceGates then
    throw s!"intent.acceptanceGates accepts at most {maxAcceptanceGates} gates"
  if intent.changeBudget.maxPatches = 0 ∨ intent.changeBudget.maxPatches > 512 then
    throw "intent.changeBudget.maxPatches must be between 1 and 512"
  if intent.changeBudget.maxNewFiles > 512 then
    throw "intent.changeBudget.maxNewFiles must be between 0 and 512"
  if intent.template = .repairCompileFailure ∧ ¬ intent.acceptanceGates.any (· != .fmt) then
    throw "repair_compile_failure requires at least one compiler-producing acceptance gate"

/-! ## The scope of a candidate -/

/-- The loop of `normalize_relative` of `work/service.rs` over the components. -/
def normalizedNames : List Component → Option (List String)
  | [] => some []
  | .curDir :: rest => normalizedNames rest
  | .normal name :: rest => (normalizedNames rest).map (name :: ·)
  | .parentDir :: _ => none
  | .rootDir :: _ => none

/-- `normalize_relative` of `work/service.rs`, without trimming. -/
def normalizeScope (path : String) : Option (List String) :=
  if path = "" ∨ isAbsolute path.toList then none
  else
    match normalizedNames (components path.toList) with
    | none | some [] => none
    | some names => some names

/-- The scopes that `candidate_scope_error` compares with. -/
def scopesOf (intent : WorkIntent) : List (List String) := intent.scopePaths.filterMap normalizeScope

/-- The closure `report` of `candidate_scope_error`. -/
def scopeReport (scopes : List (List String)) (file : String) : Option String :=
  match normalizeScope file with
  | none => some
      s!"candidate file '{file}' is not a valid in-workspace relative path; work failed closed"
  | some names =>
    if scopes.any fun scope => scope.isPrefixOf names then none
    else some s!"candidate file '{file}' is outside the declared scopePaths; work failed closed instead of widening the plan"

def candidateScopeError (intent : WorkIntent) (patches : List PatchInput)
    (newFiles : List NewFileInput) : Option String :=
  if patches.length > maxCandidatePatches ∨ newFiles.length > maxCandidateNewFiles then
    some "candidate exceeds the executor's bounded patch/new-file input limit"
  else
    ((patches.map PatchInput.file ++ newFiles.map NewFileInput.file).findSome?
      (scopeReport (scopesOf intent)))

/-- The file, after normalisation, is equal to or below one of the scope paths. -/
def WorkIntent.Covers (intent : WorkIntent) (file : String) : Prop :=
  ∃ names, normalizeScope file = some names ∧
    ∃ path ∈ intent.scopePaths, ∃ scope, normalizeScope path = some scope ∧ scope <+: names

/-- The candidate obeys the change budget and the scope of the intent. -/
structure WorkIntent.Admits (intent : WorkIntent) (patches : List PatchInput)
    (newFiles : List NewFileInput) : Prop where
  patches_le : patches.length ≤ intent.changeBudget.maxPatches
  newFiles_le : newFiles.length ≤ intent.changeBudget.maxNewFiles
  patches_covered : ∀ patch ∈ patches, intent.Covers patch.file
  newFiles_covered : ∀ file ∈ newFiles, intent.Covers file.file

lemma covers_of_scopeReport {intent : WorkIntent} {file : String}
    (h : scopeReport (scopesOf intent) file = none) : intent.Covers file := by
  unfold scopeReport at h
  cases hnames : normalizeScope file with
  | none => simp [hnames] at h
  | some names =>
    simp only [hnames] at h
    split_ifs at h with hany
    obtain ⟨scope, hscope, hstem⟩ := List.any_eq_true.mp hany
    obtain ⟨path, hpath, hnorm⟩ := List.mem_filterMap.mp hscope
    exact ⟨names, hnames, path, hpath, scope, hnorm, List.isPrefixOf_iff_prefix.mp hstem⟩

lemma covers_of_candidateScopeError {intent : WorkIntent} {patches : List PatchInput}
    {newFiles : List NewFileInput} (h : candidateScopeError intent patches newFiles = none) :
    (∀ patch ∈ patches, intent.Covers patch.file) ∧ ∀ file ∈ newFiles, intent.Covers file.file := by
  unfold candidateScopeError at h
  split_ifs at h
  rw [List.findSome?_eq_none_iff] at h
  constructor
  · intro patch hpatch
    exact covers_of_scopeReport (h _ (List.mem_append_left _ (List.mem_map_of_mem hpatch)))
  · intro file hfile
    exact covers_of_scopeReport (h _ (List.mem_append_right _ (List.mem_map_of_mem hfile)))

end AgzRustMcp
