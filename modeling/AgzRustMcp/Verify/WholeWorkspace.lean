import AgzRustMcp.Gate.ChangedSet
import AgzRustMcp.Verify.Suite

/-!
# Claims about the whole workspace

`test_run` ends with `FULL_REQUESTED_SUITE` when the plan is that of the whole workspace, and a
matrix cell has the scope `workspace`.  Such a claim is earned exactly when the gate did not narrow
the command (`whole_workspace_claim_earned_iff`).
-/

namespace AgzRustMcp.Verify

open AgzRustMcp.Gate

def executedTargets (run : GateRun) (sha : ByteArray → String) : List GateTarget :=
  match run.prepare sha with
  | .error _ => []
  | .ok prepared =>
    if prepared.identity.complete = false ∨ run.interrupted.isSome then [] else prepared.targets

/-- Every Cargo command of a run was given `--workspace`, and there was one. -/
def CoversWorkspace (run : GateRun) (sha : ByteArray → String) : Prop :=
  executedTargets run sha ≠ [] ∧ ∀ target ∈ executedTargets run sha, "--workspace" ∈ target.args

/-- The gate narrows a run to the packages that the first identity finds affected. -/
def Narrows (run : GateRun) : Prop :=
  run.configured = .affected ∧ run.request.options.hasBuildSelection = false ∧
    ∃ source packages, run.first = .ok source ∧ affectedPackages run.snapshot source.changedPaths = .ok packages

/-- A request for a single command, without packages and target. -/
structure Unselected (request : GateRequest) : Prop where
  packages : request.options.packages = []
  cargoTarget : request.options.cargoTarget = none
  testFilter : request.options.testFilter = none
  target : request.target ≠ .all ∧ request.target ≠ .fmt

section

variable {run : GateRun} {sha : ByteArray → String} {args : List String}

/-! ## The arguments of a command -/

lemma insertFlags_cons {first : String} (flags rest : List String) (h : first ≠ "--") :
    insertFlags flags (first :: rest) = first :: insertFlags flags rest := by
  simp [insertFlags, h]

lemma mem_tail_insertFlags {arg : String} (flags : List String) (h : arg ∈ args.tail) :
    arg ∈ (insertFlags flags args).tail := by
  cases args with
  | nil => simp at h
  | cons first rest =>
    rw [List.tail_cons] at h
    by_cases hfirst : first = "--"
    · subst hfirst
      have hsplit : insertFlags flags ("--" :: rest) = flags ++ "--" :: rest := by
        simp [insertFlags]
      rw [hsplit]
      cases flags with
      | nil => exact h
      | cons flag flags => exact List.mem_append_right _ (List.mem_cons_of_mem _ h)
    · rw [insertFlags_cons flags rest hfirst, List.tail_cons]
      exact mem_insertFlags_iff.mpr (Or.inr h)

lemma apply_args {options : ValidationOptions} {target : GateTarget}
    (hselected : options.cargoTarget = none) (hfmt : target.id ≠ .fmt) : (options.apply target).args =
      if target.id = .test then
        (if options.runner = .nextest then nextestArgs (insertFlags options.flags target.args)
          else insertFlags options.flags target.args) ++ options.testFilter.toList
      else insertFlags options.flags target.args := by
  unfold ValidationOptions.apply
  rw [if_neg hfmt, hselected]
  dsimp only
  split_ifs
  · cases options.testFilter <;> simp
  · cases options.testFilter <;> simp
  · rfl

lemma workspace_mem_applyOptions {request : GateRequest} {target : GateTarget}
    (hselected : request.options.cargoTarget = none) (h : "--workspace" ∈ target.args.tail) :
    "--workspace" ∈ (request.applyOptions target).args := by
  have hflags := mem_tail_insertFlags request.options.flags h
  have hnextest : "--workspace" ∈ nextestArgs (insertFlags request.options.flags target.args) := by
    unfold nextestArgs
    refine List.mem_append_left _ (List.mem_map.mpr ⟨"--workspace", ?_, by simp⟩)
    exact List.mem_cons_of_mem _ (List.mem_cons_of_mem _ hflags)
  have hoptions : "--workspace" ∈ (request.options.apply target).args := by
    by_cases hfmt : target.id = .fmt
    · unfold ValidationOptions.apply
      rw [if_pos hfmt]
      exact List.mem_of_mem_tail h
    · rw [apply_args hselected hfmt]
      split_ifs
      · exact List.mem_append_left _ hnextest
      · exact List.mem_append_left _ (List.mem_of_mem_tail hflags)
      · exact List.mem_of_mem_tail hflags
  unfold GateRequest.applyOptions
  dsimp only
  split_ifs
  · exact List.mem_filter.mpr ⟨hoptions, by simp⟩
  · exact hoptions

lemma workspace_not_mem_nextestArgs (h : "--workspace" ∉ args) :
    "--workspace" ∉ nextestArgs args := by
  intro hmem
  unfold nextestArgs at hmem
  rcases List.mem_append.mp hmem with hmapped | hlast
  · obtain ⟨arg, harg, heq⟩ := List.mem_map.mp hmapped
    split_ifs at heq
    · simp at heq
    · subst heq
      have htail : "--workspace" ∈ args.tail := by simpa using harg
      exact h (List.mem_of_mem_tail htail)
  · simp at hlast

lemma workspace_not_mem_applyOptions {request : GateRequest} {target : GateTarget}
    (hselection : request.options.hasBuildSelection = false)
    (hfilter : request.options.testFilter = none) (h : "--workspace" ∉ target.args) :
    "--workspace" ∉ (request.applyOptions target).args := by
  simp only [ValidationOptions.hasBuildSelection, ne_eq, decide_not, Bool.or_eq_false_iff,
    Bool.not_eq_false', decide_eq_true_eq, Option.isSome_eq_false_iff, Option.isNone_iff_eq_none]
    at hselection
  obtain ⟨⟨⟨⟨⟨-, hcargo⟩, hall⟩, hdefault⟩, hfeatures⟩, htriple⟩ := hselection
  have hflags : request.options.flags = [] := by
    simp [ValidationOptions.flags, hall, hdefault, hfeatures, htriple]
  have hargs : "--workspace" ∉ insertFlags request.options.flags target.args := by
    rw [hflags, mem_insertFlags_iff]
    simpa using h
  have hoptions : "--workspace" ∉ (request.options.apply target).args := by
    by_cases hfmt : target.id = .fmt
    · unfold ValidationOptions.apply
      rw [if_pos hfmt]
      exact h
    · rw [apply_args hcargo hfmt, hfilter]
      split_ifs
      · simpa using workspace_not_mem_nextestArgs hargs
      · simpa using hargs
      · exact hargs
  unfold GateRequest.applyOptions
  dsimp only
  split_ifs
  · exact fun hmem => hoptions (List.mem_of_mem_filter hmem)
  · exact hoptions

lemma workspace_not_mem_packageArgs {names : List String}
    (h : ∀ name ∈ names, name.toList.head? ≠ some '-') : "--workspace" ∉ packageArgs names := by
  intro hmem
  obtain ⟨name, hname, harg⟩ := List.mem_flatMap.mp hmem
  rcases List.mem_cons.mp harg with hflag | hargument
  · exact absurd hflag (by decide)
  · obtain rfl := List.mem_singleton.mp hargument
    exact h _ hname (by decide)

lemma workspace_not_mem_baseArgs (id : GateTargetId) (snapshot : WorkspaceSnapshot)
    (allPackages : Bool) : "--workspace" ∉ baseArgs id snapshot.manifestPath allPackages := by
  have hmanifest : "--workspace" ≠ snapshot.manifestPath := by
    intro heq
    have habsolute := snapshot.manifest_absolute
    rw [← heq] at habsolute
    exact absurd habsolute (by decide)
  cases id <;> cases allPackages <;> simp [baseArgs, hmanifest]

/-! ## The commands of a run -/

lemma targetFor_args {id : GateTargetId} {scopeArgs : List String} (snapshot : WorkspaceSnapshot)
    (timings : Bool) (htarget : id ≠ .all ∧ id ≠ .fmt) (hscope : scopeArgs ≠ []) :
    ∃ target, targetFor id snapshot.manifestPath snapshot.isVirtual false timings scopeArgs =
      some target ∧ target.args = insertFlags (if timings then ["--timings"] else [])
        (insertFlags scopeArgs (baseArgs id snapshot.manifestPath snapshot.isVirtual)) := by
  unfold targetFor
  rw [if_neg htarget.1]
  refine ⟨_, rfl, ?_⟩
  cases timings with
  | false => simp [htarget.2, hscope, insertFlags]
  | true => simp [htarget.2, hscope]

lemma baseArgs_eq_cons {id : GateTargetId} (manifest : String) (allPackages : Bool) (h : id ≠ .all) :
    ∃ first rest, baseArgs id manifest allPackages = first :: rest ∧ first ≠ "--" := by
  cases id with
  | all => exact absurd rfl h
  | check => exact ⟨_, _, rfl, by decide⟩
  | build => exact ⟨_, _, rfl, by decide⟩
  | clippy => exact ⟨_, _, rfl, by decide⟩
  | test => exact ⟨_, _, rfl, by decide⟩
  | doc => exact ⟨_, _, rfl, by decide⟩
  | fmt => exact ⟨_, _, rfl, by decide⟩

lemma workspace_mem_applyToolchain_iff (toolchain : Option String) (target : GateTarget) :
    "--workspace" ∈ (applyToolchain toolchain target).args ↔ "--workspace" ∈ target.args := by
  cases toolchain with
  | none => rfl
  | some toolchain =>
    have hne : "--workspace" ≠ "+" ++ toolchain := by
      intro heq
      have hhead := congrArg (fun text => text.toList.head?) heq
      simp at hhead
    simp [applyToolchain, hne]

lemma targets_eq_singleton (hrequest : Unselected run.request) (scopeArgs : List String) (hscope : scopeArgs ≠ []) :
    ∃ target, run.targets scopeArgs = [applyToolchain run.toolchain (run.request.applyOptions target)] ∧
      target.args = insertFlags (if run.request.timings then ["--timings"] else []) (insertFlags scopeArgs
          (baseArgs run.request.target run.snapshot.manifestPath run.snapshot.isVirtual)) := by
  obtain ⟨target, htarget, hargs⟩ :=
    targetFor_args run.snapshot run.request.timings hrequest.target hscope
  refine ⟨target, ?_, hargs⟩
  simp [GateRun.targets, hrequest.target, htarget]

lemma workspace_mem_targets (hrequest : Unselected run.request) :
    ∀ target ∈ run.targets ["--workspace"], "--workspace" ∈ target.args := by
  obtain ⟨target, htargets, hargs⟩ :=
    targets_eq_singleton hrequest ["--workspace"] (by simp)
  obtain ⟨first, rest, hbase, hfirst⟩ :=
    baseArgs_eq_cons run.snapshot.manifestPath run.snapshot.isVirtual hrequest.target.1
  have htail : "--workspace" ∈ target.args.tail := by
    rw [hargs, hbase]
    apply mem_tail_insertFlags
    rw [insertFlags_cons _ _ hfirst, List.tail_cons]
    exact mem_insertFlags_iff.mpr (Or.inl List.mem_cons_self)
  intro other hother
  rw [htargets, List.mem_singleton] at hother
  subst hother
  rw [workspace_mem_applyToolchain_iff]
  exact workspace_mem_applyOptions hrequest.cargoTarget htail

lemma workspace_not_mem_targets (hrequest : Unselected run.request)
    (hselection : run.request.options.hasBuildSelection = false) {names : List String}
    (hnames : names ≠ []) (hvalid : ∀ name ∈ names, name.toList.head? ≠ some '-') :
    ∀ target ∈ run.targets (packageArgs names), "--workspace" ∉ target.args := by
  have hscope : packageArgs names ≠ [] := by
    cases names with
    | nil => exact absurd rfl hnames
    | cons name names => simp [packageArgs]
  obtain ⟨target, htargets, hargs⟩ := targets_eq_singleton hrequest _ hscope
  have hnot : "--workspace" ∉ target.args := by
    rw [hargs, mem_insertFlags_iff, mem_insertFlags_iff]
    have htimings : "--workspace" ∉ if run.request.timings then ["--timings"] else [] := by
      split_ifs <;> simp
    rintro (hflag | hpackage | hbase)
    · exact htimings hflag
    · exact workspace_not_mem_packageArgs hvalid hpackage
    · exact workspace_not_mem_baseArgs _ _ _ hbase
  intro other hother
  rw [htargets, List.mem_singleton] at hother
  subst hother
  rw [workspace_mem_applyToolchain_iff]
  exact workspace_not_mem_applyOptions hselection hrequest.testFilter hnot

lemma affectedPackages_ne_nil {snapshot : WorkspaceSnapshot} {paths : List FsPath} {packages packageIds : List String}
    (h : affectedPackages snapshot paths = .ok (packages, packageIds)) : packages ≠ [] := by
  unfold affectedPackages at h
  dsimp only at h
  split_ifs at h with _ _ _ _ _ hnil
  obtain ⟨rfl, -⟩ := Prod.mk.inj (Except.ok.inj h)
  exact fun hmap => hnil (List.map_eq_nil_iff.mp hmap)

lemma chosenScope_args (hrequest : Unselected run.request) (paths : List FsPath) : (run.chosenScope none paths).args =
      if run.configured = .affected ∧ run.request.options.hasBuildSelection = false then
        match affectedPackages run.snapshot paths with
        | .ok (packages, _) => packageArgs packages
        | .error _ => ["--workspace"]
      else ["--workspace"] := by
  have hinitial : run.initialArgs none = ["--workspace"] := by
    simp [GateRun.initialArgs, hrequest.target]
  have htarget : ¬ (run.request.target = .all ∨ run.request.target = .fmt) := by
    rw [not_or]
    exact hrequest.target
  unfold GateRun.chosenScope
  cases hselection : run.request.options.hasBuildSelection with
  | true => simp [hrequest.packages, hinitial]
  | false =>
    simp only [Bool.false_eq_true, false_and, and_false, if_false, Option.getD_none, checkScope, if_neg htarget]
    cases hconfigured : run.configured with
    | workspace => simp
    | shadow => cases affectedPackages run.snapshot paths <;> simp
    | affected => cases affectedPackages run.snapshot paths <;> simp

lemma prepare_targets (hrequest : Unselected run.request) {prepared : PreparedCheck}
    (h : run.prepare sha = .ok prepared) : ∃ source, run.first = .ok source ∧
      prepared.targets = run.targets (run.chosenScope none source.changedPaths).args := by
  have hresolve : resolve run.snapshot run.request.options = .ok none := by
    rw [resolve, if_pos hrequest.packages]
  have hinitial : run.initialArgs none = ["--workspace"] := by
    simp [GateRun.initialArgs, hrequest.target]
  unfold GateRun.prepare at h
  split at h
  · simp at h
  rw [hresolve] at h
  dsimp only at h
  split at h
  · simp at h
  split at h
  · simp at h
  next source hsource =>
  refine ⟨source, hsource, ?_⟩
  split_ifs at h with hother
  · split at h
    · simp at h
    · rw [← Except.ok.inj h]
  · rw [← Except.ok.inj h]
    have hsame : (run.chosenScope none source.changedPaths).args = run.initialArgs none := by
      by_contra hne
      exact hother ⟨by simp [hinitial], hne⟩
    rw [hsame]

lemma coversWorkspace_iff (hrequest : Unselected run.request)
    (hexecuted : executedTargets run sha ≠ []) : CoversWorkspace run sha ↔ ¬ Narrows run := by
  have hprepared : ∃ source, run.first = .ok source ∧
      executedTargets run sha = run.targets (run.chosenScope none source.changedPaths).args := by
    unfold executedTargets at hexecuted ⊢
    split at hexecuted
    · exact absurd rfl hexecuted
    next prepared hprepare =>
    obtain ⟨source, hsource, htargets⟩ := prepare_targets hrequest hprepare
    split_ifs at hexecuted ⊢ with hstopped
    · exact absurd rfl hexecuted
    · exact ⟨source, hsource, htargets⟩
  obtain ⟨source, hsource, htargets⟩ := hprepared
  rw [CoversWorkspace, and_iff_right hexecuted]
  by_cases hnarrows : Narrows run
  · obtain ⟨hconfigured, hselection, other, ⟨packages, packageIds⟩, hother, haffected⟩ := hnarrows
    obtain rfl : source = other := Except.ok.inj (hsource.symm.trans hother)
    rw [chosenScope_args hrequest, if_pos ⟨hconfigured, hselection⟩, haffected] at htargets
    constructor
    · intro hcovers
      obtain ⟨target, htarget⟩ := List.exists_mem_of_ne_nil _ hexecuted
      have hnot := workspace_not_mem_targets hrequest hselection (affectedPackages_ne_nil haffected)
        (affectedPackages_valid haffected)
      rw [htargets] at htarget hcovers
      exact absurd (hcovers target htarget) (hnot target htarget)
    · intro hnot
      exact absurd ⟨hconfigured, hselection, source, _, hsource, haffected⟩ hnot
  · refine iff_of_true ?_ hnarrows
    have hargs : (run.chosenScope none source.changedPaths).args = ["--workspace"] := by
      rw [chosenScope_args hrequest]
      split_ifs with hmay
      · cases haffected : affectedPackages run.snapshot source.changedPaths with
        | error reason => rfl
        | ok packages => exact absurd ⟨hmay.1, hmay.2, source, packages, hsource, haffected⟩ hnarrows
      · rfl
    rw [htargets, hargs]
    exact workspace_mem_targets hrequest

lemma executedTargets_ne_nil (hrequest : Unselected run.request)
    (h : (run.evidence sha).status = .fastPass ∨ (run.evidence sha).status = .fullPass) :
    executedTargets run sha ≠ [] := by
  have hrefusal : ∀ refusal : Refusal, ¬ ((terminalEvidence refusal).status = .fastPass ∨
        (terminalEvidence refusal).status = .fullPass) := by
    rintro refusal (hstatus | hstatus) <;>
    · have hverdict := refusal.isRefusal
      rw [show refusal.status = _ from hstatus] at hverdict
      exact absurd hverdict (by decide)
  unfold GateRun.evidence at h
  unfold executedTargets
  cases hprepare : run.prepare sha with
  | error refusal =>
    rw [hprepare] at h
    exact absurd h (hrefusal refusal)
  | ok prepared =>
    rw [hprepare] at h
    dsimp only at h ⊢
    obtain ⟨source, -, htargets⟩ := prepare_targets hrequest hprepare
    by_cases hcomplete : prepared.identity.complete = false
    · rw [if_pos hcomplete] at h
      exact absurd h (hrefusal _)
    · rw [if_neg hcomplete] at h
      cases hinterrupted : run.interrupted with
      | some refusal =>
        rw [hinterrupted] at h
        exact absurd h (hrefusal refusal)
      | none =>
        rw [if_neg (by simp [hcomplete]), htargets]
        exact targets_ne_nil _ hrequest.target.1

end

/-! ## Claims about the workspace -/

section

variable {configured : ConfigGateScope} {sha : ByteArray → String}

lemma evidence_passes_of_classify {item : TestPlanItem} {evidence : Gate.GateEvidence}
    {observation : TestObservation} (h : classifyTestEvidence item evidence observation = "PASS") :
    evidence.status = .fastPass ∨ evidence.status = .fullPass := by
  have hunsettled : ∀ ignored, classifyUnsettled ignored observation ≠ "PASS" := by
    intro ignored
    unfold classifyUnsettled
    split_ifs <;> decide
  unfold classifyTestEvidence at h
  dsimp only at h
  split at h
  · split_ifs at h <;> simp at h
  · exact Or.inl ‹_›
  · exact Or.inr ‹_›
  · simp at h
  · simp at h
  · simp at h
  · exact absurd h (hunsettled _)

lemma passes_of_mapGateStatus {status : GateStatus} (h : mapGateStatus status = .pass) :
    status = .fastPass ∨ status = .fullPass := by
  cases status <;> simp_all [mapGateStatus]

lemma unselected_of_full {configuration : ValidationOptions} {mapped : Bool}
    {inventory : Except (List String) TestInventory} {maxTests : ℕ} {suite : TestPlanItem}
    (hfull : (buildTestPlan configuration mapped inventory maxTests).full = true)
    (hsuite : (buildTestPlan configuration mapped inventory maxTests).cargoSuite = some suite) :
    Unselected (itemRequest configuration suite) := by
  unfold buildTestPlan at hfull hsuite
  cases inventory with
  | error skipped => simp at hfull
  | ok inventory =>
    dsimp only at hfull hsuite
    rw [decide_eq_true_eq] at hfull
    obtain ⟨-, hselected, -⟩ := hfull
    simp only [not_or, not_not, Option.isSome_iff_ne_none] at hselected
    split_ifs at hsuite with hoffered
    obtain rfl := Option.some.inj hsuite
    constructor
    · exact hselected.1
    · exact hselected.2.1
    · simp [itemRequest, cargoSuiteItem]
    · simp [itemRequest, cargoSuiteItem]

lemma unselected_cellRequest (cell : MatrixCell) : Unselected (cellRequest cell) where
  packages := rfl
  cargoTarget := rfl
  testFilter := rfl
  target := by cases hstage : cell.stage <;> simp [cellRequest, hstage, VerifyStage.target]

lemma TestRun.suite_of_full {run : TestRun} (h : run.status = "FULL_REQUESTED_SUITE") :
    run.build.full = true ∧ ∃ suite gateRun, run.build.cargoSuite = some suite ∧ run.turns 0 = .runs gateRun ∧
      itemStatus run.sha run.configured run.configuration suite (.runs gateRun) = "PASS" := by
  unfold TestRun.status at h
  dsimp only at h
  split at h
  next status _ => cases status <;> exact absurd h (by decide)
  split_ifs at h with _ _ hfull
  · exact absurd h (by decide)
  · exact absurd h (by decide)
  · obtain ⟨-, hbuild, hsome, -, hpass⟩ := hfull
    obtain ⟨suite, hsuite⟩ := Option.isSome_iff_exists.mp hsome
    have hstatuses : run.statuses = [itemStatus run.sha run.configured run.configuration suite (run.turns 0)] := by
      simp [TestRun.statuses, TestPlanBuild.executionItems, hsuite]
    rw [hstatuses, List.mem_singleton] at hpass
    refine ⟨hbuild, suite, ?_⟩
    cases hturn : run.turns 0 with
    | cancelled =>
      rw [hturn] at hpass
      exact absurd hpass (by simp [itemStatus])
    | skippedBudget =>
      rw [hturn] at hpass
      exact absurd hpass (by simp [itemStatus])
    | runs gateRun =>
      rw [hturn] at hpass
      exact ⟨gateRun, hsuite, rfl, hpass.symm⟩
  all_goals exact absurd h (by decide)

lemma TestRun.executes_suite {run : TestRun} (h : run.status = "FULL_REQUESTED_SUITE") :
    ∃ suite gateRun, run.build.cargoSuite = some suite ∧ run.turns 0 = .runs gateRun ∧
      Unselected (itemRun run.configured run.configuration suite gateRun).request ∧
      executedTargets (itemRun run.configured run.configuration suite gateRun) run.sha ≠ [] := by
  obtain ⟨hfull, suite, gateRun, hsuite, hturn, hpass⟩ := TestRun.suite_of_full h
  have hrequest : Unselected (itemRun run.configured run.configuration suite gateRun).request :=
    unselected_of_full hfull hsuite
  refine ⟨suite, gateRun, hsuite, hturn, hrequest, ?_⟩
  exact executedTargets_ne_nil hrequest (evidence_passes_of_classify hpass)

lemma executes_cell {cell : MatrixCell} {turn : CellTurn} (h : cellStatus sha configured cell turn = .pass) :
    ∃ gateRun, (∃ cancelled expired, turn = .runs gateRun cancelled expired) ∧
      executedTargets (cellRun configured cell gateRun) sha ≠ [] := by
  cases turn with
  | cancelled => exact absurd h (by simp [cellStatus])
  | skippedBudget => exact absurd h (by simp [cellStatus])
  | runs gateRun cancelled expired =>
    unfold cellStatus at h
    dsimp only at h
    split_ifs at h
    refine ⟨gateRun, ⟨cancelled, expired, rfl⟩, ?_⟩
    exact executedTargets_ne_nil (unselected_cellRequest cell) (passes_of_mapGateStatus h)

end

/-- The whole workspace is claimed: a full suite, or a passing cell. -/
inductive WholeWorkspaceClaim
  | suite (run : TestRun) (full : run.status = "FULL_REQUESTED_SUITE")
  | cell (run : MatrixRun) (index : Fin run.cells.length)
      (scope : (run.cells.get index).packageScope = "workspace")
      (pass : cellStatus run.sha run.configured (run.cells.get index) (run.turns index) = .pass)

def WholeWorkspaceClaim.restsOn : WholeWorkspaceClaim → GateRun → (ByteArray → String) → Prop
  | .suite run _, gateRun, sha => sha = run.sha ∧
      ∃ suite met, run.build.cargoSuite = some suite ∧ run.turns 0 = .runs met ∧
        gateRun = itemRun run.configured run.configuration suite met
  | .cell run index _ _, gateRun, sha => sha = run.sha ∧
      ∃ met cancelled expired, run.turns index = .runs met cancelled expired ∧
        gateRun = cellRun run.configured (run.cells.get index) met

/-- A claim is earned: the command of its gate run covers the workspace. -/
def WholeWorkspaceClaim.Earned (claim : WholeWorkspaceClaim) : Prop :=
  ∃ gateRun sha, claim.restsOn gateRun sha ∧ CoversWorkspace gateRun sha

lemma WholeWorkspaceClaim.exists_restsOn (claim : WholeWorkspaceClaim) :
    ∃ gateRun sha, claim.restsOn gateRun sha ∧ Unselected gateRun.request ∧ executedTargets gateRun sha ≠ [] ∧
      ∀ gateRun' sha', claim.restsOn gateRun' sha' → gateRun' = gateRun ∧ sha' = sha := by
  cases claim with
  | suite run full =>
    obtain ⟨suite, met, hsuite, hturn, hrequest, hexecuted⟩ := TestRun.executes_suite full
    refine ⟨_, run.sha, ⟨rfl, suite, met, hsuite, hturn, rfl⟩, hrequest, hexecuted, ?_⟩
    rintro gateRun' sha' ⟨rfl, suite', met', hsuite', hturn', rfl⟩
    obtain rfl : suite' = suite := Option.some.inj (hsuite'.symm.trans hsuite)
    obtain rfl : met' = met := ItemTurn.runs.inj (hturn'.symm.trans hturn)
    exact ⟨rfl, rfl⟩
  | cell run index scope pass =>
    obtain ⟨met, ⟨cancelled, expired, hturn⟩, hexecuted⟩ := executes_cell pass
    refine ⟨_, run.sha, ⟨rfl, met, cancelled, expired, hturn, rfl⟩, unselected_cellRequest _, hexecuted, ?_⟩
    rintro gateRun' sha' ⟨rfl, met', cancelled', expired', hturn', rfl⟩
    obtain ⟨rfl, -, -⟩ := CellTurn.runs.inj (hturn'.symm.trans hturn)
    exact ⟨rfl, rfl⟩

/-- A claim about the workspace is earned exactly when no run was narrowed. -/
theorem whole_workspace_claim_earned_iff (claim : WholeWorkspaceClaim) :
    claim.Earned ↔ ∀ gateRun sha, claim.restsOn gateRun sha → ¬ Narrows gateRun := by
  obtain ⟨gateRun, sha, hrests, hrequest, hexecuted, honly⟩ := claim.exists_restsOn
  constructor
  · rintro ⟨gateRun', sha', hrests', hcovers⟩
    obtain ⟨rfl, rfl⟩ := honly gateRun' sha' hrests'
    intro other sha'' hother
    obtain ⟨rfl, -⟩ := honly other sha'' hother
    exact (coversWorkspace_iff hrequest hexecuted).mp hcovers
  · intro hkept
    refine ⟨gateRun, sha, hrests, ?_⟩
    exact (coversWorkspace_iff hrequest hexecuted).mpr (hkept gateRun sha hrests)

/-! ## A cell that the gate narrows -/

/-- The check of the default features, as it is planned. -/
def defaultCell : MatrixCell where
  id := "default-check"
  packageScope := "workspace"
  features := []
  noDefaultFeatures := false
  targetTriple := none
  toolchain := none
  stage := .check
  runner := .cargo

/-- A run of the gate in a workspace whose package `a` was edited. -/
def checkOfEdit : GateRun :=
  { overtakenCheck with second := .ok editedOnce, last := .ok editedOnce }

def narrowedMatrix : MatrixRun where
  sha := Sha256.sha256Hex
  configured := .affected
  cells := [defaultCell]
  turns := fun _ => .runs checkOfEdit false false

lemma passesAffected_checkOfEdit :
    (cellRun .affected defaultCell checkOfEdit).PassesAffected Sha256.sha256Hex editedOnce editedOnce
      editedOnce ["a"] ["a 0.1.0"] where
  refused := rfl
  packages_eq := rfl
  selection := rfl
  target := by decide
  configured := rfl
  first_eq := rfl
  affected := by decide +kernel
  second_eq := rfl
  complete := rfl
  interrupted := rfl
  executed := by decide +kernel
  sccache := by decide
  last_eq := rfl
  last_complete := rfl
  last_hash := rfl

lemma cellStatus_narrowedMatrix :
    cellStatus narrowedMatrix.sha narrowedMatrix.configured defaultCell (narrowedMatrix.turns 0) = .pass := by
  have hstatus := passesAffected_checkOfEdit.evidence.1
  change mapGateStatus ((cellRun .affected defaultCell checkOfEdit).evidence Sha256.sha256Hex).status = .pass
  rcases hstatus with hstatus | hstatus <;> rw [hstatus] <;> rfl

/-- The cell claims `workspace`, and its command is for `a` alone. -/
theorem narrowed_cell_claims_the_workspace : ¬ ∀ claim : WholeWorkspaceClaim, claim.Earned := by
  intro h
  obtain ⟨gateRun, sha, ⟨rfl, met, cancelled, expired, hturn, rfl⟩, -, hcovers⟩ :=
    h (.cell narrowedMatrix ⟨0, by decide⟩ rfl cellStatus_narrowedMatrix)
  obtain rfl : checkOfEdit = met := (CellTurn.runs.inj hturn).1
  have htargets : executedTargets (cellRun .affected defaultCell checkOfEdit) Sha256.sha256Hex =
      [⟨.check, "cargo check", ["check", "--manifest-path", "/ws/Cargo.toml", "--locked",
        "--message-format=json", "-p", "a"]⟩] := by
    decide +kernel
  have hworkspace := hcovers _ (by
    change _ ∈ executedTargets (cellRun .affected defaultCell checkOfEdit) Sha256.sha256Hex
    rw [htargets]
    exact List.mem_cons_self)
  exact absurd hworkspace (by decide)

end AgzRustMcp.Verify
