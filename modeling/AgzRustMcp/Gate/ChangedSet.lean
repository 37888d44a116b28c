import AgzRustMcp.Foundation.Sha256
import AgzRustMcp.Gate.Scope

/-!
# Affected evidence and its changed set

`prepare` chooses the packages from the paths that the first identity found changed and publishes
those that the second one found.  So an edit between the two, in a package that the first one did
not find affected, is published as covered (`affected_evidence_consistent_iff`).
-/

namespace AgzRustMcp.Gate

/-- The packages that ran include every package that the published paths affect. -/
def ConsistentEvidence (snapshot : WorkspaceSnapshot) (evidence : GateEvidence) : Prop :=
  evidence.scope.strategy = .affected → (evidence.status = .fastPass ∨ evidence.status = .fullPass) →
    ∀ packages packageIds, affectedPackages snapshot evidence.scope.changedPaths = .ok (packages, packageIds) →
        packages ⊆ evidence.scope.packages

/-- A passing run with the first state's affected packages, ended in the second state. -/
structure GateRun.PassesAffected (run : GateRun) (sha : ByteArray → String)
    (first second last : SourceState) (packages packageIds : List String) : Prop where
  refused : run.refused = none
  packages_eq : run.request.options.packages = []
  selection : run.request.options.hasBuildSelection = false
  target : run.request.target ≠ .all ∧ run.request.target ≠ .fmt
  configured : run.configured = .affected
  first_eq : run.first = .ok first
  affected : affectedPackages run.snapshot first.changedPaths = .ok (packages, packageIds)
  second_eq : run.second = .ok second
  complete : second.complete = true
  interrupted : run.interrupted = none
  executed : (executeTargets run.request run.answers 0 (run.targets (packageArgs packages))).1 = .fastPass
  sccache : run.request.options.sccache = true → run.sccacheClosed = true
  last_eq : run.last = .ok last
  last_complete : last.complete = true
  last_hash : (run.identity sha (run.targets (packageArgs packages)) last).hash =
    (run.identity sha (run.targets (packageArgs packages)) second).hash

section

variable {run : GateRun} {sha : ByteArray → String} {first second last : SourceState}
  {packages packageIds : List String}

lemma targets_ne_nil (scopeArgs : List String) (h : run.request.target ≠ .all) : run.targets scopeArgs ≠ [] := by
  simp [GateRun.targets, targetFor, h]

lemma packageArgs_ne_workspace : packageArgs packages ≠ ["--workspace"] := by
  cases packages with
  | nil => simp [packageArgs]
  | cons package packages => simp [packageArgs]

lemma GateRun.PassesAffected.prepare (h : run.PassesAffected sha first second last packages packageIds) :
    run.prepare sha = .ok ⟨run.targets (packageArgs packages),
      run.identity sha (run.targets (packageArgs packages)) second,
      ⟨.affected, packages, packageIds, second.changedPaths, []⟩⟩ := by
  have hresolve : resolve run.snapshot run.request.options = .ok none := by
    rw [resolve, if_pos h.packages_eq]
  have hinitial : run.initialArgs none = ["--workspace"] := by
    simp [GateRun.initialArgs, h.target]
  have hscope : run.chosenScope none first.changedPaths =
      ⟨⟨.affected, packages, packageIds, first.changedPaths, []⟩, packageArgs packages⟩ := by
    simp [GateRun.chosenScope, h.packages_eq, h.selection, checkScope, h.target, h.configured, h.affected]
  unfold GateRun.prepare
  simp [h.refused, hresolve, hinitial, targets_ne_nil, h.target.1, h.first_eq, hscope,
    packageArgs_ne_workspace, h.second_eq]

lemma chosenScope_affected {explicitScope : Option CheckScope} {changedPaths : List FsPath}
    (hresolve : resolve run.snapshot run.request.options = .ok explicitScope)
    (h : (run.chosenScope explicitScope changedPaths).evidence.strategy = .affected) :
    explicitScope = none ∧ run.request.options.packages = [] ∧ run.request.options.hasBuildSelection = false ∧
      (run.request.target ≠ .all ∧ run.request.target ≠ .fmt) ∧ run.configured = .affected ∧
      ∃ packages packageIds, affectedPackages run.snapshot changedPaths = .ok (packages, packageIds) ∧
        run.chosenScope explicitScope changedPaths =
          ⟨⟨.affected, packages, packageIds, changedPaths, []⟩, packageArgs packages⟩ := by
  have hpackages : explicitScope = none ∧ run.request.options.packages = [] := by
    unfold resolve at hresolve
    split_ifs at hresolve with hnil
    · exact ⟨(Except.ok.inj hresolve).symm, hnil⟩
    · exfalso
      cases hnames : resolveNames run.snapshot run.request.options.cargoTarget
          (run.request.options.packages.dedup.insertionSort (· ≤ ·)) with
      | error reason => simp [hnames, Except.map] at hresolve
      | ok packageIds =>
        obtain rfl := by simpa [hnames, Except.map] using hresolve
        simp [GateRun.chosenScope, hnil] at h
  obtain ⟨rfl, hnil⟩ := hpackages
  unfold GateRun.chosenScope at h ⊢
  dsimp only [Option.getD_none] at h ⊢
  split_ifs at h ⊢ with hselection
  · simp [GateScope.ofWorkspace] at h
  have htarget : run.request.target ≠ .all ∧ run.request.target ≠ .fmt := by
    rw [← not_or]
    intro hfull
    simp [checkScope, hfull, GateScope.ofWorkspace] at h
  have hinitial : run.initialArgs none = ["--workspace"] := by
    simp [GateRun.initialArgs, htarget]
  have hbuild : run.request.options.hasBuildSelection = false := by
    by_contra hbuild
    exact hselection ⟨hnil, by simpa using hbuild, by simp [hinitial]⟩
  unfold checkScope at h ⊢
  rw [if_neg (by simpa using htarget)] at h ⊢
  cases hconfigured : run.configured with
  | workspace => simp [hconfigured, GateScope.ofWorkspace] at h
  | shadow =>
    rw [hconfigured] at h
    cases haffected : affectedPackages run.snapshot changedPaths with
    | error reason => simp [haffected] at h
    | ok found => simp [haffected] at h
  | affected =>
    rw [hconfigured] at h
    cases haffected : affectedPackages run.snapshot changedPaths with
    | error reason => simp [haffected, GateScope.ofWorkspace] at h
    | ok found => exact ⟨rfl, hnil, hbuild, htarget, rfl, found.1, found.2, rfl, rfl⟩

lemma prepare_affected {prepared : PreparedCheck} (h : run.prepare sha = .ok prepared)
    (hstrategy : prepared.scope.strategy = .affected) :
    ∃ first second packages packageIds, run.refused = none ∧ run.request.options.packages = [] ∧
      run.request.options.hasBuildSelection = false ∧
      (run.request.target ≠ .all ∧ run.request.target ≠ .fmt) ∧ run.configured = .affected ∧
      run.first = .ok first ∧ affectedPackages run.snapshot first.changedPaths = .ok (packages, packageIds) ∧
      run.second = .ok second ∧ prepared = ⟨run.targets (packageArgs packages),
        run.identity sha (run.targets (packageArgs packages)) second,
        ⟨.affected, packages, packageIds, second.changedPaths, []⟩⟩ := by
  unfold GateRun.prepare at h
  split at h
  · simp at h
  next hrefused =>
  split at h
  · simp at h
  next explicitScope hresolve =>
  dsimp only at h
  split at h
  · simp at h
  split at h
  · simp at h
  next first hfirst =>
  have hchosen : (run.chosenScope explicitScope first.changedPaths).evidence.strategy = .affected := by
    split_ifs at h
    · split at h
      · simp at h
      · rw [← Except.ok.inj h] at hstrategy
        exact hstrategy
    · rw [← Except.ok.inj h] at hstrategy
      exact hstrategy
  obtain ⟨rfl, hnil, hbuild, htarget, hconfigured, packages, packageIds, haffected, hscope⟩ :=
    chosenScope_affected hresolve hchosen
  have hinitial : run.initialArgs none = ["--workspace"] := by
    simp [GateRun.initialArgs, htarget]
  rw [hscope, hinitial, if_pos ⟨by simp, packageArgs_ne_workspace⟩] at h
  split at h
  · simp at h
  next second hsecond =>
  exact ⟨first, second, packages, packageIds, hrefused, hnil, hbuild, htarget, hconfigured, hfirst,
    haffected, hsecond, (Except.ok.inj h).symm⟩

/-! ## The evidence -/

lemma executeTargets_ne_fullPass (request : GateRequest) (answers : ℕ → Option GateStepResult)
    (index : ℕ) (targets : List GateTarget) : (executeTargets request answers index targets).1 ≠ .fullPass := by
  induction targets generalizing index with
  | nil => simp [executeTargets]
  | cons target targets ih =>
    unfold executeTargets
    split
    · simp
    next answer _ =>
    dsimp only
    split
    · have hstep : ∀ step, stepStatus request step ≠ .fullPass := by
        intro step
        unfold stepStatus
        split_ifs <;> simp
      exact hstep _
    · exact ih (index + 1)

lemma executed_eq_fastPass_iff {prepared : PreparedCheck} :
    run.executed prepared = .fastPass ↔ (executeTargets run.request run.answers 0 prepared.targets).1 = .fastPass ∧
        (run.request.options.sccache = true → run.sccacheClosed = true) := by
  unfold GateRun.executed
  split_ifs with hclosed
  · simp [hclosed]
  · simp only [not_and, Bool.not_eq_false] at hclosed
    exact (and_iff_left hclosed).symm

lemma checked_eq_fastPass_iff {prepared : PreparedCheck} {status : GateStatus} :
    run.checked sha prepared status = .fastPass ↔ status = .fastPass ∧
      ∃ last, run.last = .ok last ∧ last.complete = true ∧
        (run.identity sha prepared.targets last).hash = prepared.identity.hash := by
  unfold GateRun.checked
  split_ifs with hverdict
  · cases hlast : run.last with
    | error error => cases error <;> simp
    | ok last =>
      dsimp only
      split_ifs with hstale
      · have hnot : ¬ (last.complete = true ∧
            (run.identity sha prepared.targets last).hash = prepared.identity.hash) := by
          rintro ⟨hcomplete, hhash⟩
          rcases hstale with hincomplete | hother
          · exact absurd (hcomplete.symm.trans hincomplete) (by decide)
          · exact hother hhash
        constructor
        · simp
        · rintro ⟨-, other, hother, hkept⟩
          obtain rfl := Except.ok.inj hother
          exact absurd hkept hnot
      · push Not at hstale
        have hcomplete : last.complete = true := Bool.eq_true_of_not_eq_false hstale.1
        exact ⟨fun h => ⟨h, last, rfl, hcomplete, hstale.2⟩, fun h => h.1⟩
  · constructor
    · exact fun h => absurd (Or.inl h) hverdict
    · exact fun h => absurd (Or.inl h.1) hverdict

lemma checked_ne_fullPass {prepared : PreparedCheck} {status : GateStatus}
    (h : status ≠ .fullPass) : run.checked sha prepared status ≠ .fullPass := by
  unfold GateRun.checked
  split_ifs
  · split
    · simp
    · simp
    · simp
    · dsimp only
      split_ifs
      · simp
      · exact h
  · exact h

lemma verdict_passes_iff {prepared : PreparedCheck} :
    (run.verdict sha prepared = .fastPass ∨ run.verdict sha prepared = .fullPass) ↔
      ((executeTargets run.request run.answers 0 prepared.targets).1 = .fastPass ∧
        (run.request.options.sccache = true → run.sccacheClosed = true)) ∧
        ∃ last, run.last = .ok last ∧ last.complete = true ∧
          (run.identity sha prepared.targets last).hash = prepared.identity.hash := by
  have hexecuted : run.executed prepared ≠ .fullPass := by
    unfold GateRun.executed
    split_ifs
    · simp
    · exact executeTargets_ne_fullPass _ _ _ _
  have hchecked : run.checked sha prepared (run.executed prepared) ≠ .fullPass :=
    checked_ne_fullPass hexecuted
  rw [← executed_eq_fastPass_iff, ← checked_eq_fastPass_iff]
  unfold GateRun.verdict
  dsimp only
  split_ifs with hall
  · simp [hall.1]
  · exact or_iff_left hchecked

lemma evidence_passes_affected (hstrategy : (run.evidence sha).scope.strategy = .affected)
    (hstatus : (run.evidence sha).status = .fastPass ∨ (run.evidence sha).status = .fullPass) :
    ∃ first second last packages packageIds, run.PassesAffected sha first second last packages packageIds := by
  unfold GateRun.evidence at hstrategy hstatus
  split at hstrategy
  · simp [terminalEvidence] at hstrategy
  next prepared hprepare =>
  rw [hprepare] at hstatus
  dsimp only at hstatus
  split_ifs at hstrategy hstatus with hcomplete
  · simp [terminalEvidence] at hstrategy
  split at hstrategy
  · simp [terminalEvidence] at hstrategy
  next hinterrupted =>
  rw [hinterrupted] at hstatus
  obtain ⟨first, second, packages, packageIds, hrefused, hnil, hbuild, htarget, hconfigured, hfirst,
    haffected, hsecond, rfl⟩ := prepare_affected hprepare hstrategy
  obtain ⟨⟨hexecuted, hsccache⟩, last, hlast, hlastComplete, hhash⟩ := verdict_passes_iff.mp hstatus
  exact ⟨first, second, last, packages, packageIds, hrefused, hnil, hbuild, htarget, hconfigured,
    hfirst, haffected, hsecond, Bool.eq_true_of_not_eq_false hcomplete, hinterrupted, hexecuted, hsccache, hlast,
    hlastComplete, hhash⟩

lemma GateRun.PassesAffected.evidence (h : run.PassesAffected sha first second last packages packageIds) :
    ((run.evidence sha).status = .fastPass ∨ (run.evidence sha).status = .fullPass) ∧
      (run.evidence sha).scope = ⟨.affected, packages, packageIds, second.changedPaths, []⟩ := by
  have hcomplete : (run.identity sha (run.targets (packageArgs packages)) second).complete = true :=
    h.complete
  unfold GateRun.evidence
  simp only [h.prepare, hcomplete, h.interrupted, Bool.true_eq_false, if_false]
  refine ⟨verdict_passes_iff.mpr ?_, rfl⟩
  exact ⟨⟨h.executed, h.sccache⟩, last, h.last_eq, h.last_complete, h.last_hash⟩

end

/-! ## Consistent evidence -/

/-- Affected evidence is consistent exactly when the second state of a passing run affects nothing else.
-/
theorem affected_evidence_consistent_iff (run : GateRun) (sha : ByteArray → String) :
    ConsistentEvidence run.snapshot (run.evidence sha) ↔ ∀ first second last packages packageIds,
        run.PassesAffected sha first second last packages packageIds → ∀ packages' packageIds',
            affectedPackages run.snapshot second.changedPaths = .ok (packages', packageIds') →
              packages' ⊆ packages := by
  constructor
  · intro h first second last packages packageIds hpasses packages' packageIds' haffected
    obtain ⟨hstatus, hscope⟩ := hpasses.evidence
    have hconsistent := h (by rw [hscope]) hstatus
    rw [hscope] at hconsistent
    exact hconsistent packages' packageIds' haffected
  · intro h hstrategy hstatus packages' packageIds' haffected
    obtain ⟨first, second, last, packages, packageIds, hpasses⟩ :=
      evidence_passes_affected hstrategy hstatus
    obtain ⟨-, hscope⟩ := hpasses.evidence
    rw [hscope] at haffected ⊢
    exact h first second last packages packageIds hpasses packages' packageIds' haffected

/-! ## An edit between the two identities -/

/-- The library of a package below `/ws`. -/
def libraryOf (name : String) : CargoTarget where
  name := name
  kind := [.lib]
  doctest := true
  test := true
  srcPath := ["ws", name, "src", "lib.rs"]
  requiredFeatures := []

/-- A workspace with the packages `a` and `b`, which do not depend on each other. -/
def twoPackages : WorkspaceSnapshot where
  canonicalWorktree := ["ws"]
  manifestPath := "/ws/Cargo.toml"
  isVirtual := true
  packages := [⟨"a 0.1.0", "a", [libraryOf "a"]⟩, ⟨"b 0.1.0", "b", [libraryOf "b"]⟩]
  workspaceMembers := ["a 0.1.0", "b 0.1.0"]
  nodes := [{ packageId := "a 0.1.0", name := "a", root := ["ws", "a"], workspaceMember := true },
    { packageId := "b 0.1.0", name := "b", root := ["ws", "b"], workspaceMember := true }]
  edges := []
  externalPaths := []

/-- The sources with an edit of `a`. -/
def editedOnce : SourceState := ⟨"one", [["a", "src", "lib.rs"]], true⟩

/-- The sources with an edit of `a` and one of `b`. -/
def editedTwice : SourceState := ⟨"two", [["a", "src", "lib.rs"], ["b", "src", "lib.rs"]], true⟩

/-- A check of affected packages; `b` is edited between the identities. -/
def overtakenCheck : GateRun where
  request := ⟨{}, false, .check, false⟩
  snapshot := twoPackages
  configured := .affected
  cargo := "/usr/bin/cargo"
  toolchain := none
  environment := []
  refused := none
  first := .ok editedOnce
  second := .ok editedTwice
  interrupted := none
  answers := fun _ => some ⟨.check, 0, false, false, 10, true, true, { stdout := [] }, none⟩
  sccacheClosed := true
  last := .ok editedTwice

lemma passesAffected_overtakenCheck :
    overtakenCheck.PassesAffected Sha256.sha256Hex editedOnce editedTwice editedTwice ["a"] ["a 0.1.0"] where
  refused := rfl
  packages_eq := rfl
  selection := rfl
  target := by decide
  configured := rfl
  first_eq := rfl
  affected := by decide +kernel
  second_eq := rfl
  complete := rfl
  interrupted := rfl
  executed := by decide +kernel
  sccache := by decide
  last_eq := rfl
  last_complete := rfl
  last_hash := rfl

/-- The edit of `b` is published as covered by a pass of `a` alone. -/
theorem edit_of_other_package_is_covered :
    ¬ ∀ (run : GateRun) (sha : ByteArray → String), ConsistentEvidence run.snapshot (run.evidence sha) := by
  intro h
  obtain ⟨hstatus, hscope⟩ := passesAffected_overtakenCheck.evidence
  have hconsistent := h overtakenCheck Sha256.sha256Hex (by rw [hscope]) hstatus
  rw [hscope] at hconsistent
  have haffected : affectedPackages overtakenCheck.snapshot editedTwice.changedPaths =
      .ok (["a", "b"], ["a 0.1.0", "b 0.1.0"]) := by decide +kernel
  have hb := hconsistent _ _ haffected (List.mem_cons_of_mem _ List.mem_cons_self)
  simp at hb

end AgzRustMcp.Gate
