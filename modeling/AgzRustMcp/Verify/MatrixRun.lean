import AgzRustMcp.Verify.PlanIds

/-!
# The verdict of a matrix run

`run_plan` goes through the cells of a plan.  A cell may be stopped before it starts, and the client
or the wall time may take its verdict away.  Its identifier goes to one of two lists
(`runCell_spec`), and the verdict of the run is read off those: `matrix_verdict_honest`.
-/

namespace AgzRustMcp.Verify

/-! ## Outcomes -/

def CellStatus.asStr : CellStatus → String
  | .planned => "PLANNED"
  | .pass => "PASS"
  | .fail => "FAIL"
  | .notInstalled => "NOT_INSTALLED"
  | .runnerUnavailable => "RUNNER_UNAVAILABLE"
  | .skippedBudget => "SKIPPED_BUDGET"
  | .skippedCancelled => "SKIPPED_CANCELLED"
  | .unsupportedConfiguration => "UNSUPPORTED_CONFIGURATION"
  | .timeout => "TIMEOUT"
  | .cancelled => "CANCELLED"
  | .inconclusive => "INCONCLUSIVE"
  | .resourceBlocked => "RESOURCE_BLOCKED"

def CellStatus.isCompleted (status : CellStatus) : Bool := status = .pass || status = .fail

/-- `CellOutcome`: the planned cell and what became of it. -/
structure CellOutcome where
  cell : PlannedCell
  status : String
  reason : String
  gateStatus : Option String
  packageIds : List String
  testExecutionClaimed : Bool

def plannedCell (cell : PlannedCell) : CellOutcome where
  cell := cell
  status := CellStatus.planned.asStr
  reason := "planned; not executed by matrix_plan"
  gateStatus := none
  packageIds := []
  testExecutionClaimed := false

def stoppedCell (planned : CellOutcome) (status : CellStatus) (reason : String) : CellOutcome :=
  { planned with status := status.asStr, reason := reason }

def executedCell (planned : CellOutcome) (status : CellStatus) (reason : String)
    (evidence : Gate.GateEvidence) : CellOutcome :=
  { planned with
    status := status.asStr
    reason := reason
    gateStatus := some evidence.status.asStr
    packageIds := evidence.scope.packageIds
    testExecutionClaimed := evidence.steps.any fun step =>
      step.target = .test && 0 < step.output.stats.testsExecuted.getD 0 }

def gateReason (evidence : Gate.GateEvidence) : String :=
  let failed := evidence.steps.countP fun step => step.exitCode ≠ 0
  if failed = 0 then evidence.message else evidence.message ++ "; " ++ toString failed ++ " failing step(s)"

/-- `VerifyOutcome` of a matrix run. -/
structure MatrixOutcome where
  status : String
  complete : Bool
  allPass : Bool
  cells : List CellOutcome
  completedCellIds : List String
  missingCellIds : List String
  executed : ℕ
  reason : String

/-! ## The run -/

/-- What a run meets at a cell: an end before it or by its end, and the answer. -/
structure CellAnswer where
  cancelled : Bool
  expired : Bool
  evidence : Gate.GateEvidence
  cancelledAfter : Bool
  expiredAfter : Bool

/-- The variables of the loop of `run_plan`. -/
structure MatrixLoop where
  executed : ℕ
  completed : List String
  missing : List String
  cells : List CellOutcome
  budgetExhausted : Bool

/-- The loop before the first cell. -/
def MatrixLoop.start : MatrixLoop := ⟨0, [], [], [], false⟩

/-- A cell that does not start. -/
def MatrixLoop.stop (loop : MatrixLoop) (cell : PlannedCell) (status : CellStatus) (reason : String) : MatrixLoop :=
  { loop with
    cells := loop.cells ++ [stoppedCell (plannedCell cell) status reason]
    missing := loop.missing ++ [cell.id] }

/-- The status and the reason of a cell for which the gate has run. -/
def executedStatus (answer : CellAnswer) : CellStatus × String :=
  if answer.cancelledAfter then (.cancelled, "matrix run was cancelled by the client")
  else if answer.expiredAfter then
    (.skippedBudget, "verify.maxWallMs budget expired while this cell was running")
  else (mapGateStatus answer.evidence.status, gateReason answer.evidence)

def MatrixLoop.run (loop : MatrixLoop) (cell : PlannedCell) (answer : CellAnswer) : MatrixLoop :=
  let (status, reason) := executedStatus answer
  { executed := loop.executed + 1
    completed := if status.isCompleted then loop.completed ++ [cell.id] else loop.completed
    missing := if status.isCompleted then loop.missing else loop.missing ++ [cell.id]
    cells := loop.cells ++ [executedCell (plannedCell cell) status reason answer.evidence]
    budgetExhausted := loop.budgetExhausted || (!answer.cancelledAfter && answer.expiredAfter) }

/-- One cell of `run_plan`. -/
def runCell (maxCells : ℕ) (loop : MatrixLoop) (entry : PlannedCell × CellAnswer) : MatrixLoop :=
  let (cell, answer) := entry
  if answer.cancelled then
    loop.stop cell .skippedCancelled "run stopped after client cancellation before this cell started"
  else if loop.budgetExhausted || maxCells ≤ loop.executed || answer.expired then
    { loop.stop cell .skippedBudget <|
        if maxCells ≤ loop.executed then "verify.maxCells budget exhausted before this cell started"
        else "verify.maxWallMs budget exhausted before this cell started" with
      budgetExhausted := true }
  else loop.run cell answer

/-- `run_plan`, with what is met at each cell. -/
def runPlan (plan : MatrixPlan) (maxCells : ℕ) (answers : ℕ → CellAnswer) : MatrixOutcome :=
  let entries := plan.cells.zipIdx.map fun (cell, index) => (cell, answers index)
  let loop := entries.foldl (runCell maxCells) .start
  let missing := plan.skipped.map SkippedCell.id ++ loop.missing
  let complete := missing.isEmpty && !loop.cells.isEmpty
  let count := fun status : CellStatus => loop.cells.countP fun cell => cell.status = status.asStr
  { status := if complete then "FULL_REQUESTED_MATRIX" else "PARTIAL"
    complete := complete
    allPass := complete && loop.cells.all fun cell => cell.status = CellStatus.pass.asStr
    cells := loop.cells
    completedCellIds := loop.completed
    missingCellIds := missing
    executed := loop.executed
    reason := if complete then
        s!"every requested cell completed: {count .pass} pass, {count .fail} fail"
      else
        s!"{loop.completed.length} completed cell(s), {missing.length} missing cell(s); skipped or " ++
          "incomplete cells never grant a pass" }

/-! ## What one cell does -/

variable {maxCells : ℕ} {loop : MatrixLoop}

/-- What holds between two cells, of the cells that are done. -/
structure MatrixLoop.Sound (loop : MatrixLoop) (maxCells : ℕ) (done : List PlannedCell) : Prop where
  cells : loop.cells.map CellOutcome.cell = done
  ids : (loop.completed ++ loop.missing).Perm (done.map fun cell => cell.id)
  executed : loop.cells.countP (fun outcome => outcome.gateStatus.isSome) = loop.executed
  bound : loop.executed ≤ maxCells
  settled : ∀ outcome ∈ loop.cells, outcome.status = "PASS" ∨ outcome.status = "FAIL" ∨ outcome.cell.id ∈ loop.missing

lemma sound_start_loop (maxCells : ℕ) : MatrixLoop.start.Sound maxCells [] :=
  ⟨rfl, List.Perm.refl _, rfl, Nat.zero_le _, fun _ h => absurd h List.not_mem_nil⟩

lemma asStr_of_isCompleted {status : CellStatus} (h : status.isCompleted = true) :
    status.asStr = "PASS" ∨ status.asStr = "FAIL" := by
  cases status <;> first | exact Or.inl rfl | exact Or.inr rfl | exact absurd h (by decide)

variable {done : List PlannedCell}

lemma MatrixLoop.Sound.stop (h : loop.Sound maxCells done) (cell : PlannedCell) (status : CellStatus)
    (reason : String) : (loop.stop cell status reason).Sound maxCells (done ++ [cell]) := by
  constructor
  · rw [MatrixLoop.stop, List.map_append, h.cells]
    rfl
  · rw [MatrixLoop.stop, ← List.append_assoc, List.map_append]
    exact h.ids.append_right _
  · rw [MatrixLoop.stop, List.countP_append, h.executed]
    rfl
  · exact h.bound
  · intro outcome houtcome
    rcases List.mem_append.mp houtcome with hold | hnew
    · exact (h.settled outcome hold).imp_right fun hrest => hrest.imp_right (List.mem_append_left _)
    · obtain rfl := List.mem_singleton.mp hnew
      exact Or.inr (Or.inr (List.mem_append_right _ (List.mem_singleton.mpr rfl)))

lemma MatrixLoop.Sound.run (h : loop.Sound maxCells done) (cell : PlannedCell) (answer : CellAnswer)
    (hroom : loop.executed < maxCells) : (loop.run cell answer).Sound maxCells (done ++ [cell]) := by
  unfold MatrixLoop.run
  generalize executedStatus answer = verdict
  obtain ⟨status, reason⟩ := verdict
  constructor
  · rw [List.map_append, h.cells]
    rfl
  · dsimp only
    rw [List.map_append, List.map_singleton]
    split_ifs
    · rw [List.append_assoc]
      have hswap : (loop.completed ++ ([cell.id] ++ loop.missing)).Perm
          (loop.completed ++ (loop.missing ++ [cell.id])) :=
        (List.perm_append_comm).append_left _
      refine hswap.trans ?_
      rw [← List.append_assoc]
      exact h.ids.append_right _
    · rw [← List.append_assoc]
      exact h.ids.append_right _
  · rw [List.countP_append, h.executed]
    rfl
  · exact hroom
  · intro outcome houtcome
    rcases List.mem_append.mp houtcome with hold | hnew
    · refine (h.settled outcome hold).imp_right fun hrest => hrest.imp_right fun hmem => ?_
      dsimp only
      split_ifs
      · exact hmem
      · exact List.mem_append_left _ hmem
    · obtain rfl := List.mem_singleton.mp hnew
      by_cases hcompleted : status.isCompleted = true
      · exact (asStr_of_isCompleted hcompleted).imp_right Or.inl
      · refine Or.inr (Or.inr ?_)
        dsimp only
        rw [if_neg hcompleted]
        exact List.mem_append_right _ (List.mem_singleton.mpr rfl)

/-- Every cell goes to one of the two lists. -/
theorem runCell_spec (h : loop.Sound maxCells done) (entry : PlannedCell × CellAnswer) :
    (runCell maxCells loop entry).Sound maxCells (done ++ [entry.1]) := by
  unfold runCell
  dsimp only
  by_cases hcancelled : entry.2.cancelled = true
  · rw [if_pos hcancelled]
    exact h.stop _ _ _
  rw [if_neg hcancelled]
  by_cases hbudget : (loop.budgetExhausted || decide (maxCells ≤ loop.executed) || entry.2.expired) = true
  · rw [if_pos hbudget]
    have hstop := h.stop entry.1 .skippedBudget
      (if maxCells ≤ loop.executed then "verify.maxCells budget exhausted before this cell started"
        else "verify.maxWallMs budget exhausted before this cell started")
    exact ⟨hstop.cells, hstop.ids, hstop.executed, hstop.bound, hstop.settled⟩
  · rw [if_neg hbudget]
    simp only [Bool.or_eq_true, decide_eq_true_eq, not_or, not_le] at hbudget
    exact h.run _ _ hbudget.1.2

lemma sound_runCells (entries : List (PlannedCell × CellAnswer)) (h : loop.Sound maxCells done) :
    (entries.foldl (runCell maxCells) loop).Sound maxCells (done ++ entries.map Prod.fst) := by
  induction entries generalizing loop done with
  | nil =>
    rw [List.map_nil, List.append_nil]
    exact h
  | cons entry entries ih =>
    rw [List.foldl_cons, List.map_cons, List.append_cons]
    exact ih (runCell_spec h entry)

/-! ## What a run says -/

lemma sound_runPlan (plan : MatrixPlan) (maxCells : ℕ) (answers : ℕ → CellAnswer) :
    ∃ loop : MatrixLoop, loop.Sound maxCells plan.cells ∧ (runPlan plan maxCells answers).cells = loop.cells ∧
      (runPlan plan maxCells answers).completedCellIds = loop.completed ∧
      (runPlan plan maxCells answers).missingCellIds = plan.skipped.map SkippedCell.id ++ loop.missing ∧
      (runPlan plan maxCells answers).executed = loop.executed := by
  have hrun := sound_runCells (plan.cells.zipIdx.map fun (cell, index) => (cell, answers index))
    (sound_start_loop maxCells)
  rw [List.nil_append, List.map_map] at hrun
  have hfst : (plan.cells.zipIdx.map (Prod.fst ∘ fun (cell, index) => (cell, answers index))) =
      plan.cells := List.zipIdx_map_fst 0 plan.cells
  rw [hfst] at hrun
  exact ⟨_, hrun, rfl, rfl, rfl, rfl⟩

/-- The identifiers are different, each cell is counted once, as completed or as missing, and
everything skipped is missing; no more cells run than are allowed; a full matrix settled every cell,
and a pass passed every cell. -/
theorem matrix_verdict_honest (input : PlanInput) (maxCells : ℕ) (answers : ℕ → CellAnswer) :
    let plan := buildPlan input maxCells
    let outcome := runPlan plan maxCells answers
    (plan.cells.map fun cell => cell.id).Nodup ∧ outcome.cells.map CellOutcome.cell = plan.cells ∧
      (∀ cell ∈ plan.cells, outcome.completedCellIds.count cell.id + outcome.missingCellIds.count cell.id = 1) ∧
      (∀ skipped ∈ plan.skipped, skipped.id ∈ outcome.missingCellIds) ∧
      (outcome.cells.countP (fun cell => cell.gateStatus.isSome) = outcome.executed ∧ outcome.executed ≤ maxCells) ∧
      (outcome.status = "FULL_REQUESTED_MATRIX" ↔ outcome.complete = true) ∧
      (outcome.complete = true → plan.skipped = [] ∧ plan.cells ≠ [] ∧
        ∀ cell ∈ outcome.cells, cell.status = "PASS" ∨ cell.status = "FAIL") ∧
      (outcome.allPass = true → outcome.complete = true ∧ ∀ cell ∈ outcome.cells, cell.status = "PASS") := by
  intro plan outcome
  obtain ⟨loop, hloop, hcells, hcompleted, hmissing, hexecuted⟩ := sound_runPlan plan maxCells answers
  have hnodup : (plan.cells.map fun cell => cell.id).Nodup := nodup_buildPlan input maxCells
  refine ⟨hnodup, ?_, ?_, ?_, ?_, ?_, ?_, ?_⟩
  · rw [hcells, hloop.cells]
  · intro cell hcell
    have hskipped : (plan.skipped.map SkippedCell.id).count cell.id = 0 := by
      refine List.count_eq_zero.mpr fun hmem => ?_
      obtain ⟨skipped, hskip, hid⟩ := List.mem_map.mp hmem
      exact skipped_notMem_cells hskip (hid ▸ List.mem_map.mpr ⟨cell, hcell, rfl⟩)
    have hcount := hloop.ids.count_eq cell.id
    rw [List.count_append, List.count_eq_one_of_mem hnodup (List.mem_map.mpr ⟨cell, hcell, rfl⟩)] at hcount
    rw [hcompleted, hmissing, List.count_append, hskipped]
    omega
  · intro skipped hskip
    rw [hmissing]
    exact List.mem_append_left _ (List.mem_map.mpr ⟨skipped, hskip, rfl⟩)
  · rw [hcells, hexecuted]
    exact ⟨hloop.executed, hloop.bound⟩
  · change (if outcome.complete = true then "FULL_REQUESTED_MATRIX" else "PARTIAL") = _ ↔ _
    split_ifs with hcomplete
    · exact ⟨fun _ => hcomplete, fun _ => rfl⟩
    · exact ⟨fun h => absurd h (by decide), fun h => absurd h hcomplete⟩
  · intro hcomplete
    have hboth : (outcome.missingCellIds.isEmpty && !outcome.cells.isEmpty) = true := hcomplete
    rw [Bool.and_eq_true, List.isEmpty_iff, hmissing, hcells] at hboth
    obtain ⟨hnone, hsome⟩ := hboth
    obtain ⟨hskipped, hrest⟩ := List.append_eq_nil_iff.mp hnone
    refine ⟨List.map_eq_nil_iff.mp hskipped, ?_, fun cell hcell => ?_⟩
    · intro hempty
      have hcellsNil := hloop.cells
      rw [hempty, List.map_eq_nil_iff] at hcellsNil
      rw [hcellsNil] at hsome
      exact absurd hsome (by decide)
    · rw [hcells] at hcell
      rcases hloop.settled cell hcell with hpass | hfail | hmem
      · exact Or.inl hpass
      · exact Or.inr hfail
      · rw [hrest] at hmem
        exact absurd hmem List.not_mem_nil
  · intro hpass
    have hboth : (outcome.complete && outcome.cells.all
        fun cell => cell.status = CellStatus.pass.asStr) = true := hpass
    rw [Bool.and_eq_true, List.all_eq_true] at hboth
    exact ⟨hboth.1, fun cell hcell => of_decide_eq_true (hboth.2 cell hcell)⟩

end AgzRustMcp.Verify
