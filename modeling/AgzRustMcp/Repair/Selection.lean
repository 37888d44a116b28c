import AgzRustMcp.Repair.CandidateSound
import AgzRustMcp.Repair.Minimize

/-!
# The selection among repair candidates

`run_candidates` of `repair/service.rs` tries its candidates in order, each hash once and within the budget,
and `select` of `repair/analysis.rs` ranks the measured ones.  A selection rests on a fresh run of the candidate
that is selected (`selection_earned`).
-/

namespace AgzRustMcp

/-! ## The ranking -/

namespace RepairCandidateData

def behaviorPreserving (candidate : RepairCandidateData) : Bool := candidate.impacts.isEmpty

def compiled (candidate : RepairCandidateData) : Bool := candidate.compile = some "compiled"

def testPassed (candidate : RepairCandidateData) : Bool :=
  candidate.gate.any fun gate => gate.buildSuccess = some true && gate.status ≠ "FAIL"

def errorCount (candidate : RepairCandidateData) : ℕ :=
  candidate.diagnostics.countP fun diagnostic => diagnostic.level = "error"

def changedLines (candidate : RepairCandidateData) : ℕ :=
  candidate.changed.elim 0 fun changed => saturatingAdd changed.linesAdded changed.linesRemoved

/-- What `select` sorts by. -/
def rank (candidate : RepairCandidateData) : ℕ ×ₗ ℕ ×ₗ String :=
  toLex (candidate.errorCount, toLex (candidate.changedLines, candidate.id))

/-- `select` may choose the candidate. -/
def selectable (testTarget : Option String) (candidate : RepairCandidateData) : Bool :=
  candidate.status = "measured" && candidate.compiled && candidate.behaviorPreserving &&
    (testTarget.isNone || candidate.testPassed)

def eliminationReason (testTarget : Option String) (candidate : RepairCandidateData) : String :=
  if candidate.status ∈ ["duplicate", "budgetExhausted", "rejected", "unsupported", "unavailable", "staleBase",
      "cleanupFailure"] then truncate candidate.reason 320
  else if candidate.status ≠ "measured" then "candidate was not measured"
  else if !candidate.compiled then "candidate did not compile"
  else if !candidate.behaviorPreserving then
    "candidate adds behavior/performance impacts: " ++ ", ".intercalate (candidate.impacts.map RepairImpactData.kind)
  else
    match testTarget with
    | some target =>
      if candidate.testPassed then "another candidate ranked higher" else s!"requested test gate `{target}` did not pass"
    | none => "another candidate ranked higher"

end RepairCandidateData

structure RepairSelectionData where
  id : String
  reason : String
  verification : String
  patches : List PatchInput

structure RepairEliminationData where
  id : String
  reason : String

namespace Repair

/-- The selectable candidates, the best one first. -/
def ranked (candidates : List RepairCandidateData) (testTarget : Option String) : List RepairCandidateData :=
  (candidates.filter (·.selectable testTarget)).insertionSort fun left right => left.rank ≤ right.rank

def select (candidates : List RepairCandidateData) (testTarget : Option String) :
    Option RepairSelectionData × List RepairEliminationData × List String :=
  let selected := (ranked candidates testTarget).head?
  let eliminated := (candidates.filter fun candidate => selected.map RepairCandidateData.id ≠ some candidate.id).map
    fun candidate => ⟨candidate.id, candidate.eliminationReason testTarget⟩
  let risks := if testTarget.isSome then []
    else ["No test gate was requested; the comparison is compile-verified only."]
  match selected with
  | none => (none, eliminated, risks ++ ["No candidate satisfied every selection rule (compile pass, no candidate-added impact, requested test gate when present)."])
  | some selected =>
    let verification := if testTarget.isSome then "testVerified" else "compileVerified"
    let inherited := ", ".intercalate (selected.inheritedImpacts.map RepairImpactData.kind)
    (some ⟨selected.id, s!"Selected {selected.id} after real compile measurement ({selected.errorCount} error diagnostic(s), {selected.changedLines} changed line(s)); verification is {verification}.",
      verification, selected.patches⟩, eliminated,
      risks ++ if selected.inheritedImpacts.isEmpty then []
        else [s!"Selected candidate inherits pre-existing impacts from the base change: {inherited}."])

/-! ## The loop -/

/-- A candidate as `RepairCandidateData::new` makes it, with what is met when its turn comes. -/
structure CompareTurn where
  id : String
  source : String
  hash : String
  patches : List PatchInput
  cancelled : Bool
  elapsedMs : ℕ
  env : CandidateEnv

def CompareTurn.candidate (turn : CompareTurn) : RepairCandidateData :=
  { id := turn.id, source := turn.source, hash := turn.hash, patches := turn.patches }

/-- The locals of the loop of `run_candidates`. -/
structure CompareState where
  results : List RepairCandidateData
  seenHashes : List String
  candidatesUsed : ℕ
  compilesUsed : ℕ

inductive CompareEnd
  | finished (state : CompareState) (stopReason : String)
  | abort (status stopReason reason : String)

namespace CompareState

def new : CompareState := ⟨[], [], 0, 0⟩

def push (state : CompareState) (row : RepairCandidateData) : CompareState :=
  { state with results := state.results ++ [row] }

/-- `budget_stop`, with the detail. -/
def budgetStop (budget : RepairBudget) (state : CompareState) (elapsedMs : ℕ) : Option (String × String) :=
  if budget.maxCandidates ≤ state.candidatesUsed then
    some ("maxCandidates", "candidate budget (maxCandidates) was exhausted")
  else if budget.maxCompiles ≤ state.compilesUsed then
    some ("maxCompiles", "compile budget (maxCompiles) was exhausted")
  else if budget.wallTimeMs < elapsedMs then some ("wallTimeMs", "wall-clock budget (wallTimeMs) was exhausted")
  else none

end CompareState

def CompareTurn.duplicate (turn : CompareTurn) : RepairCandidateData :=
  { turn.candidate with
    status := "duplicate", reason := "identical candidate hash was already tried in this action" }

def CompareTurn.exhausted (detail : String) (turn : CompareTurn) : RepairCandidateData :=
  { turn.candidate with status := "budgetExhausted", reason := detail }

section Run

variable (guards : Guards) (base : ChangeData) (basePatches : List PatchInput)
  (baseNewFiles : List NewFileInput) (target : String) (budget : RepairBudget)

/-- The loop of `run_candidates`. -/
def runTurns (state : CompareState) : List CompareTurn → CompareEnd
  | [] => .finished state "completed"
  | turn :: turns =>
    if turn.hash ∈ state.seenHashes then runTurns (state.push turn.duplicate) turns
    else if turn.cancelled then
      .abort "CANCELLED" "cancelled" "repair was cancelled before the candidate could be tried"
    else
      match state.budgetStop budget turn.elapsedMs with
      | some (reason, detail) =>
        .finished { state with results := state.results ++ (turn :: turns).map (·.exhausted detail) } reason
      | none =>
        let tried := { state with
          seenHashes := turn.hash :: state.seenHashes, candidatesUsed := state.candidatesUsed + 1 }
        match (runCandidate guards base basePatches baseNewFiles target turn.env turn.candidate []).1 with
        | .measured result => runTurns { tried.push result with compilesUsed := state.compilesUsed + 1 } turns
        | .rejected result => runTurns (tried.push result) turns
        | .abort status stopReason reason => .abort status stopReason reason

end Run

/-! ## One run -/

section

variable (guards : Guards) (base : ChangeData) (basePatches : List PatchInput) (baseNewFiles : List NewFileInput)
  (env : CandidateEnv) (candidate : RepairCandidateData)

inductive RunEnd : CandidateRun → Prop
  | measured (id : String) (row : ChangeEvidenceData) (hreplayed : Replayed basePatches baseNewFiles env)
      (hstaged : env.stage.status = "STAGED") (hrow : freshRow env.validate.data = some row)
      (hcomplete : row.diagnosticsOmitted = 0) :
      RunEnd (.measured (measuredResult guards base basePatches env
        { candidate with changeId := some id, revision := some env.stage.data.revision } row))
  | rejected (result : RepairCandidateData) (hid : result.id = candidate.id)
      (hstatus : result.status = "rejected" ∨ result.status = "unavailable") : RunEnd (.rejected result)
  | abort (status stopReason reason : String) : RunEnd (.abort status stopReason reason)

end

section

variable {guards : Guards} {base : ChangeData} {basePatches : List PatchInput} {baseNewFiles : List NewFileInput}
  {target : String} {env : CandidateEnv} {candidate row : RepairCandidateData} {id baseIdentity : String}
  {revision : ℕ} {issued : List ChangeRequest} {budget : RepairBudget} {turns rest : List CompareTurn}
  {turn : CompareTurn} {state : CompareState}

lemma runEnd_validateCandidate (hreplayed : Replayed basePatches baseNewFiles env)
    (hstaged : env.stage.status = "STAGED") :
    RunEnd guards base basePatches baseNewFiles env candidate (validateCandidate guards base basePatches target env
      { candidate with changeId := some id, revision := some env.stage.data.revision } id baseIdentity revision
      issued).1 := by
  simp only [validateCandidate, issue_bind, ite_candidate, discardCandidate_bind, pure_candidate]
  split_ifs
  · exact .abort ..
  · exact .abort ..
  · exact .abort ..
  · cases hrow : freshRow env.validate.data with
    | none => exact .abort ..
    | some row =>
      simp only [ite_candidate, pure_candidate]
      split_ifs with homitted
      · exact .abort ..
      · exact .measured id row hreplayed hstaged hrow (Nat.eq_zero_of_not_pos homitted)

lemma runEnd_stageCandidate (hreplayed : Replayed basePatches baseNewFiles env) :
    RunEnd guards base basePatches baseNewFiles env candidate (stageCandidate guards base basePatches target env
      { candidate with changeId := some id } id baseIdentity revision issued).1 := by
  simp only [stageCandidate, issue_bind, ite_candidate, discardCandidate_bind, pure_candidate]
  split_ifs with hrefused
  · exact .abort ..
  · exact .abort ..
  · exact .rejected _ rfl (Or.inl rfl)
  · exact runEnd_validateCandidate hreplayed (not_not.mp hrefused)

lemma runEnd_replayBase :
    RunEnd guards base basePatches baseNewFiles env candidate (replayBase guards base basePatches baseNewFiles target
      env { candidate with changeId := some id } id baseIdentity issued).1 := by
  simp only [replayBase, issue_bind, ite_candidate, discardCandidate_bind, pure_candidate]
  split_ifs with hnothing hrefused
  · exact runEnd_stageCandidate (Or.inl (by simpa using hnothing))
  · exact .abort ..
  · exact .abort ..
  · exact .abort ..
  · exact runEnd_stageCandidate (Or.inr (not_not.mp hrefused))

lemma runEnd_runCandidate : RunEnd guards base basePatches baseNewFiles env candidate
      (runCandidate guards base basePatches baseNewFiles target env candidate issued).1 := by
  simp only [runCandidate, issue_bind, ite_candidate, pure_candidate]
  split_ifs
  · exact .abort ..
  · exact .rejected _ rfl (Or.inr rfl)
  · cases env.create.data.changeId with
    | none => exact .rejected _ rfl (Or.inr rfl)
    | some id =>
      cases env.create.data.baseIdentity with
      | none => exact .abort ..
      | some baseIdentity =>
        simp only [ite_candidate, discardCandidate_bind, pure_candidate]
        split_ifs
        · exact .abort ..
        · exact runEnd_replayBase

/-! ## The comparison -/

/-- What holds behind some turns, none of which aborted. -/
structure CompareInv (guards : Guards) (base : ChangeData) (basePatches : List PatchInput)
    (baseNewFiles : List NewFileInput) (budget : RepairBudget) (turns : List CompareTurn) (state : CompareState) :
    Prop where
  ids : state.results.map RepairCandidateData.id = turns.map CompareTurn.id
  candidates_le : state.candidatesUsed ≤ budget.maxCandidates
  compiles_le : state.compilesUsed ≤ budget.maxCompiles
  compiles : (state.results.filter (·.status = "measured")).length = state.compilesUsed
  once : ((state.results.filter (·.status = "measured")).map RepairCandidateData.hash).Nodup
  seen : ∀ row ∈ state.results, row.status = "measured" → row.hash ∈ state.seenHashes
  earned : ∀ row ∈ state.results, row.status = "measured" → ∃ turn ∈ turns,
    RunEnd guards base basePatches baseNewFiles turn.env turn.candidate (.measured row)

lemma CompareInv.push (h : CompareInv guards base basePatches baseNewFiles budget turns state)
    (hid : row.id = turn.id) (hrow : row.status ≠ "measured") :
    CompareInv guards base basePatches baseNewFiles budget (turns ++ [turn]) (state.push row) where
  ids := by simp [CompareState.push, h.ids, hid]
  candidates_le := h.candidates_le
  compiles_le := h.compiles_le
  compiles := by simpa [CompareState.push, hrow] using h.compiles
  once := by simpa [CompareState.push, hrow] using h.once
  seen other hother hmeasured := by
    rcases List.mem_append.mp hother with hother | hother
    · exact h.seen other hother hmeasured
    · exact absurd (List.mem_singleton.mp hother ▸ hmeasured) hrow
  earned other hother hmeasured := by
    rcases List.mem_append.mp hother with hother | hother
    · obtain ⟨earlier, hearlier, hend⟩ := h.earned other hother hmeasured
      exact ⟨earlier, List.mem_append_left _ hearlier, hend⟩
    · exact absurd (List.mem_singleton.mp hother ▸ hmeasured) hrow

lemma CompareInv.tried (h : CompareInv guards base basePatches baseNewFiles budget turns state)
    (hroom : state.candidatesUsed < budget.maxCandidates) (hash : String) :
    CompareInv guards base basePatches baseNewFiles budget turns
      { state with seenHashes := hash :: state.seenHashes, candidatesUsed := state.candidatesUsed + 1 } where
  ids := h.ids
  candidates_le := hroom
  compiles_le := h.compiles_le
  compiles := h.compiles
  once := h.once
  seen other hother hmeasured := List.mem_cons_of_mem _ (h.seen other hother hmeasured)
  earned := h.earned

lemma CompareInv.measured (h : CompareInv guards base basePatches baseNewFiles budget turns state)
    (hroom : state.candidatesUsed < budget.maxCandidates) (hcompiles : state.compilesUsed < budget.maxCompiles)
    (hnew : turn.hash ∉ state.seenHashes)
    (hend : RunEnd guards base basePatches baseNewFiles turn.env turn.candidate (.measured row)) :
    CompareInv guards base basePatches baseNewFiles budget (turns ++ [turn])
      { results := state.results ++ [row], seenHashes := turn.hash :: state.seenHashes
        candidatesUsed := state.candidatesUsed + 1, compilesUsed := state.compilesUsed + 1 } := by
  obtain ⟨hid, hhash, hstatus⟩ : row.id = turn.id ∧ row.hash = turn.hash ∧ row.status = "measured" := by
    cases hend
    exact ⟨rfl, rfl, rfl⟩
  refine ⟨by simp [h.ids, hid], hroom, hcompiles, by simp [hstatus, h.compiles], ?_, ?_, ?_⟩
  · simp only [List.filter_append, List.map_append]
    refine h.once.append (by simp [hstatus]) ?_
    intro hash hmem hlast
    obtain ⟨other, hother, rfl⟩ := List.mem_map.mp hmem
    obtain ⟨hother, hmeasured⟩ := List.mem_filter.mp hother
    have hlast : other.hash = turn.hash := by simpa [hstatus, hhash] using hlast
    exact hnew (hlast ▸ h.seen other hother (by simpa using hmeasured))
  · intro other hother hmeasured
    rcases List.mem_append.mp hother with hother | hother
    · exact List.mem_cons_of_mem _ (h.seen other hother hmeasured)
    · rw [List.mem_singleton.mp hother, hhash]
      exact List.mem_cons_self
  · intro other hother hmeasured
    rcases List.mem_append.mp hother with hother | hother
    · obtain ⟨earlier, hearlier, hend'⟩ := h.earned other hother hmeasured
      exact ⟨earlier, List.mem_append_left _ hearlier, hend'⟩
    · exact ⟨turn, by simp, List.mem_singleton.mp hother ▸ hend⟩

lemma CompareInv.exhaust (h : CompareInv guards base basePatches baseNewFiles budget turns state) (detail : String)
    (rest : List CompareTurn) : CompareInv guards base basePatches baseNewFiles budget (turns ++ rest)
      { state with results := state.results ++ rest.map (·.exhausted detail) } := by
  induction rest generalizing turns state with
  | nil => simpa using h
  | cons turn rest ih =>
    have hpush : CompareInv guards base basePatches baseNewFiles budget (turns ++ [turn])
        (state.push (turn.exhausted detail)) := h.push rfl (by simp [CompareTurn.exhausted])
    simpa [CompareState.push] using ih hpush

/-- The comparison was aborted, or its results are as they have to be. -/
def CompareEnd.Holds (P : CompareState → Prop) : CompareEnd → Prop
  | .finished state _ => P state
  | .abort .. => True

lemma lt_of_budgetStop {elapsedMs : ℕ} (h : state.budgetStop budget elapsedMs = none) :
    state.candidatesUsed < budget.maxCandidates ∧ state.compilesUsed < budget.maxCompiles := by
  unfold CompareState.budgetStop at h
  split_ifs at h
  omega

lemma CompareInv.run (h : CompareInv guards base basePatches baseNewFiles budget turns state) :
    (runTurns guards base basePatches baseNewFiles target budget state rest).Holds
      (CompareInv guards base basePatches baseNewFiles budget (turns ++ rest)) := by
  induction rest generalizing turns state with
  | nil => simpa [runTurns, CompareEnd.Holds] using h
  | cons turn rest ih =>
    rw [List.append_cons, runTurns]
    split_ifs with hseen
    · exact ih (h.push rfl (by simp [CompareTurn.duplicate]))
    · trivial
    · cases hstop : state.budgetStop budget turn.elapsedMs with
      | some stop =>
        rw [← List.append_cons]
        exact h.exhaust stop.2 (turn :: rest)
      | none =>
        obtain ⟨hroom, hcompiles⟩ := lt_of_budgetStop hstop
        have hend : RunEnd guards base basePatches baseNewFiles turn.env turn.candidate
            (runCandidate guards base basePatches baseNewFiles target turn.env turn.candidate []).1 :=
          runEnd_runCandidate
        dsimp only
        generalize (runCandidate guards base basePatches baseNewFiles target turn.env turn.candidate []).1 = run at hend
        cases run with
        | measured result => exact ih (h.measured hroom hcompiles hseen hend)
        | rejected result =>
          cases hend with
          | rejected _ hid hstatus =>
            refine ih ((h.tried hroom turn.hash).push hid ?_)
            rcases hstatus with hstatus | hstatus <;> rw [hstatus] <;> decide
        | abort => trivial

lemma compareInv_runTurns (turns : List CompareTurn) :
    (runTurns guards base basePatches baseNewFiles target budget .new turns).Holds
      (CompareInv guards base basePatches baseNewFiles budget turns) := by
  have hnew : CompareInv guards base basePatches baseNewFiles budget [] .new :=
    ⟨rfl, Nat.zero_le _, Nat.zero_le _, rfl, List.nodup_nil, by simp [CompareState.new], by simp [CompareState.new]⟩
  have hrun : (runTurns guards base basePatches baseNewFiles target budget .new turns).Holds
      (CompareInv guards base basePatches baseNewFiles budget ([] ++ turns)) := hnew.run
  rwa [List.nil_append] at hrun

lemma CompareEnd.Holds.imp {P Q : CompareState → Prop} {done : CompareEnd} (h : done.Holds P)
    (hPQ : ∀ state, P state → Q state) : done.Holds Q := by
  cases done with
  | finished state => exact hPQ state h
  | abort => trivial

/-- A comparison that is not aborted has one row for each candidate, in their order.  It stays within the
budget, and measures no two candidates of one hash. -/
theorem compare_accounts (guards : Guards) (base : ChangeData) (basePatches : List PatchInput)
    (baseNewFiles : List NewFileInput) (target : String) (budget : RepairBudget) (turns : List CompareTurn) :
    (runTurns guards base basePatches baseNewFiles target budget .new turns).Holds fun state =>
      state.results.map RepairCandidateData.id = turns.map CompareTurn.id ∧
        state.candidatesUsed ≤ budget.maxCandidates ∧ state.compilesUsed ≤ budget.maxCompiles ∧
        (state.results.filter (·.status = "measured")).length = state.compilesUsed ∧
        ((state.results.filter (·.status = "measured")).map RepairCandidateData.hash).Nodup :=
  (compareInv_runTurns turns).imp fun _ h => ⟨h.ids, h.candidates_le, h.compiles_le, h.compiles, h.once⟩

/-! ## The selection -/

lemma ranked_spec (candidates : List RepairCandidateData) (testTarget : Option String) :
    match (ranked candidates testTarget).head? with
    | none => ∀ candidate ∈ candidates, candidate.selectable testTarget = false
    | some best => best ∈ candidates ∧ best.selectable testTarget = true ∧
        ∀ other ∈ candidates, other.selectable testTarget = true → best.rank ≤ other.rank := by
  have hmem : ∀ candidate, candidate ∈ ranked candidates testTarget ↔
      candidate ∈ candidates ∧ candidate.selectable testTarget = true := fun candidate => by
    rw [ranked, List.mem_insertionSort, List.mem_filter]
  have hsorted : (ranked candidates testTarget).Pairwise fun left right => left.rank ≤ right.rank :=
    List.pairwise_insertionSort _ _
  cases hranked : ranked candidates testTarget with
  | nil =>
    intro candidate hcandidate
    have hnot := mt (hmem candidate).mpr (by rw [hranked]; exact List.not_mem_nil)
    simpa using fun h => hnot ⟨hcandidate, h⟩
  | cons best others =>
    rw [hranked] at hmem hsorted
    obtain ⟨hbest, hselectable⟩ := (hmem best).mp List.mem_cons_self
    refine ⟨hbest, hselectable, fun other hother hchosen => ?_⟩
    rcases List.mem_cons.mp ((hmem other).mpr ⟨hother, hchosen⟩) with rfl | hrest
    · exact le_rfl
    · exact (List.pairwise_cons.mp hsorted).1 other hrest

/-- A fresh run of the turn measured the row, and it compiled, adds no impact and does not fail the test. -/
structure RestsOn (guards : Guards) (basePatches : List PatchInput) (baseNewFiles : List NewFileInput)
    (testTarget : Option String) (turn : CompareTurn) (evidence : ChangeEvidenceData) : Prop where
  replayed : Replayed basePatches baseNewFiles turn.env
  staged : turn.env.stage.status = "STAGED"
  fresh : freshRow turn.env.validate.data = some evidence
  complete : evidence.diagnosticsOmitted = 0
  compiled : turn.env.stats.buildSuccess = some true
  preserving : (guards.scan basePatches (basePatches ++ turn.patches)).1 = []
  tested : testTarget.isSome → evidence.status ≠ "FAIL"

lemma restsOn_of_selectable {testTarget : Option String} (hrow : row.selectable testTarget = true)
    (hend : RunEnd guards base basePatches baseNewFiles turn.env turn.candidate (.measured row)) :
    row.id = turn.id ∧ row.patches = turn.patches ∧
      ∃ evidence, RestsOn guards basePatches baseNewFiles testTarget turn evidence := by
  cases hend with
  | measured id fresh hreplayed hstaged hfresh hcomplete =>
    simp only [RepairCandidateData.selectable, Bool.and_eq_true, Bool.or_eq_true] at hrow
    obtain ⟨⟨⟨-, hcompiled⟩, hpreserving⟩, htest⟩ := hrow
    refine ⟨rfl, rfl, fresh, hreplayed, hstaged, hfresh, hcomplete, ?_, ?_, fun hsome => ?_⟩
    · cases hsuccess : turn.env.stats.buildSuccess with
      | none => simp [RepairCandidateData.compiled, measuredResult, hsuccess] at hcompiled
      | some success => cases success <;> simp_all [RepairCandidateData.compiled, measuredResult]
    · exact List.isEmpty_iff.mp hpreserving
    · rcases htest with hnone | hpassed
      · rw [Option.isNone_iff_eq_none.mp hnone] at hsome
        cases hsome
      · simp only [RepairCandidateData.testPassed, measuredResult, Option.any_some, Bool.and_eq_true,
          decide_eq_true_eq] at hpassed
        exact hpassed.2

/-- A selection rests on the fresh run of a candidate and has its patches, no selectable row ranks before it,
and the rows of the other candidates are eliminated; without one no row is selectable. -/
theorem selection_earned (guards : Guards) (base : ChangeData) (basePatches : List PatchInput)
    (baseNewFiles : List NewFileInput) (target : String) (budget : RepairBudget) (turns : List CompareTurn)
    (testTarget : Option String) :
    (runTurns guards base basePatches baseNewFiles target budget .new turns).Holds fun state =>
      (select state.results testTarget).2.1.map RepairEliminationData.id = (turns.map CompareTurn.id).filter
            (fun id => (select state.results testTarget).1.map RepairSelectionData.id ≠ some id) ∧
        match (select state.results testTarget).1 with
        | none => ∀ row ∈ state.results, row.selectable testTarget = false
        | some selected => ∃ turn ∈ turns, selected.id = turn.id ∧ selected.patches = turn.patches ∧
            (∃ evidence, RestsOn guards basePatches baseNewFiles testTarget turn evidence) ∧
            ∃ row ∈ state.results, row.id = turn.id ∧
              ∀ other ∈ state.results, other.selectable testTarget = true → row.rank ≤ other.rank := by
  refine (compareInv_runTurns turns).imp fun state h => ?_
  have hspec := ranked_spec state.results testTarget
  rw [← h.ids, List.filter_map]
  unfold select
  cases hbest : (ranked state.results testTarget).head? with
  | none =>
    rw [hbest] at hspec
    exact ⟨by simp [Function.comp_def], hspec⟩
  | some best =>
    rw [hbest] at hspec
    obtain ⟨hmem, hselectable, hleast⟩ := hspec
    have hmeasured : best.status = "measured" := by
      simp only [RepairCandidateData.selectable, Bool.and_eq_true, decide_eq_true_eq] at hselectable
      exact hselectable.1.1.1
    obtain ⟨turn, hturn, hend⟩ := h.earned best hmem hmeasured
    obtain ⟨hid, hpatches, hrests⟩ := restsOn_of_selectable hselectable hend
    exact ⟨by simp [Function.comp_def], turn, hturn, hid, hpatches, hrests, best, hmem, hid, hleast⟩

end

end Repair

end AgzRustMcp
