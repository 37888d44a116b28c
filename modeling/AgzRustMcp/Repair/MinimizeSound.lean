import AgzRustMcp.Repair.Minimize

/-!
# What a confirmed reproduction rests on

`MinimizeInv` holds after every step of `minimize`: the session counts the Cargo runs of the
history, within the budget, and the tree reached was run and showed the failure.
-/

namespace AgzRustMcp

open Tasks

/-- The world of a run of the minimizer. -/
abbrev MinimizeWorld := World MinimizeSession MinimizeInput MinimizeLabel

/-- A Cargo run of the history. -/
structure MinimizeRun where
  root : RunRoot
  tree : SourceTree
  evidence : CargoEvidence

/-- The Cargo runs that a step makes. -/
def MinimizeLabel.runs (input : MinimizeInput) : MinimizeLabel → List MinimizeRun
  | .run root tree => [⟨root, tree, input.evidence⟩]
  | _ => []

/-- The Cargo runs made so far. -/
def runsOf (w : MinimizeWorld) : List MinimizeRun :=
  w.trace.flatMap fun entry => entry.label.runs entry.input

section Sound

variable (lowercase : String → String)

/-- The run shows the failure, and no error signature that the first run has not. -/
def MinimizeRun.Shows (predicate : FailurePredicate) (run first : MinimizeRun) : Prop :=
  Reproduces lowercase predicate ((convertEvidence first.evidence).errorSignatures lowercase)
    (convertEvidence run.evidence)

def Observed (predicate : FailurePredicate) (runs : List MinimizeRun) (tree : SourceTree) : Prop :=
  ∃ first run, runs.head? = some first ∧ run ∈ runs ∧ run.tree = tree ∧ run.Shows lowercase predicate first

variable (request : MinimizeRequest)

/-- The invariant of all runs of the minimizer. -/
structure MinimizeInv (w : MinimizeWorld) : Prop where
  compiles_eq : w.state.compiles = (runsOf w).length
  compiles_le : (runsOf w).length ≤ max 1 request.budget.maxCompiles
  current : ∀ tree, w.state.current = some tree → ∃ predicate,
    FailurePredicate.build lowercase request.filtered request.failurePredicate = .ok predicate ∧
      Observed lowercase predicate (runsOf w) tree

/-- The invariant holds and the history has these Cargo runs. -/
structure At (runs : List MinimizeRun) (w : MinimizeWorld) : Prop where
  inv : MinimizeInv lowercase request w
  runs_eq : runsOf w = runs

variable {lowercase request} {predicate : FailurePredicate} {runs : List MinimizeRun}
  {w : MinimizeWorld} {label : MinimizeLabel} {input : MinimizeInput}
  {act : MinimizeInput → MinimizeSession → MinimizeSession} {α : Type}

lemma runsOf_after : runsOf (w.after 0 label act input) = runsOf w ++ label.runs input := by
  simp [runsOf, World.after]

variable {tree current initial : SourceTree} {Q : Unit → MinimizeWorld → Prop}
  {outcome : MinimizeOutcome} {stopReason : String}

lemma Observed.append {more : List MinimizeRun} (h : Observed lowercase predicate runs tree) :
    Observed lowercase predicate (runs ++ more) tree := by
  obtain ⟨first, run, hfirst, hrun, htree, hshows⟩ := h
  refine ⟨first, run, ?_, List.mem_append_left _ hrun, htree, hshows⟩
  rw [List.head?_append, hfirst]
  rfl

lemma At.quiet (h : At lowercase request runs w) (hlabel : label.runs input = [])
    (hcompiles : (act input w.state).compiles = w.state.compiles)
    (hcurrent : (act input w.state).current = w.state.current) :
    At lowercase request runs (w.after 0 label act input) := by
  have hruns : runsOf (w.after 0 label act input) = runsOf w := by
    rw [runsOf_after, hlabel, List.append_nil]
  refine ⟨⟨?_, ?_, fun tree htree => ?_⟩, hruns.trans h.runs_eq⟩
  · rw [hruns]
    exact hcompiles.trans h.inv.compiles_eq
  · rw [hruns]
    exact h.inv.compiles_le
  · rw [hruns]
    exact h.inv.current tree (hcurrent.symm.trans htree)

lemma At.look {value : MinimizeInput → MinimizeSession → α} {Q : α → MinimizeWorld → Prop}
    (h : At lowercase request runs w) (hlabel : ∀ input, label.runs input = [])
    (hQ : ∀ input w', At lowercase request runs w' → Q (value input w.state) w') :
    (Task.look label value).Ensures (MinimizeInv lowercase request) Q w := by
  refine Task.ensures_look fun input => ?_
  have hquiet : At lowercase request runs (w.after 0 label (fun _ s => s) input) :=
    h.quiet (hlabel input) rfl rfl
  exact ⟨hquiet.inv, hQ input _ hquiet⟩

lemma At.modify (h : At lowercase request runs w) (hlabel : ∀ input, label.runs input = [])
    (hcompiles : ∀ input session, (act input session).compiles = session.compiles)
    (hcurrent : ∀ input session, (act input session).current = session.current)
    (hQ : ∀ w', At lowercase request runs w' → Q () w') :
    (Task.modify label act).Ensures (MinimizeInv lowercase request) Q w := by
  refine Task.ensures_modify fun input => ?_
  have hquiet := h.quiet (hlabel input) (hcompiles input w.state) (hcurrent input w.state)
  exact ⟨hquiet.inv, hQ _ hquiet⟩

lemma At.pollCancelled {Q : Bool → MinimizeWorld → Prop} (h : At lowercase request runs w)
    (hQ : ∀ cancelled w', At lowercase request runs w' → Q cancelled w') :
    AgzRustMcp.pollCancelled.Ensures (MinimizeInv lowercase request) Q w :=
  h.look (fun _ => rfl) fun _ w' hw' => hQ _ w' hw'

lemma At.sessionNow {Q : MinimizeSession × ℕ → MinimizeWorld → Prop}
    (h : At lowercase request runs w) (hQ : ∀ now w', At lowercase request runs w' → Q now w') :
    AgzRustMcp.sessionNow.Ensures (MinimizeInv lowercase request) Q w :=
  h.look (fun _ => rfl) fun _ w' hw' => hQ _ w' hw'

lemma At.pushRisk {risk : String}
    (h : At lowercase request runs w) (hQ : ∀ w', At lowercase request runs w' → Q () w') :
    (AgzRustMcp.pushRisk risk).Ensures (MinimizeInv lowercase request) Q w :=
  h.modify (fun _ => rfl) (fun _ _ => rfl) (fun _ _ => rfl) hQ

lemma At.pushRiskIf {condition : Bool} {risk : String}
    (h : At lowercase request runs w) (hQ : ∀ w', At lowercase request runs w' → Q () w') :
    (AgzRustMcp.pushRiskIf condition risk).Ensures (MinimizeInv lowercase request) Q w := by
  unfold AgzRustMcp.pushRiskIf
  split
  · exact h.pushRisk hQ
  · exact Task.ensures_done (hQ w h)

lemma At.acceptTree (h : At lowercase request runs w)
    (hbuild : FailurePredicate.build lowercase request.filtered request.failurePredicate =
      .ok predicate) (htree : Observed lowercase predicate runs tree)
    (hQ : ∀ w', At lowercase request runs w' → Q () w') :
    (AgzRustMcp.acceptTree tree).Ensures (MinimizeInv lowercase request) Q w := by
  refine Task.ensures_modify fun input => ?_
  have hruns : runsOf (w.after 0 (.accept tree)
      (fun _ session => { session with current := some tree }) input) = runs := by
    rw [runsOf_after]
    simpa [MinimizeLabel.runs] using h.runs_eq
  have hat : At lowercase request runs (w.after 0 (.accept tree)
      (fun _ session => { session with current := some tree }) input) := by
    refine ⟨⟨?_, ?_, fun other hother => ?_⟩, hruns⟩
    · rw [hruns, ← h.runs_eq]
      exact h.inv.compiles_eq
    · rw [hruns, ← h.runs_eq]
      exact h.inv.compiles_le
    · obtain rfl := Option.some.inj hother
      rw [hruns]
      exact ⟨predicate, hbuild, htree⟩
  exact ⟨hat.inv, hQ _ hat⟩

lemma At.compiles (h : At lowercase request runs w) : w.state.compiles = runs.length :=
  h.runs_eq ▸ h.inv.compiles_eq

lemma At.budgetStop {Q : Option String → MinimizeWorld → Prop} (h : At lowercase request runs w)
    (hQ : ∀ stop w', At lowercase request runs w' →
      (stop = none → runs.length < request.budget.maxCompiles) → Q stop w') :
    (AgzRustMcp.budgetStop request.budget).Ensures (MinimizeInv lowercase request) Q w := by
  refine h.look (fun _ => rfl) fun input w' hw' => hQ _ w' hw' fun hnone => ?_
  split_ifs at hnone with hcompiles
  rw [h.compiles] at hcompiles
  omega

lemma At.runTree {root : RunRoot} {Q : Except String TrialRun → MinimizeWorld → Prop}
    (h : At lowercase request runs w) (hbudget : runs.length < max 1 request.budget.maxCompiles)
    (herror : ∀ reason w', At lowercase request runs w' → Q (.error reason) w')
    (hok : ∀ evidence w', At lowercase request (runs ++ [⟨root, tree, evidence⟩]) w' →
      Q (.ok (convertEvidence evidence)) w') :
    (AgzRustMcp.runTree tree root).Ensures (MinimizeInv lowercase request) Q w := by
  refine Task.Ensures.bind (h.look (fun _ => rfl) fun input w₁ h₁ => ?_)
  split
  · exact Task.ensures_done (herror _ w₁ h₁)
  · refine Task.ensures_step fun _ input => ?_
    have hruns : runsOf (w₁.after 0 (.run root tree) (fun (input : MinimizeInput) session =>
        { session with
          compiles := session.compiles + 1
          lastCommand :=
            if (convertEvidence input.evidence).command = "" then session.lastCommand
            else (convertEvidence input.evidence).command }) input) =
        runs ++ [⟨root, tree, input.evidence⟩] := by
      rw [runsOf_after, h₁.runs_eq]
      rfl
    have hlength : (runs ++ [(⟨root, tree, input.evidence⟩ : MinimizeRun)]).length = runs.length + 1 := by simp
    have hat : At lowercase request (runs ++ [⟨root, tree, input.evidence⟩])
        (w₁.after 0 (.run root tree) (fun (input : MinimizeInput) session =>
          { session with
            compiles := session.compiles + 1
            lastCommand :=
              if (convertEvidence input.evidence).command = "" then session.lastCommand
              else (convertEvidence input.evidence).command }) input) := by
      refine ⟨⟨?_, ?_, fun other hother => ?_⟩, hruns⟩
      · rw [hruns, hlength, ← h₁.compiles]
        rfl
      · rw [hruns, hlength]
        exact hbudget
      · rw [hruns]
        obtain ⟨predicate, hbuild, hobserved⟩ := h₁.inv.current other hother
        rw [h₁.runs_eq] at hobserved
        exact ⟨predicate, hbuild, hobserved.append⟩
    exact ⟨hat.inv, Task.ensures_done (hok input.evidence _ hat)⟩

/-! ## The search -/

variable {reducer : Reducer} {stack : List (List reducer.Unit)} {first : MinimizeRun} {baseline : List String}

lemma observed_of_matched {root : RunRoot} {evidence : CargoEvidence} (hfirst : runs.head? = some first)
    (hmatched : (evaluateRun lowercase predicate ((convertEvidence first.evidence).signatures lowercase)
      (convertEvidence evidence)).matched = true) :
    Observed lowercase predicate (runs ++ [⟨root, tree, evidence⟩]) tree := by
  refine ⟨first, ⟨root, tree, evidence⟩, ?_, by simp, rfl, reproduces_of_matched hmatched⟩
  rw [List.head?_append, hfirst]
  rfl

/-- The size of the groups that are still to be tried: enough fuel for them. -/
def stackSize (stack : List (List reducer.Unit)) : ℕ :=
  (stack.map fun group => max 1 (2 * group.length - 1)).sum

lemma stackSize_split {group : List reducer.Unit} (h : group.length > 1) :
    stackSize (group.take (group.length / 2) :: group.drop (group.length / 2) :: stack) <
      stackSize (group :: stack) := by
  simp only [stackSize, List.map_cons, List.sum_cons, List.length_take, List.length_drop]
  omega

lemma stackSize_lt {group : List reducer.Unit} : stackSize stack < stackSize (group :: stack) := by
  simp only [stackSize, List.map_cons, List.sum_cons]
  omega

lemma ensures_searchRound {fuel : ℕ} {Q : RoundEnd → MinimizeWorld → Prop}
    (hbuild : FailurePredicate.build lowercase request.filtered request.failurePredicate =
      .ok predicate) (hfuel : stackSize stack ≤ fuel)
    (h : At lowercase request runs w) (hfirst : runs.head? = some first)
    (hQ : ∀ result runs' w', At lowercase request runs' w' → runs'.head? = some first →
      result ≠ .outOfFuel → (∀ trial, result = .progressed trial → runs.length < runs'.length) → Q result w') :
    (searchRound lowercase reducer predicate ((convertEvidence first.evidence).signatures lowercase)
      request.budget current fuel stack).Ensures (MinimizeInv lowercase request) Q w := by
  induction fuel generalizing stack runs w with
  | zero =>
    cases stack with
    | nil => exact Task.ensures_done (hQ _ runs w h hfirst (by simp) (by simp))
    | cons group stack =>
      have hsize : stackSize stack < stackSize (group :: stack) := stackSize_lt
      omega
  | succ fuel ih =>
    cases stack with
    | nil => exact Task.ensures_done (hQ _ runs w h hfirst (by simp) (by simp))
    | cons group stack =>
      have hsize : stackSize stack < stackSize (group :: stack) := stackSize_lt
      unfold searchRound
      refine Task.Ensures.bind (h.pollCancelled fun cancelled w₁ h₁ => ?_)
      split
      · exact Task.ensures_done (hQ _ runs w₁ h₁ hfirst (by simp) (by simp))
      refine Task.Ensures.bind (h₁.budgetStop fun stop w₂ h₂ hstop => ?_)
      cases stop with
      | some stop => exact Task.ensures_done (hQ _ runs w₂ h₂ hfirst (by simp) (by simp))
      | none =>
        dsimp only
        split
        · exact ih (by omega) h₂ hfirst hQ
        next trial _ =>
        refine Task.Ensures.bind (h₂.runTree (by have := hstop rfl; omega)
          (fun reason w₃ h₃ => ?_) fun evidence w₃ h₃ => ?_)
        · exact Task.ensures_done (hQ _ runs w₃ h₃ hfirst (by simp) (by simp))
        -- The trial was run; from here on the history is one run longer.
        have hfirst' : (runs ++ [(⟨.trial, trial, evidence⟩ : MinimizeRun)]).head? = some first := by
          rw [List.head?_append, hfirst]
          rfl
        have hlength : (runs ++ [(⟨.trial, trial, evidence⟩ : MinimizeRun)]).length = runs.length + 1 := by simp
        have hQ' : ∀ result runs' w', At lowercase request runs' w' → runs'.head? = some first →
            result ≠ .outOfFuel → (∀ trial', result = .progressed trial' →
              (runs ++ [(⟨.trial, trial, evidence⟩ : MinimizeRun)]).length < runs'.length) →
            Q result w' :=
          fun result runs' w' hat hhead hfuel hlonger =>
            hQ result runs' w' hat hhead hfuel fun trial' htrial => by
              have := hlonger trial' htrial
              omega
        dsimp only
        refine Task.Ensures.bind (h₃.modify (fun _ => rfl) (fun _ _ => rfl) (fun _ _ => rfl)
          fun w₄ h₄ => ?_)
        split
        · next hmatched =>
          refine Task.Ensures.bind (h₄.acceptTree hbuild (observed_of_matched hfirst hmatched)
            fun w₅ h₅ => ?_)
          exact Task.ensures_done (hQ _ _ w₅ h₅ hfirst' (by simp) fun _ _ => by omega)
        · split
          · next hlong =>
            have hsplit : stackSize (group.take (group.length / 2) ::
                group.drop (group.length / 2) :: stack) < _ := stackSize_split hlong
            exact ih (by omega) h₄ hfirst' hQ'
          · exact ih (by omega) h₄ hfirst' hQ'

lemma ensures_searchLoop {fuel skippedReferenced skippedScope : ℕ} {Q : SearchEnd → MinimizeWorld → Prop}
    (hbuild : FailurePredicate.build lowercase request.filtered request.failurePredicate =
      .ok predicate) (hpos : 0 < fuel) (hfuel : request.budget.maxCompiles < fuel + runs.length)
    (h : At lowercase request runs w) (hfirst : runs.head? = some first)
    (hQ : ∀ result runs' w', At lowercase request runs' w' → runs'.head? = some first →
      result ≠ .outOfFuel → Q result w') :
    (searchLoop lowercase reducer predicate ((convertEvidence first.evidence).signatures lowercase)
      request.budget initial request.reductionScope fuel current skippedReferenced
      skippedScope).Ensures (MinimizeInv lowercase request) Q w := by
  induction fuel generalizing current skippedReferenced skippedScope runs w with
  | zero => omega
  | succ fuel ih =>
    unfold searchLoop
    refine Task.Ensures.bind (h.pollCancelled fun cancelled w₁ h₁ => ?_)
    split
    · exact Task.ensures_done (hQ _ runs w₁ h₁ hfirst (by simp))
    refine Task.Ensures.bind (h₁.budgetStop fun stop w₂ h₂ hstop => ?_)
    cases stop with
    | some stop => exact Task.ensures_done (hQ _ runs w₂ h₂ hfirst (by simp))
    | none =>
      have hlt := hstop rfl
      generalize reducer.plan initial predicate request.reductionScope current skippedReferenced
        skippedScope = planned
      obtain ⟨plan, skippedReferenced, skippedScope⟩ := planned
      dsimp only
      split
      · exact Task.ensures_done (hQ _ runs w₂ h₂ hfirst (by simp))
      next hplan =>
      have hsize : stackSize [plan] ≤ 2 * plan.length := by
        have hne : plan ≠ [] := by simpa using hplan
        have hlen := List.length_pos_of_ne_nil hne
        simp only [stackSize, List.map_cons, List.map_nil, List.sum_cons, List.sum_nil]
        omega
      refine Task.Ensures.bind (ensures_searchRound hbuild hsize h₂ hfirst
        fun result runs' w₃ h₃ hfirst' hresult hlonger => ?_)
      cases result with
      | progressed trial =>
        -- A round that progressed used up a compile that the budget allowed.
        have hmore := hlonger trial rfl
        have hle := h₃.inv.compiles_le
        rw [h₃.runs_eq] at hle
        exact ih (by omega) (by omega) h₃ hfirst'
      | outOfFuel => exact absurd rfl hresult
      | cancelled => exact Task.ensures_done (hQ _ runs' w₃ h₃ hfirst' (by simp))
      | unavailable reason => exact Task.ensures_done (hQ _ runs' w₃ h₃ hfirst' (by simp))
      | stopped stop => exact Task.ensures_done (hQ _ runs' w₃ h₃ hfirst' (by simp))
      | exhausted => exact Task.ensures_done (hQ _ runs' w₃ h₃ hfirst' (by simp))

/-! ## The export -/

/-- The files of a proof are those of its tree. -/
structure ProofOf (sha : ByteArray → String) (proof : RepairProofData) (tree : SourceTree) : Prop where
  files : proof.files.map (fun file => (file.file, file.sha256)) =
    tree.toList.map fun entry => (entry.1, sha entry.2.toUTF8)
  contents : ∀ file ∈ proof.files, ∀ content, file.content = some content → (file.file, content) ∈ tree.toList
  complete : proof.packageComplete = true → ∀ file ∈ proof.files, file.content.isSome
  source : proof.sourceSha256 = treeSha256 sha tree

variable {sha : ByteArray → String}

lemma foldl_proofFile (entries : List (String × String)) :
    let collected := entries.foldl (proofFile sha) ⟨[], 0, true, []⟩
    collected.files.map (fun file => (file.file, file.sha256)) =
        entries.map (fun entry => (entry.1, sha entry.2.toUTF8)) ∧
      (∀ file ∈ collected.files, ∀ content, file.content = some content → (file.file, content) ∈ entries) ∧
      (collected.packageComplete = true → ∀ file ∈ collected.files, file.content.isSome) := by
  induction entries using List.reverseRecOn with
  | nil => simp
  | append_singleton entries entry ih =>
    obtain ⟨hfiles, hcontents, hcomplete⟩ := ih
    simp only [List.foldl_append, List.foldl_cons, List.foldl_nil]
    generalize entries.foldl (proofFile sha) ⟨[], 0, true, []⟩ = collected at *
    unfold proofFile
    dsimp only
    split
    · refine ⟨by simp [hfiles], fun file hfile content hcontent => ?_, fun hall file hfile => ?_⟩
      · rcases List.mem_append.mp hfile with hold | hnew
        · exact List.mem_append_left _ (hcontents file hold content hcontent)
        · obtain rfl := List.mem_singleton.mp hnew
          obtain rfl := Option.some.inj hcontent
          simp
      · rcases List.mem_append.mp hfile with hold | hnew
        · exact hcomplete hall file hold
        · obtain rfl := List.mem_singleton.mp hnew
          rfl
    · refine ⟨by simp [hfiles], fun file hfile content hcontent => ?_, fun hall => ?_⟩
      · rcases List.mem_append.mp hfile with hold | hnew
        · exact List.mem_append_left _ (hcontents file hold content hcontent)
        · obtain rfl := List.mem_singleton.mp hnew
          simp at hcontent
      · simp at hall

lemma proofOf_buildProof {session : MinimizeSession} {verified : Bool} {verification : String} :
    ProofOf sha (buildProof sha tree session predicate verified verification) tree := by
  obtain ⟨hfiles, hcontents, hcomplete⟩ := foldl_proofFile tree.toList
  exact ⟨hfiles, hcontents, hcomplete, rfl⟩

/-- The outcome reports a confirmed reproduction. -/
def MinimizeOutcome.confirms (outcome : MinimizeOutcome) : Prop :=
  outcome.status = "REPRODUCED" ∨ outcome.data.reproduced = true ∨ outcome.data.verification = "exportVerified" ∨
    ∃ proof, outcome.data.proof = some proof ∧ proof.exportVerified = true

variable (lowercase request sha) in
/-- A confirmed outcome has run the tree of the proof last, with the failure and nothing new. -/
def Founded (outcome : MinimizeOutcome) (w : MinimizeWorld) : Prop :=
  outcome.confirms → ∃ predicate first last proof,
    FailurePredicate.build lowercase request.filtered request.failurePredicate = .ok predicate ∧
    (runsOf w).head? = some first ∧ (runsOf w).getLast? = some last ∧ last.root = .export ∧
    last.Shows lowercase predicate first ∧ outcome.data.proof = some proof ∧
    ProofOf sha proof last.tree

lemma ensures_verifyExport {Q : ExportCheck → MinimizeWorld → Prop} (h : At lowercase request runs w)
    (hfirst : runs.head? = some first)
    (hfailed : ∀ result runs' w', At lowercase request runs' w' → result.verified = false →
      result.status ≠ "REPRODUCED" → Q result w')
    (hverified : ∀ result evidence w', At lowercase request (runs ++ [⟨.export, current, evidence⟩]) w' →
      MinimizeRun.Shows lowercase predicate ⟨.export, current, evidence⟩ first → Q result w') :
    (verifyExport lowercase predicate ((convertEvidence first.evidence).signatures lowercase)
      request.budget current stopReason).Ensures (MinimizeInv lowercase request) Q w := by
  refine Task.Ensures.bind (h.budgetStop fun stop w₁ h₁ hstop => ?_)
  cases stop with
  | some stop =>
    refine Task.Ensures.bind (h₁.pushRisk fun w₂ h₂ => ?_)
    exact Task.ensures_done (hfailed _ runs w₂ h₂ rfl (by simp))
  | none =>
    refine Task.Ensures.bind (h₁.runTree (by have := hstop rfl; omega) (fun reason w₂ h₂ => ?_)
      fun evidence w₂ h₂ => ?_)
    · exact Task.ensures_done (hfailed _ runs w₂ h₂ rfl (by simp))
    · dsimp only
      split
      · next hmatched =>
        exact Task.ensures_done (hverified _ evidence w₂ h₂ (reproduces_of_matched hmatched))
      · exact Task.ensures_done (hfailed _ _ w₂ h₂ rfl (by simp))

lemma ensures_finishReproducer {proof : RepairProofData}
    {status : String} {Q : MinimizeOutcome → MinimizeWorld → Prop} (h : At lowercase request runs w)
    (hQ : ∀ outcome w', At lowercase request runs w' → outcome.data.proof = some proof →
      (outcome.confirms → status = "REPRODUCED" ∨ proof.exportVerified = true) → Q outcome w') :
    (finishReproducer request predicate current proof status stopReason).Ensures
      (MinimizeInv lowercase request) Q w := by
  refine Task.Ensures.bind (h.pushRiskIf fun w₁ h₁ => ?_)
  refine Task.Ensures.bind (h₁.pushRiskIf fun w₂ h₂ => ?_)
  refine Task.Ensures.bind (h₂.sessionNow fun now w₃ h₃ => ?_)
  refine Task.ensures_done (hQ _ w₃ h₃ rfl ?_)
  rintro (hstatus | hreproduced | hverification | ⟨other, hother, hverified⟩)
  · exact Or.inl hstatus
  · exact Or.inl (by simpa using hreproduced)
  · dsimp only at hverification
    split at hverification
    · next hreproduced => exact Or.inl (by simpa using hreproduced)
    · split at hverification <;> simp at hverification
  · obtain rfl := Option.some.inj hother
    exact Or.inr hverified

lemma ensures_exportMinimized {confirmed : Bool} {skippedReferenced skippedScope : ℕ}
    (hbuild : FailurePredicate.build lowercase request.filtered request.failurePredicate =
      .ok predicate) (h : At lowercase request runs w) (hfirst : runs.head? = some first) :
    (exportMinimized lowercase sha request predicate
      ((convertEvidence first.evidence).signatures lowercase) initial current confirmed
      skippedReferenced skippedScope stopReason).Ensures (MinimizeInv lowercase request)
      (fun outcome w' => Founded lowercase request sha outcome w') w := by
  -- The report after the verification, with what is known when it was successful.
  have hreport : ∀ (result : ExportCheck) (runs' : List MinimizeRun) (w' : MinimizeWorld),
      At lowercase request runs' w' →
      (result.verified = true ∨ result.status = "REPRODUCED" → ∃ last, runs'.head? = some first ∧
        runs'.getLast? = some last ∧ last.root = .export ∧ last.tree = current ∧
        last.Shows lowercase predicate first) →
      Task.Ensures (MinimizeInv lowercase request) (do
        let status :=
          if !result.verified && result.status == "REPRODUCED" then "BEST_KNOWN_REPRODUCER"
          else result.status
        pushRiskIf (!confirmed)
          "The failure was reproduced once but not confirmed by a second fresh unchanged run."
        pushRiskIf (!initial.contains "Cargo.lock")
          "The candidate carries no Cargo.lock; the export preserves whatever lockfile state exists in the candidate copy."
        pushRiskIf current.isEmpty "The minimized source is empty."
        let now ← sessionNow
        let proof := buildProof sha current now.1 predicate result.verified result.verification
        finishReproducer request predicate current proof status result.stopReason)
        (fun outcome w' => Founded lowercase request sha outcome w') w' := by
    intro result runs' w' h' hrun
    refine Task.Ensures.bind (h'.pushRiskIf fun w₁ h₁ => ?_)
    refine Task.Ensures.bind (h₁.pushRiskIf fun w₂ h₂ => ?_)
    refine Task.Ensures.bind (h₂.pushRiskIf fun w₃ h₃ => ?_)
    refine Task.Ensures.bind (h₃.sessionNow fun now w₄ h₄ => ?_)
    refine ensures_finishReproducer h₄ fun outcome w₅ h₅ hproof hconfirms houtcome => ?_
    have hsuccess : result.verified = true ∨ result.status = "REPRODUCED" := by
      rcases hconfirms houtcome with hstatus | hverified
      · split at hstatus
        · simp at hstatus
        · exact Or.inr hstatus
      · exact Or.inl hverified
    obtain ⟨last, hhead, hlast, hroot, rfl, hshows⟩ := hrun hsuccess
    exact ⟨predicate, first, last, _, hbuild, h₅.runs_eq ▸ hhead, h₅.runs_eq ▸ hlast, hroot, hshows,
      hproof, proofOf_buildProof⟩
  refine Task.Ensures.bind (h.pushRiskIf fun w₁ h₁ => ?_)
  refine Task.Ensures.bind (h₁.pushRiskIf fun w₂ h₂ => ?_)
  refine Task.Ensures.bind (ensures_verifyExport h₂ hfirst
    (fun result runs' w₃ h₃ hverified hstatus => ?_) fun result evidence w₃ h₃ hshows => ?_)
  · refine hreport result runs' w₃ h₃ fun hsuccess => ?_
    rcases hsuccess with hsuccess | hsuccess
    · simp [hverified] at hsuccess
    · exact absurd hsuccess hstatus
  · refine hreport result _ w₃ h₃ fun _ => ⟨⟨.export, current, evidence⟩, ?_, by simp, rfl, rfl, hshows⟩
    rw [List.head?_append, hfirst]
    rfl

/-! ## The whole minimization -/

lemma not_confirms (hstatus : outcome.status ≠ "REPRODUCED") (hreproduced : outcome.data.reproduced = false)
    (hverification : outcome.data.verification ≠ "exportVerified")
    (hproof : outcome.data.proof = none) : ¬ outcome.confirms := by
  rintro (h | h | h | ⟨proof, h, -⟩)
  · exact hstatus h
  · simp [hreproduced] at h
  · exact hverification h
  · simp [hproof] at h

lemma ensures_finishNotReproduced {reason : String} {run : TrialRun}
    {Q : MinimizeOutcome → MinimizeWorld → Prop} (h : At lowercase request runs w)
    (hQ : ∀ outcome w', At lowercase request runs w' → ¬ outcome.confirms → Q outcome w') :
    (finishNotReproduced request stopReason reason run predicate).Ensures (MinimizeInv lowercase request) Q w := by
  refine Task.Ensures.bind (h.pushRisk fun w₁ h₁ => ?_)
  refine Task.Ensures.bind (h₁.pushRiskIf fun w₂ h₂ => ?_)
  refine Task.Ensures.bind (h₂.sessionNow fun now w₃ h₃ => ?_)
  exact Task.ensures_done (hQ _ w₃ h₃ (not_confirms (by simp) rfl (by simp) rfl))

lemma ensures_finishCancelled {Q : MinimizeOutcome → MinimizeWorld → Prop} (h : At lowercase request runs w)
    (hQ : ∀ outcome w', At lowercase request runs w' → ¬ outcome.confirms → Q outcome w') :
    (finishCancelled request predicate).Ensures (MinimizeInv lowercase request) Q w := by
  refine Task.Ensures.bind (h.sessionNow fun now w₁ h₁ => ?_)
  exact Task.ensures_done (hQ _ w₁ h₁ (not_confirms (by simp) rfl (by simp [baseData]) rfl))

variable (lowercase request sha) in
/-- How a minimization ends: with an outcome that is founded. -/
def EndsFounded (result : Option MinimizeOutcome) (w : MinimizeWorld) : Prop :=
  ∃ outcome, result = some outcome ∧ Founded lowercase request sha outcome w

lemma endsFounded_of_not_confirms (h : ¬ outcome.confirms) : EndsFounded lowercase request sha (some outcome) w :=
  ⟨outcome, rfl, fun hconfirms => absurd hconfirms h⟩

lemma ensures_confirmFailure
    {Q : Except MinimizeOutcome Bool → MinimizeWorld → Prop} (h : At lowercase request runs w)
    (hfirst : runs.head? = some first) (hstop : ∀ outcome w', ¬ outcome.confirms → Q (.error outcome) w')
    (hgo : ∀ confirmed runs' w', At lowercase request (runs ++ runs') w' → Q (.ok confirmed) w') :
    (confirmFailure lowercase request predicate
      ((convertEvidence first.evidence).signatures lowercase) initial).Ensures
      (MinimizeInv lowercase request) Q w := by
  refine Task.Ensures.bind (h.look (fun _ => rfl) fun _ w₁ h₁ => ?_)
  split
  · next hcan =>
    have hlt : runs.length < request.budget.maxCompiles := by
      simpa [h.compiles] using hcan
    refine Task.Ensures.bind (h₁.runTree (by omega) (fun reason w₂ h₂ => ?_)
      fun evidence w₂ h₂ => ?_)
    · exact Task.ensures_done (hstop _ w₂ (not_confirms (by simp [finishUnavailable]) rfl
        (by simp [finishUnavailable]) rfl))
    · dsimp only
      split
      · exact Task.ensures_done (hgo true _ w₂ h₂)
      · refine Task.Ensures.bind (ensures_finishNotReproduced h₂ fun outcome w₃ h₃ hnot => ?_)
        exact Task.ensures_done (hstop outcome w₃ hnot)
  · refine Task.Ensures.bind (h₁.pushRisk fun w₂ h₂ => ?_)
    exact Task.ensures_done (hgo false [] w₂ (by rw [List.append_nil]; exact h₂))

lemma ensures_minimizeTree {data : CandidateTree}
    (hbuild : FailurePredicate.build lowercase request.filtered request.failurePredicate =
      .ok predicate) (h : At lowercase request [] w) :
    (minimizeTree lowercase sha reducer request data predicate).Ensures
      (MinimizeInv lowercase request) (EndsFounded lowercase request sha) w := by
  refine Task.Ensures.bind (h.pushRiskIf fun w₁ h₁ => ?_)
  refine Task.Ensures.bind (h₁.runTree (by simp) (fun reason w₂ h₂ => ?_) fun evidence w₂ h₂ => ?_)
  · exact Task.ensures_done (endsFounded_of_not_confirms (not_confirms
      (by simp [finishUnavailable]) rfl (by simp [finishUnavailable]) rfl))
  -- The run of the unchanged candidate is the first of the history.
  generalize hrun : (⟨.trial, data.files, evidence⟩ : MinimizeRun) = first at h₂
  have hevidence : evidence = first.evidence := by rw [← hrun]
  have htree : first.tree = data.files := by rw [← hrun]
  rw [List.nil_append] at h₂
  dsimp only
  rw [hevidence]
  split
  · refine Task.Ensures.bind (ensures_finishNotReproduced h₂ fun outcome w₃ h₃ hnot => ?_)
    exact Task.ensures_done (endsFounded_of_not_confirms hnot)
  next hmatched =>
  have hinitial : first.Shows lowercase predicate first :=
    reproduces_of_matched (by simpa using hmatched)
  refine Task.Ensures.bind (ensures_confirmFailure h₂ rfl
    (fun outcome w₃ hnot => Task.ensures_done (endsFounded_of_not_confirms hnot))
    fun confirmed runs w₃ h₃ => ?_)
  have hhead : ([first] ++ runs).head? = some first := rfl
  have hobserved : Observed lowercase predicate ([first] ++ runs) data.files :=
    ⟨first, first, rfl, by simp, htree, hinitial⟩
  refine Task.Ensures.bind (h₃.acceptTree hbuild hobserved fun w₄ h₄ => ?_)
  refine Task.Ensures.bind (ensures_searchLoop hbuild (Nat.succ_pos _) (by simp; omega) h₄ hhead
    fun result runs' w₅ h₅ hfirst hresult => ?_)
  cases result with
  | outOfFuel => exact absurd rfl hresult
  | unavailable reason =>
    exact Task.ensures_done (endsFounded_of_not_confirms (not_confirms
      (by simp [finishUnavailable]) rfl (by simp [finishUnavailable]) rfl))
  | cancelled =>
    refine Task.Ensures.bind (ensures_finishCancelled h₅ fun outcome w₆ h₆ hnot => ?_)
    exact Task.ensures_done (endsFounded_of_not_confirms hnot)
  | ended current skippedReferenced skippedScope stopReason =>
    refine Task.Ensures.bind (h₅.pollCancelled fun cancelled w₆ h₆ => ?_)
    split
    · refine Task.Ensures.bind (ensures_finishCancelled h₆ fun outcome w₇ h₇ hnot => ?_)
      exact Task.ensures_done (endsFounded_of_not_confirms hnot)
    · refine Task.Ensures.bind ((ensures_exportMinimized hbuild h₆ hfirst).mono
        fun outcome w₇ houtcome => ?_)
      exact Task.ensures_done ⟨outcome, rfl, houtcome⟩

lemma ensures_minimize (h : At lowercase request [] w) :
    (minimize lowercase sha reducer request).Ensures (MinimizeInv lowercase request)
      (EndsFounded lowercase request sha) w := by
  have hnoEvidence : ∀ reason, ¬ (noEvidenceOutcome request reason).confirms := fun reason =>
    not_confirms (by simp [noEvidenceOutcome]) rfl (by simp [noEvidenceOutcome, baseData]) rfl
  refine Task.Ensures.bind (h.pollCancelled fun cancelled w₁ h₁ => ?_)
  split
  · exact Task.ensures_done (endsFounded_of_not_confirms (not_confirms
      (by simp [cancelledOutcome]) rfl (by simp [cancelledOutcome]) rfl))
  cases htree : request.tree with
  | error reason => exact Task.ensures_done (endsFounded_of_not_confirms (hnoEvidence reason))
  | ok data =>
    dsimp only
    split
    · exact Task.ensures_done (endsFounded_of_not_confirms (hnoEvidence _))
    cases hbuild : FailurePredicate.build lowercase request.filtered request.failurePredicate with
    | error reason => exact Task.ensures_done (endsFounded_of_not_confirms (hnoEvidence reason))
    | ok predicate =>
      cases request.scratch with
      | error reason =>
        exact Task.ensures_done (endsFounded_of_not_confirms (not_confirms
          (by simp [scratchOutcome]) rfl (by simp [scratchOutcome, baseData]) rfl))
      | ok _ => exact ensures_minimizeTree hbuild h₁

lemma at_new : At lowercase request [] ⟨.new, []⟩ :=
  ⟨⟨rfl, by simp [runsOf], fun tree htree => by simp [MinimizeSession.new] at htree⟩, rfl⟩

/-- Whatever the compiler answers, it was run `max 1 max_compiles` times at most and the tree that
is reached showed the failure with nothing new; the minimizer always ends, and confirms only after a
last run in the clean directory on exactly the exported tree that showed the same. -/
theorem minimize_sound (lowercase : String → String) (sha : ByteArray → String) (reducer : Reducer)
    (request : MinimizeRequest) (schedule : List (ℕ × MinimizeInput)) :
    let pool := (Pool.start .new [minimize lowercase sha reducer request]).run schedule
    (runsOf pool.world).length ≤ max 1 request.budget.maxCompiles ∧
    (∀ tree, pool.world.state.current = some tree → ∃ predicate,
      FailurePredicate.build lowercase request.filtered request.failurePredicate = .ok predicate ∧
        Observed lowercase predicate (runsOf pool.world) tree) ∧
    ∀ result, pool.tasks[0]? = some (.done result) →
      ∃ outcome, result = some outcome ∧ Founded lowercase request sha outcome pool.world := by
  have hensures : (minimize lowercase sha reducer request).Ensures (MinimizeInv lowercase request)
      (EndsFounded lowercase request sha) ⟨.new, []⟩ := ensures_minimize at_new
  intro pool
  have hrun : MinimizeInv lowercase request pool.world ∧ ∀ result, pool.tasks[0]? =
      some (.done result) → EndsFounded lowercase request sha result pool.world :=
    Pool.ensures_run hensures at_new.inv
  exact ⟨hrun.1.compiles_le, hrun.1.current, hrun.2⟩

end Sound

end AgzRustMcp
