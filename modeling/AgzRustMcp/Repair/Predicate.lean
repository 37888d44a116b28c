import AgzRustMcp.Change.Evidence

/-!
# Failure predicates and compiler runs

What the minimizer takes for the same failure.  A run matches a `FailurePredicate` when it is a
terminal result with all its diagnostics, one of them has the code, the level, the file and the
normalised message, and no error signature is new.  The cap of `TrialRun.signatures` is never
reached (`signatures_eq`).  Lower case follows the Unicode tables, a parameter here.
-/

namespace AgzRustMcp

def normalizeMessage (lowercase : String → String) (message : String) : String :=
  lowercase (" ".intercalate ((splitWhitespace message.toList).map String.ofList))

/-- The next token between backticks, trimmed, and the rest. -/
def backtickedToken (text : List Char) : Option (List Char × List Char) :=
  match text.dropWhile (· ≠ '`') with
  | [] => none
  | _ :: after =>
    match after.dropWhile (· ≠ '`') with
    | [] => none
    | _ :: rest => some (trim (after.takeWhile (· ≠ '`')), rest)

/-- The loop of `backticked_tokens`, with the length as fuel. -/
def backtickedFrom : ℕ → List Char → List String → List String
  | 0, _, tokens => tokens
  | fuel + 1, text, tokens =>
    match backtickedToken text with
    | none => tokens
    | some (token, rest) =>
      if token ≠ [] ∧ String.ofList token ∉ tokens then
        let tokens := tokens ++ [String.ofList token]
        if tokens.length ≥ 16 then tokens else backtickedFrom fuel rest tokens
      else backtickedFrom fuel rest tokens

def backtickedTokens (message : String) : List String :=
  backtickedFrom message.toList.length message.toList []

/-! ## Cargo runs -/

structure ObservedDiagnostic where
  code : Option String
  level : String
  file : Option String
  message : String
  deriving DecidableEq

/-- What is kept of one Cargo step, errors first, and what is left out. -/
structure CargoStep where
  durationMs : ℕ
  command : String
  parsed : List ObservedDiagnostic
  omittedRecords : ℕ

/-- `diagnostic_limit` of compact evidence. -/
def compactDiagnosticLimit : ℕ := 5

def CargoStep.diagnostics (step : CargoStep) : List ObservedDiagnostic :=
  step.parsed.take compactDiagnosticLimit

/-- The number of diagnostics that a compact step leaves out. -/
def CargoStep.diagnosticsOmitted (step : CargoStep) : ℕ :=
  saturatingAdd step.omittedRecords (step.parsed.length - compactDiagnosticLimit)

/-- The length of `FULL_ORDER`, the targets of a run of all gates. -/
def fullOrderLength : ℕ := 4

/-- The part of a `GateEvidence` that the minimizer reads: one step a target. -/
structure CargoEvidence where
  status : GateStatus
  steps : List CargoStep
  message : Option String
  steps_le : steps.length ≤ fullOrderLength

structure TrialRun where
  status : GateStatus
  totalMs : ℕ
  diagnostics : List ObservedDiagnostic
  diagnosticsOmitted : ℕ
  command : String
  message : String
  deriving DecidableEq

/-- `observed`, once the path of the diagnostic is relative to the root of the run. -/
def observed (diagnostic : ObservedDiagnostic) : ObservedDiagnostic :=
  { diagnostic with message := truncate diagnostic.message 2048 }

def convertEvidence (evidence : CargoEvidence) : TrialRun where
  status := evidence.status
  totalMs := evidence.steps.foldl (fun total step => saturatingAdd total step.durationMs) 0
  diagnostics := evidence.steps.flatMap fun step => step.diagnostics.map observed
  diagnosticsOmitted :=
    evidence.steps.foldl (fun total step => saturatingAdd total step.diagnosticsOmitted) 0
  command := evidence.steps.foldl (fun command step => if command = "" then step.command else command) ""
  message := evidence.message.getD ""

def signatureKey (lowercase : String → String) (diagnostic : ObservedDiagnostic) : String :=
  diagnostic.code.getD "uncoded" ++ "|" ++ normalizeMessage lowercase diagnostic.message

def maxSignaturesPerRun : ℕ := 512

/-- The loop of `TrialRun::signatures`. -/
def signaturesFrom (lowercase : String → String) : List ObservedDiagnostic → List String → List String
  | [], signatures => signatures
  | diagnostic :: rest, signatures =>
    if diagnostic.level ≠ "error" then signaturesFrom lowercase rest signatures
    else
      let signatures := signatures.insert (signatureKey lowercase diagnostic)
      if signatures.length ≥ maxSignaturesPerRun then signatures
      else signaturesFrom lowercase rest signatures

/-- `TrialRun::signatures`, in the order of a `BTreeSet`. -/
def TrialRun.signatures (lowercase : String → String) (run : TrialRun) : List String :=
  (signaturesFrom lowercase run.diagnostics []).insertionSort (· ≤ ·)

def TrialRun.errorCount (run : TrialRun) : ℕ :=
  (run.diagnostics.filter fun diagnostic => diagnostic.level == "error").length

/-! ## Failure predicates -/

structure FailurePredicate where
  diagnosticId : String
  code : String
  level : String
  file : Option String
  line : Option ℕ
  normalizedMessage : String
  messageFragments : List String
  messageTokens : List String
  source : String
  deriving DecidableEq

structure RepairFailurePredicateInput where
  code : Option String
  messageContains : List String
  file : Option String

/-- `diagnostic_id` of `repair/analysis.rs`. -/
def diagnosticId (diagnostic : ChangeDiagnosticData) : String :=
  let code := diagnostic.code.getD "diagnostic"
  match diagnostic.file, diagnostic.line with
  | some file, some line => s!"{code}@{file}:{line}"
  | none, some line => s!"{code}@line:{line}"
  | some file, none => s!"{code}@{file}"
  | none, none => code

/-- Texts that consist of blanks only are taken for missing. -/
def nonBlank (text : Option String) : Option String := text.filter fun text => trim text.toList ≠ []

/-- The diagnostic that `FailurePredicate::build` selects. -/
def selectDiagnostic (diagnostics : List ChangeDiagnosticData)
    (input : Option RepairFailurePredicateInput) : Except String ChangeDiagnosticData :=
  let file := nonBlank (input.bind RepairFailurePredicateInput.file)
  let eligible := fun diagnostic : ChangeDiagnosticData =>
    diagnostic.level = "error" ∧ ∀ wanted ∈ file, diagnostic.file = some wanted
  match nonBlank (input.bind RepairFailurePredicateInput.code) with
  | some code =>
    match diagnostics.find? fun diagnostic => eligible diagnostic ∧ diagnostic.code = some code with
    | some selected => .ok selected
    | none => .error "the failurePredicate code does not match any fresh error diagnostic"
  | none =>
    let coded := diagnostics.find? fun diagnostic =>
      eligible diagnostic ∧ (nonBlank diagnostic.code).isSome
    match coded.orElse fun _ => diagnostics.find? fun diagnostic => eligible diagnostic with
    | some selected => .ok selected
    | none => .error "the failurePredicate does not match any fresh error diagnostic"

/-- The caller gave a part of the predicate. -/
def RepairFailurePredicateInput.isGiven (input : RepairFailurePredicateInput) : Bool :=
  input.code.isSome || input.file.isSome || !input.messageContains.isEmpty

def FailurePredicate.build (lowercase : String → String) (diagnostics : List ChangeDiagnosticData)
    (input : Option RepairFailurePredicateInput) : Except String FailurePredicate := do
  let selected ← selectDiagnostic diagnostics input
  match nonBlank selected.code with
  | none =>
    .error "the selected diagnostic has no error code; an explicit failurePredicate.code is required"
  | some code =>
    let fragments := ((input.map RepairFailurePredicateInput.messageContains).getD []).map
      (normalizeMessage lowercase) |>.filter (· ≠ "")
    let normalizedMessage :=
      if fragments = [] then normalizeMessage lowercase selected.message else ""
    if normalizedMessage = "" ∧ fragments = [] then
      .error "the selected diagnostic carries no message structure to anchor a predicate"
    else
      .ok
        { diagnosticId := AgzRustMcp.diagnosticId selected
          code
          level := "error"
          file := (input.bind RepairFailurePredicateInput.file).orElse fun _ => selected.file
          line := selected.line
          normalizedMessage
          messageFragments := fragments
          messageTokens := backtickedTokens selected.message
          source := if (input.map RepairFailurePredicateInput.isGiven).getD false then
            "input+evidence" else "evidence" }

/-- `FailurePredicate::code_matches`: level, code and file agree. -/
def FailurePredicate.codeMatches (predicate : FailurePredicate) (diagnostic : ObservedDiagnostic) : Bool :=
  diagnostic.level == predicate.level && diagnostic.code == some predicate.code &&
    predicate.file.all fun file => diagnostic.file == some file

def FailurePredicate.matches (lowercase : String → String) (predicate : FailurePredicate)
    (diagnostic : ObservedDiagnostic) : Bool :=
  let normalized := normalizeMessage lowercase diagnostic.message
  predicate.codeMatches diagnostic &&
    (predicate.normalizedMessage == "" || normalized == predicate.normalizedMessage) &&
    predicate.messageFragments.all fun fragment => fragment.toList <:+: normalized.toList

inductive MatchKind where
  | matched | newSignatures | messageMismatch | codeAbsent | inconclusive
  deriving DecidableEq

def MatchKind.asStr : MatchKind → String
  | .matched => "matched"
  | .newSignatures => "newSignatures"
  | .messageMismatch => "messageMismatch"
  | .codeAbsent => "codeAbsent"
  | .inconclusive => "inconclusive"

structure Evaluation where
  kind : MatchKind
  matched : Bool
  reason : String

def inconclusiveReason (run : TrialRun) : String :=
  match run.status with
  | .timeout => "the Cargo run timed out; a timeout never counts as the original failure"
  | .cancelled => "the Cargo run was cancelled"
  | .unavailable | .inconclusive | .resourceBlocked =>
    s!"the Cargo run was unavailable or inconclusive: {truncate run.message 160}"
  | .fastPass | .fullPass => "the trial compiled successfully, so the target failure is gone"
  | _ =>
    if run.diagnosticsOmitted > 0 then
      "the Cargo diagnostics were truncated; no unambiguous match is possible"
    else s!"the Cargo run was not a clean terminal result: {run.status.asStr}"

def evaluateRun (lowercase : String → String) (predicate : FailurePredicate)
    (baseline : List String) (run : TrialRun) : Evaluation :=
  if !run.status.isVerdict || run.diagnosticsOmitted > 0 then
    ⟨.inconclusive, false, inconclusiveReason run⟩
  else if !run.diagnostics.any (predicate.matches lowercase) then
    if run.diagnostics.any predicate.codeMatches then
      ⟨.messageMismatch, false, s!"{predicate.code} appears but its message no longer matches the target predicate"⟩
    else ⟨.codeAbsent, false, s!"{predicate.code} is no longer produced by the trial"⟩
  else
    let newSignatures := ((run.signatures lowercase).filter (· ∉ baseline)).take 8
    if newSignatures ≠ [] then
      let listed := "; ".intercalate newSignatures
      ⟨.newSignatures, false, s!"the trial introduced new error signature(s): {listed}"⟩
    else
      ⟨.matched, true,
        s!"the target predicate matched with {run.errorCount} error diagnostic(s) and no new signatures"⟩

/-! ## What a match says -/

section Matches

variable {lowercase : String → String} {predicate : FailurePredicate} {baseline : List String} {run : TrialRun}

/-- The error signatures of a run, without a cap. -/
def TrialRun.errorSignatures (lowercase : String → String) (run : TrialRun) : List String :=
  (run.diagnostics.filter fun diagnostic => diagnostic.level == "error").map (signatureKey lowercase)

/-- The run shows the failure and no other error signature. -/
structure Reproduces (lowercase : String → String) (predicate : FailurePredicate)
    (signatures : List String) (run : TrialRun) : Prop where
  verdict : run.status.isVerdict = true
  complete : run.diagnosticsOmitted = 0
  shown : ∃ diagnostic ∈ run.diagnostics, predicate.matches lowercase diagnostic = true
  nothing_new : ∀ signature ∈ run.errorSignatures lowercase, signature ∈ signatures

lemma mem_signaturesFrom {diagnostics : List ObservedDiagnostic} {signatures : List String}
    (h : signatures.length + diagnostics.length < maxSignaturesPerRun) {signature : String} :
    signature ∈ signaturesFrom lowercase diagnostics signatures ↔ signature ∈ signatures ∨
      signature ∈ (diagnostics.filter fun diagnostic => diagnostic.level == "error").map
        (signatureKey lowercase) := by
  induction diagnostics generalizing signatures with
  | nil => simp [signaturesFrom]
  | cons diagnostic rest ih =>
    rw [List.length_cons] at h
    unfold signaturesFrom
    by_cases hlevel : diagnostic.level = "error"
    · have hinsert : (signatures.insert (signatureKey lowercase diagnostic)).length ≤ signatures.length + 1 := by
        rw [List.length_insert]
        split <;> omega
      have hcap : ¬ (signatures.insert (signatureKey lowercase diagnostic)).length ≥
          maxSignaturesPerRun := by omega
      rw [if_neg (not_not.mpr hlevel)]
      dsimp only
      rw [if_neg hcap, ih (by omega), List.mem_insert_iff]
      simp [hlevel, or_assoc, or_left_comm]
    · rw [if_pos hlevel, ih (by omega)]
      simp [hlevel]

lemma length_convertEvidence (evidence : CargoEvidence) :
    (convertEvidence evidence).diagnostics.length < maxSignaturesPerRun := by
  have hsteps : ∀ steps : List CargoStep, (steps.flatMap fun step => step.diagnostics.map observed).length ≤
        steps.length * compactDiagnosticLimit := by
    intro steps
    induction steps with
    | nil => simp
    | cons step steps ih =>
      have hstep : step.diagnostics.length ≤ compactDiagnosticLimit := List.length_take_le _ _
      rw [List.flatMap_cons, List.length_append, List.length_map, List.length_cons, Nat.succ_mul]
      omega
  have hle := evidence.steps_le
  calc (convertEvidence evidence).diagnostics.length
      ≤ evidence.steps.length * compactDiagnosticLimit := hsteps evidence.steps
    _ ≤ fullOrderLength * compactDiagnosticLimit := Nat.mul_le_mul_right _ hle
    _ < maxSignaturesPerRun := by decide

lemma mem_signatures (evidence : CargoEvidence) {signature : String} :
    signature ∈ (convertEvidence evidence).signatures lowercase ↔
      signature ∈ (convertEvidence evidence).errorSignatures lowercase := by
  unfold TrialRun.signatures TrialRun.errorSignatures
  rw [List.mem_insertionSort, mem_signaturesFrom (by simpa using length_convertEvidence evidence)]
  simp

lemma evaluateRun_matched : (evaluateRun lowercase predicate baseline run).matched = true ↔
    run.status.isVerdict = true ∧ run.diagnosticsOmitted = 0 ∧
      (∃ diagnostic ∈ run.diagnostics, predicate.matches lowercase diagnostic = true) ∧
      ∀ signature ∈ run.signatures lowercase, signature ∈ baseline := by
  unfold evaluateRun
  by_cases hverdict : run.status.isVerdict = true
  · by_cases homitted : run.diagnosticsOmitted = 0
    · rw [if_neg (by simp [hverdict, homitted])]
      by_cases hshown : run.diagnostics.any (predicate.matches lowercase) = true
      · rw [if_neg (by simp [hshown])]
        have hnew : ((run.signatures lowercase).filter (· ∉ baseline)).take 8 = [] ↔
            ∀ signature ∈ run.signatures lowercase, signature ∈ baseline := by
          rw [List.take_eq_nil_iff]
          simp [List.filter_eq_nil_iff]
        dsimp only
        by_cases hbaseline : ∀ signature ∈ run.signatures lowercase, signature ∈ baseline
        · rw [if_neg (not_not.mpr (hnew.mpr hbaseline))]
          exact ⟨fun _ => ⟨hverdict, homitted, List.any_eq_true.mp hshown, hbaseline⟩, fun _ => rfl⟩
        · rw [if_pos fun h => hbaseline (hnew.mp h)]
          exact ⟨fun h => by simp at h, fun h => absurd h.2.2.2 hbaseline⟩
      · rw [if_pos (by simp [hshown])]
        refine ⟨fun h => ?_, fun h => absurd (List.any_eq_true.mpr h.2.2.1) hshown⟩
        split at h <;> simp at h
    · rw [if_pos (by simp; omega)]
      exact ⟨fun h => by simp at h, fun h => absurd h.2.1 homitted⟩
  · rw [if_pos (by simp [hverdict])]
    exact ⟨fun h => by simp at h, fun h => absurd h.1 hverdict⟩

lemma reproduces_of_matched {evidence first : CargoEvidence}
    (h : (evaluateRun lowercase predicate ((convertEvidence first).signatures lowercase)
      (convertEvidence evidence)).matched = true) :
    Reproduces lowercase predicate ((convertEvidence first).errorSignatures lowercase)
      (convertEvidence evidence) := by
  obtain ⟨hverdict, hcomplete, hshown, hnew⟩ := evaluateRun_matched.mp h
  exact ⟨hverdict, hcomplete, hshown, fun signature hsignature =>
    (mem_signatures first).mp (hnew signature ((mem_signatures evidence).mpr hsignature))⟩

end Matches

end AgzRustMcp
