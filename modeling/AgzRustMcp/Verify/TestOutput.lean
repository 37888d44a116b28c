import AgzRustMcp.Foundation.TextScan
import AgzRustMcp.Repair.Predicate

/-!
# What a test run shows

`observe_test_output` reads which tests were executed in the output of libtest and nextest, which
were ignored, and the counts of the summaries, but not how a test ended.  The executed names are
exactly those that `testReport` reports with some outcome (`mem_executed_iff`).
-/

namespace AgzRustMcp.Verify

open Utf8Text TextScan

/-- The part of `EvidenceStats` that `tools/verify.rs` reads. -/
structure EvidenceStats where
  buildFinished : Bool := true
  buildSuccess : Option Bool := none
  testsExecuted : Option ℕ := none
  testSummaries : ℕ := 0
  emptyTestSummaries : ℕ := 0
  testBinaries : ℕ := 0
  deriving DecidableEq

/-- The part of a `GateStepResult` that shows what the tests did. -/
structure TestStep where
  stats : EvidenceStats := {}
  stdout : Text
  stderr : Text := []
  tail : Text := []
  deriving DecidableEq

/-- The part of a `GateEvidence` that shows what the tests did. -/
structure TestEvidence where
  status : GateStatus
  steps : List TestStep
  deriving DecidableEq

def evidenceText (evidence : TestEvidence) : Text :=
  evidence.steps.flatMap fun step => step.stdout ++ '\n' :: step.stderr ++ '\n' :: step.tail ++ ['\n']

def evidenceIsCompileFailure (evidence : TestEvidence) : Bool :=
  evidence.steps.any fun step => step.stats.buildSuccess = some false

/-! ## Observation -/

structure TestObservation where
  executed : List Text := []
  ignoredNames : List Text := []
  passed : ℕ := 0
  failed : ℕ := 0
  ignored : ℕ := 0
  summarySeen : Bool := false
  deriving DecidableEq

namespace TestObservation

variable (observation : TestObservation)

/-- Adds an executed test. -/
def execute (name : Text) : TestObservation :=
  { observation with executed := observation.executed.insert name }

/-- Adds an ignored test. -/
def ignore (name : Text) : TestObservation :=
  { observation with ignoredNames := observation.ignoredNames.insert name }

def addPassed (n : ℕ) : TestObservation :=
  { observation with passed := saturatingAdd observation.passed n }

def addFailed (n : ℕ) : TestObservation :=
  { observation with failed := saturatingAdd observation.failed n }

def addIgnored (n : ℕ) : TestObservation :=
  { observation with ignored := saturatingAdd observation.ignored n }

end TestObservation

/-- The name and the outcome of a line `test name ... outcome`. -/
def libtestResult (line : Text) : Option (Text × Text) :=
  match stripPrefix "test ".toList line with
  | none => none
  | some rest =>
    match rsplitOnce " ... ".toList rest with
    | none => none
    | some (name, tail) => if trim name = [] then none else some (trim name, trim tail)

/-- The test name of a line of nextest with a marker. -/
def nextestResult (marker line : Text) : Option Text :=
  match stripPrefix marker (line.dropWhile isWhitespace) with
  | none => none
  | some rest =>
    match splitOnce "] ".toList rest with
    | none => none
    | some (_, name) => if trim name = [] then none else some (trim name)

def libtestField (observation : TestObservation) (field : Text) : TestObservation :=
  let field := trim field
  match stripSuffix " passed".toList field with
  | some value => observation.addPassed ((parseU64 value).getD 0)
  | none =>
    match stripSuffix " failed".toList field with
    | some value => observation.addFailed ((parseU64 value).getD 0)
    | none =>
      match stripSuffix " ignored".toList field with
      | some value => observation.addIgnored ((parseU64 value).getD 0)
      | none => observation

def nextestField (observation : TestObservation) (field : Text) : TestObservation :=
  match splitWhitespace field with
  | value :: kind :: _ =>
    match parseU64 value with
    | none => observation
    | some value =>
      if kind = "passed".toList then observation.addPassed value
      else if kind = "failed".toList then observation.addFailed value
      else if kind = "ignored".toList ∨ kind = "skipped".toList then observation.addIgnored value
      else observation
  | _ => observation

def observeResult (observation : TestObservation) (line : Text) : TestObservation :=
  match libtestResult line with
  | none => observation
  | some (name, outcome) =>
    if outcome = "ok".toList ∨ outcome = "FAILED".toList then observation.execute name
    else if outcome = "ignored".toList then observation.ignore name
    else observation

def observeSummary (observation : TestObservation) (line : Text) : TestObservation :=
  match stripPrefix "test result: ".toList line with
  | none => observation
  | some summary =>
    let observation := { observation with summarySeen := true }
    match splitOnce ". ".toList summary with
    | none => observation
    | some (_, fields) => (fields.splitOn ';').foldl libtestField observation

/-- A result line of nextest. -/
def observeMarker (observation : TestObservation) (marker line : Text) : TestObservation :=
  match nextestResult marker line with
  | none => observation
  | some name => observation.execute name

/-- What stands after the first of the needles that a line contains. -/
def afterNeedle (line : Text) : List Text → Option Text
  | [] => none
  | needle :: needles =>
    match splitOnce needle line with
    | some (_, summary) => some summary
    | none => afterNeedle line needles

def observeNextest (observation : TestObservation) (line : Text) : TestObservation :=
  match afterNeedle line [" tests run: ".toList, " test run: ".toList, "test run: ".toList] with
  | none => observation
  | some summary =>
    (summary.splitOn ',').foldl nextestField { observation with summarySeen := true }

/-- The body of the loop of `observe_test_output`. -/
def observeLine (observation : TestObservation) (line : Text) : TestObservation :=
  let line := dropEndWhile isWhitespace line
  let observation := observeSummary (observeResult observation line) line
  let observation := observeMarker observation "PASS ".toList line
  observeNextest (observeMarker observation "FAIL ".toList line) line

def observeTestOutput (text : Text) : TestObservation := (lines text).foldl observeLine {}

def testNameMatches (observed requested : Text) : Bool :=
  observed = requested || ((stripSuffix requested observed).any fun pre => "::".toList.isSuffixOf pre)

/-! ## Outcomes -/

/-- How an executed test ended. -/
inductive TestOutcome where
  | ok | failed
  deriving DecidableEq

def libtestOutcome (outcome : Text) : Option TestOutcome :=
  if outcome = "ok".toList then some .ok
  else if outcome = "FAILED".toList then some .failed
  else none

/-- The tests that a line reports, with their outcomes. -/
def reportLine (line : Text) : List (Text × TestOutcome) :=
  let line := dropEndWhile isWhitespace line
  ((libtestResult line).bind fun result =>
      (libtestOutcome result.2).map fun outcome => (result.1, outcome)).toList ++
    ((nextestResult "PASS ".toList line).map fun name => (name, .ok)).toList ++
    ((nextestResult "FAIL ".toList line).map fun name => (name, .failed)).toList

/-- The tests that an output reports, with their outcomes. -/
def testReport (text : Text) : List (Text × TestOutcome) := (lines text).flatMap reportLine

/-- Some result line reports a test under the requested name with an outcome. -/
def ReportedAs (text requested : Text) (outcome : TestOutcome) : Prop :=
  ∃ entry ∈ testReport text, testNameMatches entry.1 requested = true ∧ entry.2 = outcome

instance (text requested : Text) (outcome : TestOutcome) : Decidable (ReportedAs text requested outcome) :=
  inferInstanceAs (Decidable (∃ entry ∈ testReport text, _ ∧ _))

variable {observation : TestObservation} {line name requested text : Text}

/-- The names that have been observed: of executed tests, and of ignored ones. -/
def TestObservation.names (observation : TestObservation) : List Text × List Text :=
  (observation.executed, observation.ignoredNames)

lemma names_foldl {f : TestObservation → Text → TestObservation} {fields : List Text}
    (hf : ∀ o field, (f o field).names = o.names) : (fields.foldl f observation).names = observation.names := by
  induction fields generalizing observation with
  | nil => rfl
  | cons field fields ih => rw [List.foldl_cons, ih, hf]

lemma names_libtestField (field : Text) : (libtestField observation field).names = observation.names := by
  unfold libtestField
  dsimp only
  split
  · rfl
  · split
    · rfl
    · split <;> rfl

lemma names_nextestField (field : Text) : (nextestField observation field).names = observation.names := by
  unfold nextestField
  repeat' split
  all_goals rfl

lemma names_observeSummary : (observeSummary observation line).names = observation.names := by
  unfold observeSummary
  split
  · rfl
  · dsimp only
    split
    · rfl
    · exact names_foldl fun _ field => names_libtestField field

lemma names_observeNextest : (observeNextest observation line).names = observation.names := by
  unfold observeNextest
  split
  · rfl
  · exact names_foldl fun _ field => names_nextestField field

lemma executed_observeSummary : (observeSummary observation line).executed = observation.executed :=
  congrArg Prod.fst names_observeSummary

lemma executed_observeNextest : (observeNextest observation line).executed = observation.executed :=
  congrArg Prod.fst names_observeNextest

lemma isSome_libtestOutcome {outcome : Text} : (libtestOutcome outcome).isSome = true ↔
    outcome = "ok".toList ∨ outcome = "FAILED".toList := by
  unfold libtestOutcome
  split
  next hok => exact iff_of_true rfl (Or.inl hok)
  next hok =>
    split
    next hfailed => exact iff_of_true rfl (Or.inr hfailed)
    next hfailed => exact iff_of_false Bool.false_ne_true (not_or.mpr ⟨hok, hfailed⟩)

lemma mem_executed_observeResult : name ∈ (observeResult observation line).executed ↔
    name ∈ observation.executed ∨ ∃ result ∈ libtestResult line,
      result.1 = name ∧ (libtestOutcome result.2).isSome = true := by
  unfold observeResult
  cases hresult : libtestResult line with
  | none => simp
  | some result =>
    obtain ⟨found, outcome⟩ := result
    simp only [Option.mem_def, Option.some.injEq, exists_eq_left', isSome_libtestOutcome]
    by_cases hexecuted : outcome = "ok".toList ∨ outcome = "FAILED".toList
    · rw [if_pos hexecuted, TestObservation.execute, List.mem_insert_iff, or_comm,
        and_iff_left hexecuted, eq_comm (a := name)]
    · have hnot : ¬ (found = name ∧ (outcome = "ok".toList ∨ outcome = "FAILED".toList)) :=
        fun h => hexecuted h.2
      rw [if_neg hexecuted, or_iff_left hnot]
      split
      · rfl
      · rfl

lemma mem_executed_observeMarker (marker : Text) : name ∈ (observeMarker observation marker line).executed ↔
      name ∈ observation.executed ∨ nextestResult marker line = some name := by
  unfold observeMarker
  cases hresult : nextestResult marker line with
  | none => simp
  | some found => simp [TestObservation.execute, List.mem_insert_iff, eq_comm, or_comm]

lemma exists_mem_reportLine : (∃ outcome, (name, outcome) ∈ reportLine line) ↔
    (∃ result ∈ libtestResult (dropEndWhile isWhitespace line),
        result.1 = name ∧ (libtestOutcome result.2).isSome = true) ∨
      nextestResult "PASS ".toList (dropEndWhile isWhitespace line) = some name ∨
        nextestResult "FAIL ".toList (dropEndWhile isWhitespace line) = some name := by
  unfold reportLine
  dsimp only
  generalize dropEndWhile isWhitespace line = stripped
  generalize nextestResult "PASS ".toList stripped = pass
  generalize nextestResult "FAIL ".toList stripped = fail
  generalize libtestResult stripped = result
  constructor
  · rintro ⟨outcome, hmem⟩
    rcases List.mem_append.mp hmem with hmem | hmem
    · rcases List.mem_append.mp hmem with hmem | hmem
      · obtain ⟨found, hfound, hmap⟩ := Option.bind_eq_some_iff.mp (Option.mem_toList.mp hmem)
        obtain ⟨outcome', houtcome, heq⟩ := Option.map_eq_some_iff.mp hmap
        exact Or.inl ⟨found, hfound, (Prod.mk.inj heq).1, by rw [houtcome]; rfl⟩
      · obtain ⟨found, hfound, heq⟩ := Option.map_eq_some_iff.mp (Option.mem_toList.mp hmem)
        exact Or.inr (Or.inl ((Prod.mk.inj heq).1 ▸ hfound))
    · obtain ⟨found, hfound, heq⟩ := Option.map_eq_some_iff.mp (Option.mem_toList.mp hmem)
      exact Or.inr (Or.inr ((Prod.mk.inj heq).1 ▸ hfound))
  · rintro (⟨found, hfound, rfl, hsome⟩ | rfl | rfl)
    · obtain ⟨outcome, houtcome⟩ := Option.isSome_iff_exists.mp hsome
      refine ⟨outcome, List.mem_append_left _ (List.mem_append_left _ (Option.mem_toList.mpr ?_))⟩
      rw [Option.mem_def.mp hfound, Option.bind_some, houtcome]
      rfl
    · exact ⟨.ok, List.mem_append_left _ (List.mem_append_right _ (by simp))⟩
    · exact ⟨.failed, List.mem_append_right _ (by simp)⟩

lemma mem_executed_observeLine : name ∈ (observeLine observation line).executed ↔
    name ∈ observation.executed ∨ ∃ outcome, (name, outcome) ∈ reportLine line := by
  rw [exists_mem_reportLine]
  simp only [observeLine, executed_observeNextest, mem_executed_observeMarker,
    executed_observeSummary, mem_executed_observeResult, or_assoc]

lemma mem_executed_iff : name ∈ (observeTestOutput text).executed ↔ ∃ outcome, (name, outcome) ∈ testReport text := by
  have hfold : ∀ (rest : List Text) (o : TestObservation), name ∈ (rest.foldl observeLine o).executed ↔
        name ∈ o.executed ∨ ∃ outcome, (name, outcome) ∈ rest.flatMap reportLine := by
    intro rest
    induction rest with
    | nil => simp
    | cons line rest ih =>
      intro o
      rw [List.foldl_cons, ih, mem_executed_observeLine, List.flatMap_cons]
      simp only [List.mem_append, exists_or, or_assoc]
  rw [observeTestOutput, hfold]
  simp [testReport]

lemma mem_ignoredNames_observeLine : name ∈ (observeLine observation line).ignoredNames ↔
    name ∈ observation.ignoredNames ∨
      libtestResult (dropEndWhile isWhitespace line) = some (name, "ignored".toList) := by
  have hmarker : ∀ (o : TestObservation) (marker line : Text),
      (observeMarker o marker line).ignoredNames = o.ignoredNames := by
    intro o marker line
    unfold observeMarker
    split <;> rfl
  unfold observeLine
  dsimp only
  rw [show ∀ o line, (observeNextest o line).ignoredNames = o.ignoredNames from
      fun _ _ => congrArg Prod.snd names_observeNextest, hmarker, hmarker,
    show ∀ o line, (observeSummary o line).ignoredNames = o.ignoredNames from
      fun _ _ => congrArg Prod.snd names_observeSummary]
  unfold observeResult
  cases hresult : libtestResult (dropEndWhile isWhitespace line) with
  | none => simp
  | some result =>
    obtain ⟨found, outcome⟩ := result
    dsimp only
    have hother : outcome ≠ "ignored".toList → some (found, outcome) ≠ some (name, "ignored".toList) :=
      fun hne h => hne (Prod.mk.inj (Option.some.inj h)).2
    split_ifs with hexecuted hignored
    · have hne : outcome ≠ "ignored".toList := by
        rcases hexecuted with rfl | rfl <;> decide
      exact (or_iff_left (hother hne)).symm
    · simp [TestObservation.ignore, hignored, List.mem_insert_iff, eq_comm, or_comm]
    · exact (or_iff_left (hother hignored)).symm

lemma mem_ignoredNames_iff : name ∈ (observeTestOutput text).ignoredNames ↔
    ∃ line ∈ lines text, libtestResult (dropEndWhile isWhitespace line) = some (name, "ignored".toList) := by
  have hfold : ∀ (rest : List Text) (o : TestObservation),
      name ∈ (rest.foldl observeLine o).ignoredNames ↔ name ∈ o.ignoredNames ∨
        ∃ line ∈ rest, libtestResult (dropEndWhile isWhitespace line) = some (name, "ignored".toList) := by
    intro rest
    induction rest with
    | nil => simp
    | cons line rest ih =>
      intro o
      rw [List.foldl_cons, ih, mem_ignoredNames_observeLine, or_assoc]
      simp only [List.mem_cons, exists_eq_or_imp]
  rw [observeTestOutput, hfold]
  simp

end AgzRustMcp.Verify
