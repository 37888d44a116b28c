import AgzRustMcp.Change.Path

/-!
# The change record and its parts

The durable data of `change/model.rs`, `change/capture.rs` and `config.rs`.  Maps with text keys are
ordered maps, as in the source.
-/

namespace AgzRustMcp

open Std (ExtTreeMap)

/-- `u64::MAX`. -/
def u64Max : ℕ := 2 ^ 64 - 1

/-- `u64::saturating_add`. -/
def saturatingAdd (a b : ℕ) : ℕ := min (a + b) u64Max

/-- `ChangeConfig`, in the ranges that `Config::validate` accepts. -/
structure ChangeConfig where
  maxActive : ℕ
  maxFiles : ℕ
  maxBytes : ℕ
  ttlMs : ℕ
  maxRevisions : ℕ
  maxActive_range : 1 ≤ maxActive ∧ maxActive ≤ 64
  maxFiles_range : 1 ≤ maxFiles ∧ maxFiles ≤ 1000000
  maxBytes_range : 1024 ≤ maxBytes ∧ maxBytes ≤ u64Max
  ttlMs_range : 1 ≤ ttlMs ∧ ttlMs ≤ u64Max
  maxRevisions_range : 1 ≤ maxRevisions ∧ maxRevisions ≤ 4096

/-- The limits of `Config::default`. -/
def ChangeConfig.default : ChangeConfig where
  maxActive := 4
  maxFiles := 20000
  maxBytes := 268435456
  ttlMs := 86400000
  maxRevisions := 32
  maxActive_range := by decide
  maxFiles_range := by decide
  maxBytes_range := by decide
  ttlMs_range := by decide
  maxRevisions_range := by decide

/-- One `oldString`/`newString` patch. -/
structure PatchInput where
  file : String
  oldString : String
  newString : String
  deriving DecidableEq

structure NewFileInput where
  file : String
  content : String
  deriving DecidableEq

/-- The action names that results report. -/
inductive ChangeAction where
  | create | stage | migrate | inspect | validate | export | discard
  deriving DecidableEq

def ChangeAction.asStr : ChangeAction → String
  | .create => "create"
  | .stage => "stage"
  | .migrate => "migrate"
  | .inspect => "inspect"
  | .validate => "validate"
  | .export => "export"
  | .discard => "discard"

/-! ## The record -/

inductive RecordState where
  | capturing | ready | applying | failedInconsistent | discarded
  deriving DecidableEq

def RecordState.asStr : RecordState → String
  | .capturing => "capturing"
  | .ready => "ready"
  | .applying => "applying"
  | .failedInconsistent => "failed_inconsistent"
  | .discarded => "discarded"

/-- One captured file. -/
structure ManifestEntry where
  path : String
  sha256 : String
  bytes : ℕ
  deriving DecidableEq

structure CaptureManifest where
  files : List ManifestEntry
  totalBytes : ℕ
  excluded : List String
  deriving DecidableEq

/-- What the record keeps of the capture. -/
structure CaptureSummary where
  files : ℕ
  bytes : ℕ
  manifestHash : String
  complete : Bool
  excluded : List String
  deriving DecidableEq

/-- One recorded patch; its file is the text of the normalised path. -/
structure StoredPatch where
  file : String
  oldString : String
  newString : String
  deriving DecidableEq

/-- One recorded new file, with the hash of the content it was created with. -/
structure StoredNewFile where
  file : String
  content : String
  sha256 : String
  bytes : ℕ
  deriving DecidableEq

/-- The recorded hash of a staged file. -/
structure StoredHash where
  sha256 : String
  bytes : ℕ
  deriving DecidableEq

/-- One bounded compiler diagnostic. -/
structure ChangeDiagnosticData where
  code : Option String
  level : String
  file : Option String
  line : Option ℕ
  message : String
  deriving DecidableEq

/-- The bounded suggestion package of a failed validation. -/
structure ChangeSuggestionPackageData where
  patches : List PatchInput
  skipped : List String
  unsupported : ℕ
  patchesTotal : ℕ
  skippedTotal : ℕ
  truncated : Bool
  deriving DecidableEq

/-- One validation row of the record. -/
structure StoredEvidence where
  revision : ℕ
  target : String
  command : String
  status : String
  exitCode : Option ℤ
  firstDiagnosticMs : Option ℕ
  totalMs : ℕ
  fresh : Bool
  authoritative : Bool
  recordedAtMs : ℕ
  diagnostics : List ChangeDiagnosticData
  diagnosticsTotal : ℕ
  diagnosticsOmitted : ℕ
  suggestionPackage : Option ChangeSuggestionPackageData
  deriving DecidableEq

/-- `StoredEvidence::supersede`: the row loses its freshness and its feedback. -/
def StoredEvidence.supersede (row : StoredEvidence) : StoredEvidence :=
  { row with
    fresh := false
    authoritative := false
    diagnostics := []
    diagnosticsTotal := 0
    diagnosticsOmitted := 0
    suggestionPackage := none }

structure ChangeRecord where
  id : String
  updatedAtMs : ℕ
  workspaceEpoch : ℕ
  baseIdentity : String
  state : RecordState
  capture : CaptureSummary
  revision : ℕ
  applyingRevision : Option ℕ
  patches : List StoredPatch
  newFiles : List StoredNewFile
  changedFiles : List String
  candidateFiles : ℕ
  candidateBytes : ℕ
  patchHash : String
  sourceHashes : ExtTreeMap String StoredHash
  evidence : List StoredEvidence
  cleanupWarnings : List String

def maxCleanupWarnings : ℕ := 32

def maxChangedFilesInRecord : ℕ := 20000

def maxRecordedEvidence : ℕ := 256

def pushWarning (warnings : List String) (warning : String) : List String :=
  if warnings.length < maxCleanupWarnings then warnings ++ [warning] else warnings

/-- `truncate` of `change/store.rs`: the longest prefix within the bound. -/
def truncate (text : String) (max : ℕ) : String :=
  String.ofList (Utf8Text.takeBytes text.toList max)

/-- A row that `current_revision_fresh_pass` accepts for the given revision. -/
def StoredEvidence.isFreshPass (row : StoredEvidence) (revision : ℕ) : Bool :=
  row.revision == revision && row.fresh && row.authoritative &&
    (row.status == "PASS" || row.status == "FULL_PASS" || row.status == "FAST_PASS")

def ChangeRecord.currentRevisionFreshPass (record : ChangeRecord) : Bool :=
  record.evidence.any fun row => row.isFreshPass record.revision

lemma ChangeRecord.exists_of_currentRevisionFreshPass {record : ChangeRecord}
    (h : record.currentRevisionFreshPass = true) :
    ∃ row ∈ record.evidence, row.revision = record.revision ∧ row.fresh = true ∧ row.authoritative = true := by
  obtain ⟨row, hrow, hpass⟩ := List.any_eq_true.mp h
  simp only [StoredEvidence.isFreshPass, Bool.and_eq_true, beq_iff_eq] at hpass
  exact ⟨row, hrow, hpass.1.1.1, hpass.1.1.2, hpass.1.2⟩

end AgzRustMcp
