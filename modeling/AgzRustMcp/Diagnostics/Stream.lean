import AgzRustMcp.Foundation.Utf8Stream
import AgzRustMcp.Foundation.Utf8Tail
import AgzRustMcp.Diagnostics.Parser

/-!
# Evidence from a running Cargo

`CargoStream` of `diagnostics/stream.rs` takes the output of Cargo in chunks, reads it line by line
and keeps bounded evidence.  A line may be cut anywhere, and one that is longer than the bound is
left out whole.
-/

namespace AgzRustMcp.Records

open Utf8Text
open JsonText (Value)
open TextScan (stripPrefix stripSuffix splitOnce parseU64)
open String (utf8Len)

/-! ## Counters -/

structure EvidenceStats where
  diagnosticRecords : ℕ
  duplicates : ℕ
  omittedRecords : ℕ
  malformedLines : ℕ
  oversizedLines : ℕ
  buildFinished : Bool
  buildSuccess : Option Bool
  testsExecuted : Option ℕ
  testSummaries : ℕ
  emptyTestSummaries : ℕ
  testBinaries : ℕ
  deriving Repr, DecidableEq

namespace EvidenceStats

/-- `EvidenceStats::default`. -/
def initial : EvidenceStats := ⟨0, 0, 0, 0, 0, false, none, none, 0, 0, 0⟩

def malformed (stats : EvidenceStats) : EvidenceStats :=
  { stats with malformedLines := saturatingAdd stats.malformedLines 1 }

/-- What the summary of a test binary adds. -/
def summary (stats : EvidenceStats) (passed failed : ℕ) : EvidenceStats :=
  { stats with
    testSummaries := saturatingAdd stats.testSummaries 1
    emptyTestSummaries :=
      if passed = 0 ∧ failed = 0 then saturatingAdd stats.emptyTestSummaries 1
      else stats.emptyTestSummaries
    testsExecuted :=
      some (saturatingAdd (saturatingAdd (stats.testsExecuted.getD 0) passed) failed) }

/-- What the JSON value of a line adds: a test binary, or the end of the build. -/
def value (stats : EvidenceStats) (message : Value) : EvidenceStats :=
  let reason := (message.get "reason".toList).asStr
  let stats :=
    if reason = some "compiler-artifact".toList ∧
        ((message.get "profile".toList).get "test".toList).asBool = some true ∧
        (message.get "executable".toList).asStr.isSome then
      { stats with testBinaries := saturatingAdd stats.testBinaries 1 }
    else stats
  if reason = some "build-finished".toList then
    { stats with
      buildFinished := (message.get "success".toList).asBool.isSome
      buildSuccess := (message.get "success".toList).asBool }
  else stats

end EvidenceStats

/-- The counts of passed and failed tests in the summary of a test binary. -/
def testSummary (line : Text) : Option (ℕ × ℕ) := do
  let rest ← stripPrefix "test result: ".toList line
  let (_, summary) ← splitOnce ". ".toList rest
  let fields := summary.splitOn ';'
  let passed ← stripSuffix " passed".toList (trim (← fields[0]?))
  let passed ← parseU64 passed
  let failed ← stripSuffix " failed".toList (trim (← fields[1]?))
  let failed ← parseU64 failed
  some (passed, failed)

/-- The records that are not shown to people. -/
def cargoReasons : List Text :=
  ["compiler-message".toList, "compiler-artifact".toList, "build-script-executed".toList, "build-finished".toList]

/-- What the telemetry of one line adds. -/
def CargoBuildTelemetry.merge (build more : CargoBuildTelemetry) : CargoBuildTelemetry :=
  let record := fun (state : List Text × Bool) name => recordPackage state.1 state.2 name
  let rebuilt := more.rebuiltPackages.foldl record (build.rebuiltPackages, build.packagesTruncated)
  let scripts := more.buildScriptPackages.foldl record (build.buildScriptPackages, rebuilt.2)
  { totalUnits := saturatingAdd build.totalUnits more.totalUnits
    freshUnits := saturatingAdd build.freshUnits more.freshUnits
    rebuiltUnits := saturatingAdd build.rebuiltUnits more.rebuiltUnits
    buildScripts := saturatingAdd build.buildScripts more.buildScripts
    linkedUnits := saturatingAdd build.linkedUnits more.linkedUnits
    rebuiltPackages := rebuilt.1
    buildScriptPackages := scripts.1
    packagesTruncated := scripts.2 || more.packagesTruncated }

structure CargoStream where
  line : List UInt8
  discardLine : Bool
  maxLine : ℕ
  maxDiagnostics : ℕ
  maxEvidenceBytes : ℕ
  evidenceBytes : ℕ
  diagnostics : List Diagnostic
  keys : Finset Text
  build : CargoBuildTelemetry
  stats : EvidenceStats
  humanOutput : Text

def serializedSize (diagnostic : Diagnostic) : ℕ := utf8Len diagnostic.toJson.compact

def lastWarning (diagnostics : List Diagnostic) : Option ℕ :=
  (diagnostics.reverse.findIdx? (·.level = .warning)).map (diagnostics.length - 1 - ·)

namespace CargoStream

def new (maxLine maxDiagnostics maxEvidenceBytes : ℕ) : CargoStream where
  line := []
  discardLine := false
  maxLine := maxLine
  maxDiagnostics := maxDiagnostics
  maxEvidenceBytes := maxEvidenceBytes
  evidenceBytes := 0
  diagnostics := []
  keys := ∅
  build := .empty
  stats := .initial
  humanOutput := []

/-! ### Retention -/

/-- One more record was left out. -/
def leaveOut (stream : CargoStream) : CargoStream :=
  { stream with
    stats := { stream.stats with omittedRecords := saturatingAdd stream.stats.omittedRecords 1 } }

/-- The diagnostic at a position is given up. -/
def evict (serde : SerdeJson) (stream : CargoStream) (index : ℕ) (removed : Diagnostic) : CargoStream :=
  leaveOut { stream with
    diagnostics := stream.diagnostics.eraseIdx index
    keys := stream.keys.erase (unitKey serde removed)
    evidenceBytes := stream.evidenceBytes - serializedSize removed }

/-- There is no room for a diagnostic of a size. -/
def full (stream : CargoStream) (size : ℕ) : Bool :=
  stream.maxDiagnostics ≤ stream.diagnostics.length || decide (stream.maxEvidenceBytes < stream.evidenceBytes + size)

/-- The loop that makes room; each turn but the last gives a warning up. -/
def makeRoom (serde : SerdeJson) (diagnostic : Diagnostic) : ℕ → CargoStream → CargoStream × Bool
  | 0, stream => (stream.leaveOut, false)
  | turns + 1, stream =>
    if stream.full (serializedSize diagnostic) then
      if diagnostic.level = .error then
        match lastWarning stream.diagnostics with
        | some index =>
          match stream.diagnostics[index]? with
          | some removed => makeRoom serde diagnostic turns (stream.evict serde index removed)
          | none => (stream.leaveOut, false)
        | none => (stream.leaveOut, false)
      else (stream.leaveOut, false)
    else (stream, true)

def keep (serde : SerdeJson) (stream : CargoStream) (diagnostic : Diagnostic) : CargoStream :=
  { stream with
    evidenceBytes := stream.evidenceBytes + serializedSize diagnostic
    keys := insert (unitKey serde diagnostic) stream.keys
    diagnostics := stream.diagnostics ++ [diagnostic] }

def retain (serde : SerdeJson) (stream : CargoStream) (diagnostic : Diagnostic) : CargoStream :=
  let stream := { stream with
    stats := { stream.stats with diagnosticRecords := saturatingAdd stream.stats.diagnosticRecords 1 } }
  if unitKey serde diagnostic ∈ stream.keys then
    { stream with stats := { stream.stats with duplicates := saturatingAdd stream.stats.duplicates 1 } }
  else if stream.maxEvidenceBytes < serializedSize diagnostic ∨ stream.maxDiagnostics = 0 then stream.leaveOut
  else
    match makeRoom serde diagnostic (stream.diagnostics.length + 1) stream with
    | (stream, true) => stream.keep serde diagnostic
    | (stream, false) => stream

/-- The end of the text for people is kept, cut between two characters. -/
def retainHumanOutput (stream : CargoStream) (line : Text) : CargoStream :=
  let clean := sanitizeText line
  if (trim clean).isEmpty then stream
  else { stream with humanOutput := tailOf 4000 (stream.humanOutput ++ clean ++ ['\n']) }

/-- What the reading of a line adds. -/
def parsed (serde : SerdeJson) (stream : CargoStream) (line : Text) : CargoStream :=
  let parsed := parseCargoOutput serde line
  let stream := match parsed.build with
    | some build => { stream with build := stream.build.merge build }
    | none => stream
  parsed.diagnostics.foldl (retain serde) stream

def consumeText (serde : SerdeJson) (stream : CargoStream) (line : Text) : CargoStream :=
  let stream := match testSummary line with
    | some (passed, failed) => { stream with stats := stream.stats.summary passed failed }
    | none => stream
  if ['\x7b'].isPrefixOf (trimStart line) then
    match serde.fromStrValue line with
    | some message =>
      let stream := { stream with stats := stream.stats.value message }
      if validKnownMessage serde line message then
        if ((message.get "reason".toList).asStr).any (cargoReasons.contains ·) then
          stream.parsed serde line
        else (stream.retainHumanOutput line).parsed serde line
      else { stream with stats := stream.stats.malformed }
    | none => { stream with stats := stream.stats.malformed }
  else (stream.retainHumanOutput line).parsed serde line

def consumeLine (serde : SerdeJson) (stream : CargoStream) : CargoStream :=
  if stream.discardLine then stream
  else
    let bytes := stream.line
    let stream := { stream with line := [] }
    match fromUtf8 bytes with
    | .ok line => stream.consumeText serde line
    | .error _ => { stream with stats := stream.stats.malformed }

/-! ### Chunks -/

def segment (stream : CargoStream) (piece : List UInt8) : CargoStream :=
  if stream.discardLine then stream
  else if stream.maxLine < saturatingAdd stream.line.length piece.length then
    { stream with
      line := []
      discardLine := true
      stats := { stream.stats with oversizedLines := saturatingAdd stream.stats.oversizedLines 1 } }
  else { stream with line := stream.line ++ piece }

def endLine (serde : SerdeJson) (stream : CargoStream) : CargoStream :=
  { stream.consumeLine serde with discardLine := false }

def newline : UInt8 := 10

/-- The loop over the lines of a chunk. -/
def pushLines (serde : SerdeJson) (stream : CargoStream) (bytes : List UInt8) : CargoStream :=
  if bytes = [] then stream
  else
    match bytes.findIdx? (· = newline) with
    | none => stream.segment bytes
    | some stop =>
      pushLines serde ((stream.segment (bytes.take stop)).endLine serde) (bytes.drop (stop + 1))
termination_by bytes.length
decreasing_by
  have := List.length_pos_iff.mpr ‹¬ bytes = []›
  rw [List.length_drop]
  omega

/-- What a chunk leaves, and whether a diagnostic was observed in it. -/
def push (serde : SerdeJson) (stream : CargoStream) (bytes : List UInt8) : CargoStream × Bool :=
  let pushed := stream.pushLines serde bytes
  (pushed, decide (stream.stats.diagnosticRecords < pushed.stats.diagnosticRecords))

def finishWithHumanOutput (serde : SerdeJson) (stream : CargoStream) : CargoOutput × EvidenceStats × Text :=
  let stream := stream.consumeLine serde
  let truncated := 0 < stream.stats.omittedRecords ∨ 0 < stream.stats.malformedLines ∨ 0 < stream.stats.oversizedLines
  ({ diagnostics := stream.diagnostics
     build := if stream.build.isEmpty then none else some stream.build
     untrustedData := true
     truncated := truncated },
    stream.stats, stream.humanOutput)

def pushAll (serde : SerdeJson) (stream : CargoStream) (chunks : List (List UInt8)) : CargoStream :=
  chunks.foldl (fun stream bytes => (stream.push serde bytes).1) stream

/-! ## Read boundaries -/

variable {serde : SerdeJson} {stream : CargoStream} {bytes more piece rest : List UInt8}

lemma segment_append (stream : CargoStream) (piece more : List UInt8) :
    stream.segment (piece ++ more) = (stream.segment piece).segment more := by
  unfold segment
  by_cases hdiscard : stream.discardLine = true
  · rw [if_pos hdiscard, if_pos hdiscard, if_pos hdiscard]
  · rw [if_neg hdiscard, if_neg hdiscard]
    by_cases hlong : stream.maxLine < saturatingAdd stream.line.length piece.length
    · have hwhole : stream.maxLine < saturatingAdd stream.line.length (piece ++ more).length := by
        rw [List.length_append, saturatingAdd] at *
        omega
      rw [if_pos hlong, if_pos hwhole, if_pos rfl]
    · have hsame : saturatingAdd stream.line.length (piece ++ more).length =
          saturatingAdd (stream.line ++ piece).length more.length := by
        rw [List.length_append, List.length_append, Nat.add_comm piece.length, saturatingAdd, saturatingAdd]
        omega
      rw [if_neg hlong, if_neg hdiscard, hsame]
      split_ifs
      · rfl
      · rw [List.append_assoc]

lemma pushLines_nil : stream.pushLines serde [] = stream := by
  rw [pushLines, if_pos rfl]

lemma pushLines_piece (hne : piece ≠ []) (hpiece : newline ∉ piece) :
    stream.pushLines serde piece = stream.segment piece := by
  have hnone : piece.findIdx? (· = newline) = none := by
    rw [List.findIdx?_eq_none_iff]
    intro byte hbyte
    exact decide_eq_false fun heq => hpiece (heq ▸ hbyte)
  rw [pushLines, if_neg hne, hnone]

lemma pushLines_line (hpiece : newline ∉ piece) (rest : List UInt8) :
    stream.pushLines serde (piece ++ newline :: rest) =
      ((stream.segment piece).endLine serde).pushLines serde rest := by
  have hstop : (piece ++ newline :: rest).findIdx? (· = newline) = some piece.length := by
    rw [List.findIdx?_append, List.findIdx?_eq_none_iff.mpr]
    · simp [List.findIdx?_cons]
    · intro byte hbyte
      exact decide_eq_false fun heq => hpiece (heq ▸ hbyte)
  rw [pushLines, if_neg (by simp), hstop]
  simp

lemma newline_cases (bytes : List UInt8) :
    newline ∉ bytes ∨ ∃ piece rest, newline ∉ piece ∧ bytes = piece ++ newline :: rest := by
  by_cases h : newline ∈ bytes
  · obtain ⟨piece, rest, rfl, hpiece⟩ := List.eq_append_cons_of_mem h
    exact Or.inr ⟨piece, rest, hpiece, rfl⟩
  · exact Or.inl h

/-- What has been read may be cut anywhere. -/
theorem pushLines_append (stream : CargoStream) (bytes more : List UInt8) :
    stream.pushLines serde (bytes ++ more) = (stream.pushLines serde bytes).pushLines serde more := by
  induction hn : bytes.length using Nat.strong_induction_on generalizing stream bytes with
  | _ n ih =>
    rcases newline_cases bytes with hbytes | ⟨piece, rest, hpiece, rfl⟩
    · rcases eq_or_ne bytes [] with rfl | hne
      · rw [pushLines_nil, List.nil_append]
      · rw [pushLines_piece hne hbytes]
        rcases newline_cases more with hmore | ⟨piece, rest, hpiece, rfl⟩
        · rcases eq_or_ne more [] with rfl | hmore'
          · rw [pushLines_nil, List.append_nil, pushLines_piece hne hbytes]
          · have hboth : newline ∉ bytes ++ more := by simp [hbytes, hmore]
            rw [pushLines_piece hmore' hmore, pushLines_piece (by simp [hne]) hboth, segment_append]
        · have hboth : newline ∉ bytes ++ piece := by simp [hbytes, hpiece]
          rw [← List.append_assoc, pushLines_line hboth, pushLines_line hpiece, segment_append]
    · rw [List.append_assoc, List.cons_append, pushLines_line hpiece, pushLines_line hpiece]
      refine ih rest.length ?_ _ rest rfl
      rw [← hn, List.length_append, List.length_cons]
      omega

lemma pushAll_eq (stream : CargoStream) (chunks : List (List UInt8)) :
    stream.pushAll serde chunks = stream.pushLines serde chunks.flatten := by
  induction chunks generalizing stream with
  | nil => rw [List.flatten_nil, pushLines_nil, pushAll, List.foldl_nil]
  | cons chunk chunks ih =>
    rw [List.flatten_cons, pushLines_append, ← ih, pushAll, pushAll, List.foldl_cons]
    rfl

/-- What a stream has found does not depend on where its input was cut. -/
theorem stream_independent_of_chunks (serde : SerdeJson)
    (maxLine maxDiagnostics maxEvidenceBytes : ℕ) (chunks others : List (List UInt8))
    (h : chunks.flatten = others.flatten) :
    ((new maxLine maxDiagnostics maxEvidenceBytes).pushAll serde chunks).finishWithHumanOutput serde =
      ((new maxLine maxDiagnostics maxEvidenceBytes).pushAll serde others).finishWithHumanOutput serde := by
  rw [pushAll_eq, pushAll_eq, h]

end CargoStream

/-- A reader of lines on which there is no record. -/
def plainSerde : SerdeJson := ⟨fun _ => none, fun _ => none, id⟩

theorem stream_independent_of_chunks_plain :
    ((CargoStream.new 8 2 64).pushAll plainSerde [[97], [10, 98]]).finishWithHumanOutput plainSerde =
      ((CargoStream.new 8 2 64).pushAll plainSerde [[97, 10], [], [98]]).finishWithHumanOutput
        plainSerde :=
  CargoStream.stream_independent_of_chunks plainSerde 8 2 64 [[97], [10, 98]] [[97, 10], [], [98]] (by decide)

end AgzRustMcp.Records
