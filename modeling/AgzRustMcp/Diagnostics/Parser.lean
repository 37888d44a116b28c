import AgzRustMcp.Diagnostics.Records
import AgzRustMcp.Gate.Validation

/-!
# Reading the output of Cargo

`diagnostics/parser.rs`.  The control sequences of terminals are taken out of the whole output before it is
read (`sanitizeText`).  Then every line is read as a record of Cargo, or where that fails as a diagnostic in
the short form (`parseShortDiagnosticLine`).
-/

namespace AgzRustMcp.Records

open Utf8Text
open JsonText (Value)
open TextScan (stripPrefix splitOnce rsplitOnce parseU64)

inductive EscapeState
  | normal
  | escape
  | csi
  | osc
  | oscEscape
  deriving Repr, DecidableEq

/-- What one character adds to the clean text, and the state behind it. -/
def EscapeState.step (state : EscapeState) (character : Char) : Text × EscapeState :=
  match state with
  | .normal =>
    if character = '\x1b' then ([], .escape)
    else if character = '\u009b' then ([], .csi)
    else if character = '\u009d' then ([], .osc)
    else if character = '\n' ∨ character = '\x0d' ∨ character = '\t' then ([character], .normal)
    else if Gate.isControl character then ([], .normal)
    else ([character], .normal)
  | .escape =>
    if character = '[' then ([], .csi) else if character = ']' then ([], .osc) else ([], .normal)
  | .csi => if '@' ≤ character ∧ character ≤ '~' then ([], .normal) else ([], .csi)
  | .osc =>
    if character = '\x07' ∨ character = '\u009c' then ([], .normal)
    else if character = '\x1b' then ([], .oscEscape)
    else ([], .osc)
  | .oscEscape =>
    if character = '\\' ∨ character = '\u009c' then ([], .normal)
    else if character = '\x1b' then ([], .oscEscape)
    else ([], .osc)

def EscapeState.clean (state : EscapeState) : Text → Text
  | [] => []
  | character :: text => (state.step character).1 ++ (state.step character).2.clean text

def sanitizeText (input : Text) : Text := EscapeState.normal.clean input

def isECode (value : Text) : Bool :=
  match value with
  | 'E' :: first :: rest => first.isDigit && rest.all (·.isDigit)
  | _ => false

/-- The first of the two markers: its level, and what is in front of it and behind it. -/
def severity (line : Text) : Option (DiagnosticLevel × Text × Text) :=
  match splitOnce ": error".toList line, splitOnce ": warning".toList line with
  | none, none => none
  | some (front, rest), none => some (.error, front, rest)
  | none, some (front, rest) => some (.warning, front, rest)
  | some (front, rest), some (front', rest') =>
    if front.length ≤ front'.length then some (.error, front, rest) else some (.warning, front', rest')

def codeAndMessage (rest : Text) : Option (Option Text × Text) :=
  match stripPrefix ['['] rest with
  | some rest =>
    match splitOnce [']'] rest with
    | none => none
    | some (candidate, behind) =>
      if isECode candidate then some (some candidate, trim ((stripPrefix [':'] behind).getD behind))
      else none
  | none => some (none, trim ((stripPrefix [':'] rest).getD rest))

def parseShortDiagnosticLine (line : Text) : Option Diagnostic := do
  let line := sanitizeText line
  let (level, front, rest) ← severity line
  let (front, column) ← rsplitOnce [':'] front
  let column ← parseU64 column
  let (file, lineNumber) ← rsplitOnce [':'] front
  let lineNumber ← parseU64 lineNumber
  let file := trim file
  if file.isEmpty || lineNumber == 0 || column == 0 then none
  else
    let (code, message) ← codeAndMessage rest
    some
      { packageId := none
        targetName := none
        code := code
        level := level
        file := some file
        line := some lineNumber
        message := sanitizeText message
        rootKey := none
        rendered := none
        spans := []
        children := []
        suggestions := []
        untrustedData := true }

/-! ## Diagnostics from records -/

def parseApplicability (value : Text) : Option SuggestionApplicability :=
  if value = "MachineApplicable".toList then some .machineApplicable
  else if value = "MaybeIncorrect".toList then some .maybeIncorrect
  else if value = "HasPlaceholders".toList then some .hasPlaceholders
  else if value = "Unspecified".toList then some .unspecified
  else none

def normalizeCode (raw : RawCode) : Option Text := do
  let code ← match raw with
    | .object code => code
    | .string code => some code
  let code := sanitizeText code
  if code.isEmpty then none else some code

def normalizeSpanText (text : RawSpanText) : Option SpanText := do
  let content ← text.text
  some ⟨sanitizeText content, text.highlightStart.getD 0, text.highlightEnd.getD 0⟩

mutual

/-- A span without a file is kept for its replacement only. -/
def normalizeSpan : RawSpan → Option DiagnosticSpan
  | ⟨fileName, byteStart, byteEnd, lineStart, lineEnd, columnStart, columnEnd, isPrimary, label,
      suggestedReplacement, suggestionApplicability, expansion, text⟩ =>
    let file := (fileName.map sanitizeText).getD []
    if file.isEmpty && suggestedReplacement.isNone then none
    else
      some
        { file := file
          byteStart := byteStart
          byteEnd := byteEnd
          lineStart := lineStart.getD 0
          lineEnd := (lineEnd.or lineStart).getD 0
          columnStart := columnStart.getD 1
          columnEnd := (columnEnd.or columnStart).getD 1
          isPrimary := isPrimary.getD false
          label := label.map sanitizeText
          suggestedReplacement := suggestedReplacement.map sanitizeText
          suggestionApplicability := suggestionApplicability.bind parseApplicability
          expansion := normalizeExpansion expansion
          text := text.filterMap normalizeSpanText
          rangeComplete :=
            lineStart.isSome && lineEnd.isSome && columnStart.isSome && columnEnd.isSome }

def normalizeExpansion : Option (RawExpansion RawSpan) → Option (MacroExpansion DiagnosticSpan)
  | none => none
  | some ⟨span, macroDeclName, defSiteSpan⟩ =>
    (normalizeSpan? span).map fun span =>
      ⟨(macroDeclName.map sanitizeText).filter (!·.isEmpty), span, normalizeSpan? defSiteSpan⟩

def normalizeSpan? : Option RawSpan → Option DiagnosticSpan
  | none => none
  | some span => normalizeSpan span

end

mutual

def normalizeChild : RawDiagnostic → DiagnosticChild
  | ⟨_, level, message, spans, children, rendered⟩ =>
    { level := sanitizeText (level.getD "help".toList)
      message := sanitizeText (message.getD [])
      rendered := rendered.map sanitizeText
      spans := spans.filterMap normalizeSpan
      children := normalizeChildren children }

def normalizeChildren : List RawDiagnostic → List DiagnosticChild
  | [] => []
  | child :: children => normalizeChild child :: normalizeChildren children

end

def SuggestionApplicability.rank : SuggestionApplicability → ℕ
  | .machineApplicable => 0
  | .maybeIncorrect => 1
  | .hasPlaceholders => 2
  | .unspecified => 3

/-- The applicability of the highest rank. -/
def worstApplicability (applicabilities : List SuggestionApplicability) : SuggestionApplicability :=
  (applicabilities.argmax SuggestionApplicability.rank).getD .unspecified

/-- `add_suggestion`: the suggestion of some spans, if any of them has a replacement. -/
def suggestionOf (message : Text) (spans : List DiagnosticSpan) : List CompilerSuggestion :=
  let spans := spans.filter (·.suggestedReplacement.isSome)
  if spans.isEmpty then []
  else
    [{ message := message
       applicability := worstApplicability (spans.filterMap (·.suggestionApplicability))
       edits := spans.map fun span =>
        { file := String.ofList span.file
          lineStart := span.lineStart
          lineEnd := span.lineEnd
          columnStart := span.columnStart
          columnEnd := span.columnEnd
          replacement := String.ofList (span.suggestedReplacement.getD [])
          byteStart := span.byteStart
          byteEnd := span.byteEnd
          rangeComplete := span.rangeComplete } }]

mutual

/-- `collect_child_suggestions`. -/
def childSuggestions : DiagnosticChild → List CompilerSuggestion
  | ⟨_, message, _, spans, children⟩ => suggestionOf message spans ++ childrenSuggestions children

def childrenSuggestions : List DiagnosticChild → List CompilerSuggestion
  | [] => []
  | child :: children => childSuggestions child ++ childrenSuggestions children

end

def collectSuggestions (rootMessage : Option Text) (rootSpans : List DiagnosticSpan)
    (children : List DiagnosticChild) : List CompilerSuggestion :=
  suggestionOf ((rootMessage.map sanitizeText).getD "compiler suggestion".toList) rootSpans ++
    childrenSuggestions children

def primarySpan (spans : List DiagnosticSpan) : Option DiagnosticSpan :=
  (spans.find? (·.isPrimary)).or spans.head?

def collapseWhitespace (value : Text) : Text := [' '].intercalate (splitWhitespace value)

/-- `root_key`: what two reports of one finding agree on. -/
def rootKey (diagnostic : Diagnostic) : Text :=
  let primary := primarySpan diagnostic.spans
  ['\x1f'].intercalate [diagnostic.code.getD [], diagnostic.level.asStr, diagnostic.file.getD [],
    Nat.toDigits 10 (diagnostic.line.getD 0), Nat.toDigits 10 ((primary.map (·.columnStart)).getD 0),
    Nat.toDigits 10 ((primary.map (·.lineEnd)).getD 0),
    Nat.toDigits 10 ((primary.map (·.columnEnd)).getD 0), collapseWhitespace diagnostic.message]

/-- The level of a message of the compiler that is kept. -/
def levelOf (level : Option Text) : Option DiagnosticLevel :=
  if level = some "error".toList then some .error
  else if level = some "warning".toList then some .warning
  else none

def normalizeDiagnostic (raw : RawDiagnostic) : Option Diagnostic := do
  let level ← levelOf raw.level
  let spans := raw.spans.filterMap normalizeSpan
  let primary := primarySpan spans
  let children := normalizeChildren raw.children
  let diagnostic : Diagnostic :=
    { packageId := none
      targetName := none
      code := raw.code.bind normalizeCode
      level := level
      file := primary.map (·.file)
      line := primary.map (·.lineStart)
      message := sanitizeText (raw.message.getD [])
      rootKey := none
      rendered := raw.rendered.map sanitizeText
      spans := spans
      children := children
      suggestions := collectSuggestions raw.message spans children
      untrustedData := true }
  some { diagnostic with rootKey := some (rootKey diagnostic) }

/-! ## Whole outputs -/

def unitKey (serde : SerdeJson) (diagnostic : Diagnostic) : Text :=
  serde.debugOption diagnostic.packageId ++ ':' :: serde.debugOption diagnostic.targetName ++
    ':' :: rootKey diagnostic

def detailScore (diagnostic : Diagnostic) : ℕ :=
  diagnostic.spans.length + diagnostic.children.length * 2 + diagnostic.suggestions.length * 4 +
    ((diagnostic.rendered.map String.utf8Len).getD 0) / 1000

/-- The loop over the lines: the diagnostics by key, and the telemetry. -/
structure Reading where
  diagnostics : List Diagnostic
  indexes : List (Text × ℕ)
  build : CargoBuildTelemetry

/-- `insert_diagnostic`: of two diagnostics with one key the more detailed one stays. -/
def Reading.insertDiagnostic (serde : SerdeJson) (reading : Reading) (diagnostic : Diagnostic) : Reading :=
  let key := unitKey serde diagnostic
  let diagnostic := { diagnostic with rootKey := some key }
  match reading.indexes.find? (·.1 = key) with
  | some (_, index) =>
    if ((reading.diagnostics[index]?).map detailScore).getD 0 < detailScore diagnostic then
      { reading with diagnostics := reading.diagnostics.set index diagnostic }
    else reading
  | none =>
    { reading with
      diagnostics := reading.diagnostics ++ [diagnostic]
      indexes := reading.indexes ++ [(key, reading.diagnostics.length)] }

def linkKinds : List Text := ["bin".toList, "cdylib".toList, "dylib".toList, "proc-macro".toList]

def artifact (build : CargoBuildTelemetry) (message : CargoMessage) : CargoBuildTelemetry :=
  let build := { build with totalUnits := saturatingAdd build.totalUnits 1 }
  let build :=
    if message.fresh.getD false then { build with freshUnits := saturatingAdd build.freshUnits 1 }
    else { build with rebuiltUnits := saturatingAdd build.rebuiltUnits 1 }.recordRebuiltPackage
      message.packageId
  let executable := message.executable.any (!·.isEmpty)
  let linkKind := (message.target.bind (·.kind)).any (·.any (linkKinds.contains ·))
  if executable || linkKind then { build with linkedUnits := saturatingAdd build.linkedUnits 1 } else build

def Reading.record (serde : SerdeJson) (reading : Reading) (message : CargoMessage) : Reading :=
  if message.reason = some "compiler-artifact".toList then
    { reading with build := artifact reading.build message }
  else if message.reason = some "build-script-executed".toList then
    { reading with
      build := { reading.build with
        buildScripts := saturatingAdd reading.build.buildScripts 1 }.recordBuildScriptPackage
          message.packageId }
  else if message.reason = some "compiler-message".toList then
    match message.message.bind normalizeDiagnostic with
    | some diagnostic =>
      reading.insertDiagnostic serde { diagnostic with
        packageId := message.packageId
        targetName := message.target.bind (·.name) }
    | none => reading
  else reading

def trimStart (text : Text) : Text := text.dropWhile isWhitespace

/-- `line.strip_suffix('\r').unwrap_or(line)`. -/
def stripReturn (line : Text) : Text := (TextScan.stripSuffix ['\x0d'] line).getD line

def recordOf (serde : SerdeJson) (line : Text) : Option CargoMessage :=
  if ['\x7b'].isPrefixOf (trimStart line) then serde.fromStrMessage (trimStart line) else none

/-- One turn of the loop over the lines. -/
def Reading.line (serde : SerdeJson) (reading : Reading) (line : Text) : Reading :=
  let line := stripReturn line
  match recordOf serde line with
  | some message => reading.record serde message
  | none =>
    match parseShortDiagnosticLine line with
    | some diagnostic => reading.insertDiagnostic serde diagnostic
    | none => reading

def parseCargoOutput (serde : SerdeJson) (output : Text) : CargoOutput :=
  let cleanOutput := sanitizeText output
  let reading := (cleanOutput.splitOn '\n').foldl (Reading.line serde) ⟨[], [], .empty⟩
  { untrustedData := !(trim cleanOutput).isEmpty
    truncated := false
    diagnostics := reading.diagnostics
    build := if reading.build.isEmpty then none else some reading.build }

/-- `valid_known_message`: records of known kinds have their fields. -/
def validKnownMessage (serde : SerdeJson) (line : Text) (value : Value) : Bool :=
  let reason := (value.get "reason".toList).asStr
  if reason = some "compiler-message".toList ∨ reason = some "compiler-artifact".toList then
    match serde.fromStrMessage line with
    | none => false
    | some message =>
      if message.reason = some "compiler-message".toList then
        message.message.any fun d => d.level.isSome && d.message.isSome
      else message.target.isSome && message.fresh.isSome
  else if reason = some "build-finished".toList then (value.get "success".toList).asBool.isSome
  else true

end AgzRustMcp.Records
