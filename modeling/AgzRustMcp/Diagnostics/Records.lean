import AgzRustMcp.Foundation.Json
import AgzRustMcp.Foundation.TextScan
import AgzRustMcp.Diagnostics.Suggestions

/-!
# The records of Cargo and what is kept of them

The messages of Cargo as `diagnostics/parser.rs` reads them, and the diagnostics and telemetry that
they become.  What `serde_json`
reads in a text and the rendering with `Debug` are left to a `SerdeJson`.
-/

namespace AgzRustMcp.Records

open Utf8Text
open JsonText (Value)

/-! ## What Cargo writes -/

structure RawTarget where
  name : Option Text
  kind : Option (List Text)

inductive RawCode
  | object (code : Option Text)
  | string (code : Text)

structure RawSpanText where
  text : Option Text
  highlightStart : Option ℕ
  highlightEnd : Option ℕ

/-- The expansion of a span, over the spans. -/
structure RawExpansion (σ : Type) where
  span : Option σ
  macroDeclName : Option Text
  defSiteSpan : Option σ

structure RawSpan where
  fileName : Option Text
  byteStart : Option ℕ
  byteEnd : Option ℕ
  lineStart : Option ℕ
  lineEnd : Option ℕ
  columnStart : Option ℕ
  columnEnd : Option ℕ
  isPrimary : Option Bool
  label : Option Text
  suggestedReplacement : Option Text
  suggestionApplicability : Option Text
  expansion : Option (RawExpansion RawSpan)
  text : List RawSpanText

structure RawDiagnostic where
  code : Option RawCode
  level : Option Text
  message : Option Text
  spans : List RawSpan
  children : List RawDiagnostic
  rendered : Option Text

structure CargoMessage where
  packageId : Option Text
  reason : Option Text
  message : Option RawDiagnostic
  fresh : Option Bool
  executable : Option Text
  target : Option RawTarget

/-- What `serde_json::from_str` reads, and the rendering with `Debug`. -/
structure SerdeJson where
  fromStrValue : Text → Option Value
  fromStrMessage : Text → Option CargoMessage
  debugText : Text → Text

/-- `{:?}` of an `Option<String>`. -/
def SerdeJson.debugOption (serde : SerdeJson) : Option Text → Text
  | none => "None".toList
  | some text => "Some(".toList ++ serde.debugText text ++ [')']

/-! ## What is kept -/

inductive DiagnosticLevel
  | error
  | warning
  deriving Repr, DecidableEq

def DiagnosticLevel.asStr : DiagnosticLevel → Text
  | .error => "error".toList
  | .warning => "warning".toList

structure SpanText where
  text : Text
  highlightStart : ℕ
  highlightEnd : ℕ

/-- The expansion of a span, over the spans. -/
structure MacroExpansion (σ : Type) where
  macroDeclName : Option Text
  span : σ
  definitionSpan : Option σ

structure DiagnosticSpan where
  file : Text
  byteStart : Option ℕ
  byteEnd : Option ℕ
  lineStart : ℕ
  lineEnd : ℕ
  columnStart : ℕ
  columnEnd : ℕ
  isPrimary : Bool
  label : Option Text
  suggestedReplacement : Option Text
  suggestionApplicability : Option SuggestionApplicability
  expansion : Option (MacroExpansion DiagnosticSpan)
  text : List SpanText
  rangeComplete : Bool

structure DiagnosticChild where
  level : Text
  message : Text
  rendered : Option Text
  spans : List DiagnosticSpan
  children : List DiagnosticChild

structure CompilerSuggestion where
  message : Text
  applicability : SuggestionApplicability
  edits : List CompilerSuggestionEdit

structure Diagnostic where
  packageId : Option Text
  targetName : Option Text
  code : Option Text
  level : DiagnosticLevel
  file : Option Text
  line : Option ℕ
  message : Text
  rootKey : Option Text
  rendered : Option Text
  spans : List DiagnosticSpan
  children : List DiagnosticChild
  suggestions : List CompilerSuggestion
  untrustedData : Bool

/-- The part of a diagnostic that the packager of suggestions reads. -/
def Diagnostic.forPackager (diagnostic : Diagnostic) : AgzRustMcp.Diagnostic where
  suggestions := diagnostic.suggestions.map fun suggestion => ⟨suggestion.applicability, suggestion.edits⟩

/-! ## As JSON -/

def optional {α : Type} (write : α → Value) : Option α → Value
  | none => .null
  | some a => write a

def applicabilityName : SuggestionApplicability → Text
  | .machineApplicable => "MachineApplicable".toList
  | .maybeIncorrect => "MaybeIncorrect".toList
  | .hasPlaceholders => "HasPlaceholders".toList
  | .unspecified => "Unspecified".toList

def SpanText.toJson (text : SpanText) : Value :=
  .object [("text".toList, .string text.text), ("highlightStart".toList, .nat text.highlightStart),
    ("highlightEnd".toList, .nat text.highlightEnd)]

mutual

/-- The excerpts of a span are left out when there are none. -/
def DiagnosticSpan.toJson : DiagnosticSpan → Value
  | ⟨file, byteStart, byteEnd, lineStart, lineEnd, columnStart, columnEnd, isPrimary, label,
      suggestedReplacement, suggestionApplicability, expansion, text, _⟩ =>
    .object ([("file".toList, .string file), ("byteStart".toList, optional .nat byteStart),
      ("byteEnd".toList, optional .nat byteEnd), ("lineStart".toList, .nat lineStart),
      ("lineEnd".toList, .nat lineEnd), ("columnStart".toList, .nat columnStart),
      ("columnEnd".toList, .nat columnEnd), ("isPrimary".toList, .bool isPrimary),
      ("label".toList, optional .string label),
      ("suggestedReplacement".toList, optional .string suggestedReplacement),
      ("suggestionApplicability".toList, optional (fun a => .string (applicabilityName a)) suggestionApplicability),
      ("expansion".toList, expansionJson expansion)] ++
      if text.isEmpty then [] else [("text".toList, .array (text.map SpanText.toJson))])

def expansionJson : Option (MacroExpansion DiagnosticSpan) → Value
  | none => .null
  | some expansion => MacroExpansion.toJson expansion

def MacroExpansion.toJson : MacroExpansion DiagnosticSpan → Value
  | ⟨macroDeclName, span, definitionSpan⟩ =>
    .object [("macroDeclName".toList, optional .string macroDeclName), ("span".toList, span.toJson),
      ("definitionSpan".toList, definitionJson definitionSpan)]

def definitionJson : Option DiagnosticSpan → Value
  | none => .null
  | some span => span.toJson

end

mutual

def DiagnosticChild.toJson : DiagnosticChild → Value
  | ⟨level, message, rendered, spans, children⟩ =>
    .object [("level".toList, .string level), ("message".toList, .string message),
      ("rendered".toList, optional .string rendered),
      ("spans".toList, .array (spans.map DiagnosticSpan.toJson)),
      ("children".toList, .array (childrenJson children))]

def childrenJson : List DiagnosticChild → List Value
  | [] => []
  | child :: children => child.toJson :: childrenJson children

end

/-- The offsets of an edit are not written. -/
def editJson (edit : CompilerSuggestionEdit) : Value :=
  .object [("file".toList, .string edit.file.toList), ("lineStart".toList, .nat edit.lineStart),
    ("lineEnd".toList, .nat edit.lineEnd), ("columnStart".toList, .nat edit.columnStart),
    ("columnEnd".toList, .nat edit.columnEnd), ("replacement".toList, .string edit.replacement.toList)]

def CompilerSuggestion.toJson (suggestion : CompilerSuggestion) : Value :=
  .object [("message".toList, .string suggestion.message),
    ("applicability".toList, .string (applicabilityName suggestion.applicability)),
    ("edits".toList, .array (suggestion.edits.map editJson))]

def Diagnostic.toJson (diagnostic : Diagnostic) : Value :=
  .object [("packageId".toList, optional .string diagnostic.packageId),
    ("targetName".toList, optional .string diagnostic.targetName),
    ("code".toList, optional .string diagnostic.code),
    ("level".toList, .string diagnostic.level.asStr),
    ("file".toList, optional .string diagnostic.file), ("line".toList, optional .nat diagnostic.line),
    ("message".toList, .string diagnostic.message),
    ("rootKey".toList, optional .string diagnostic.rootKey),
    ("rendered".toList, optional .string diagnostic.rendered),
    ("spans".toList, .array (diagnostic.spans.map DiagnosticSpan.toJson)),
    ("children".toList, .array (diagnostic.children.map DiagnosticChild.toJson)),
    ("suggestions".toList, .array (diagnostic.suggestions.map CompilerSuggestion.toJson)),
    ("untrustedData".toList, .bool diagnostic.untrustedData)]

/-! ## Telemetry -/

def maxTrackedPackages : ℕ := 64

structure CargoBuildTelemetry where
  totalUnits : ℕ
  freshUnits : ℕ
  rebuiltUnits : ℕ
  buildScripts : ℕ
  linkedUnits : ℕ
  rebuiltPackages : List Text
  buildScriptPackages : List Text
  packagesTruncated : Bool
  deriving Repr, DecidableEq

/-- The telemetry before the first record. -/
def CargoBuildTelemetry.empty : CargoBuildTelemetry := ⟨0, 0, 0, 0, 0, [], [], false⟩

def CargoBuildTelemetry.isEmpty (build : CargoBuildTelemetry) : Bool :=
  build.totalUnits == 0 && build.buildScripts == 0

def packageDisplayName : Option Text → Text
  | none => "unknown".toList
  | some packageId =>
    let afterHash := ((TextScan.rsplitOnce ['#'] packageId).map (·.2)).getD packageId
    let candidate := trim (((TextScan.rsplitOnce ['@'] afterHash).map (·.1)).getD afterHash)
    if candidate.isEmpty then "unknown".toList else candidate.take 256

/-- `record_package`: the list and the flag behind it. -/
def recordPackage (target : List Text) (truncated : Bool) (name : Text) : List Text × Bool :=
  if target.any (· == name) then (target, truncated)
  else if maxTrackedPackages ≤ target.length then (target, true)
  else (target ++ [name], truncated)

def CargoBuildTelemetry.recordRebuiltPackage (build : CargoBuildTelemetry) (packageId : Option Text) :
    CargoBuildTelemetry :=
  let (packages, truncated) :=
    recordPackage build.rebuiltPackages build.packagesTruncated (packageDisplayName packageId)
  { build with rebuiltPackages := packages, packagesTruncated := truncated }

def CargoBuildTelemetry.recordBuildScriptPackage (build : CargoBuildTelemetry)
    (packageId : Option Text) : CargoBuildTelemetry :=
  let (packages, truncated) :=
    recordPackage build.buildScriptPackages build.packagesTruncated (packageDisplayName packageId)
  { build with buildScriptPackages := packages, packagesTruncated := truncated }

structure CargoOutput where
  diagnostics : List Diagnostic
  build : Option CargoBuildTelemetry
  untrustedData : Bool
  truncated : Bool

end AgzRustMcp.Records
