import AgzRustMcp.Foundation.Json

/-!
# Context capsules

A capsule is a bounded selection of evidence about a place in the workspace, with omissions for what
was left out.  `ContextData` is the payload of the `context` tool; it is measured as the JSON text
that it is sent as (`wireBytes`).
-/

namespace AgzRustMcp.Context

open Utf8Text
open JsonText (Value)
open String (utf8Len)

/-! ## Items -/

structure AnchorRange where
  startLine : ℕ
  endLine : ℕ
deriving DecidableEq

inductive ContextAnchor
  | file (file : Text) (range : Option AnchorRange)
  | symbol (symbol : Text) (file : Option Text) (line : Option ℕ)
deriving DecidableEq

inductive CapsuleItemKind
  | definition | signature | implementation | consumer | testReference | callHierarchy | fileExcerpt
  | package | enabledFeature | dependency
deriving DecidableEq

def CapsuleItemKind.priority : CapsuleItemKind → ℕ
  | .definition => 0
  | .consumer => 1
  | .testReference => 2
  | .implementation => 3
  | .signature => 4
  | .fileExcerpt => 5
  | .callHierarchy => 6
  | .package => 7
  | .enabledFeature => 8
  | .dependency => 9

/-- `format_kind`, the name under which a kind is written. -/
def CapsuleItemKind.name : CapsuleItemKind → Text
  | .definition => "definition".toList
  | .signature => "signature".toList
  | .implementation => "implementation".toList
  | .consumer => "consumer".toList
  | .testReference => "testReference".toList
  | .callHierarchy => "callHierarchy".toList
  | .fileExcerpt => "fileExcerpt".toList
  | .package => "package".toList
  | .enabledFeature => "enabledFeature".toList
  | .dependency => "dependency".toList

inductive ItemProvenance
  | rustAnalyzer | workspaceSource | cargoMetadata
deriving DecidableEq

def ItemProvenance.name : ItemProvenance → Text
  | .rustAnalyzer => "rustAnalyzer".toList
  | .workspaceSource => "workspaceSource".toList
  | .cargoMetadata => "cargoMetadata".toList

inductive ItemResolution
  | resolved | advisory | unavailable
deriving DecidableEq

def ItemResolution.name : ItemResolution → Text
  | .resolved => "resolved".toList
  | .advisory => "advisory".toList
  | .unavailable => "unavailable".toList

inductive OmissionReason
  | budget | itemLimit | ambiguity | unavailable | outsideWorkspace
deriving DecidableEq

def OmissionReason.name : OmissionReason → Text
  | .budget => "budget".toList
  | .itemLimit => "itemLimit".toList
  | .ambiguity => "ambiguity".toList
  | .unavailable => "unavailable".toList
  | .outsideWorkspace => "outsideWorkspace".toList

structure ContextItem where
  id : Text
  kind : CapsuleItemKind
  reason : Text
  provenance : ItemProvenance
  resolution : ItemResolution
  file : Option Text
  line : Option ℕ
  symbol : Option Text
  sourceHash : Option Text
  stale : Bool
  excerpt : Option Text
  excerptBytes : ℕ
  excerptChars : ℕ
deriving DecidableEq

structure OmittedItem where
  kind : Option CapsuleItemKind
  reason : OmissionReason
  detail : Text
  file : Option Text
  line : Option ℕ
  symbol : Option Text
deriving DecidableEq

/-! ## Capsules -/

structure PackageIdentity where
  packageId : Text
  name : Text
  version : Text
deriving DecidableEq

/-- `CapsuleIdentity`, with the hashes of the sources in the order of their paths. -/
structure CapsuleIdentity where
  schemaVersion : ℕ
  capsuleId : Text
  rootEpoch : ℕ
  workspaceRoot : Text
  toolchain : Option Text
  analyzer : Option Text
  sourceHashes : List (Text × Text)
  anchorsHash : Text
  purposeHash : Option Text
  changeId : Option Text
  byteBudget : ℕ
  selectedPackages : List PackageIdentity
  enabledFeatures : List Text
  workspaceOnly : Bool
deriving DecidableEq

structure Capsule where
  schemaVersion : ℕ
  capsuleId : Text
  identity : CapsuleIdentity
  anchors : List ContextAnchor
  purpose : Option Text
  changeId : Option Text
  items : List ContextItem
  omitted : List OmittedItem
  notes : List Text
deriving DecidableEq

structure DeltaEntry where
  id : Text
  kind : CapsuleItemKind
  file : Option Text
  line : Option ℕ
  symbol : Option Text
  reason : Text
deriving DecidableEq

structure DeltaReport where
  added : List DeltaEntry
  changed : List DeltaEntry
  removed : List DeltaEntry
  unchanged : ℕ
  truncated : Bool
deriving DecidableEq

structure PageInfo where
  offset : ℕ
  limit : ℕ
  total : ℕ
  nextCursor : Option ℕ
deriving DecidableEq

/-- `SizeReport`, with the values of its `Default`. -/
structure SizeReport where
  bytes : ℕ := 0
  chars : ℕ := 0
  itemCount : ℕ := 0
  returnedItems : ℕ := 0
  byteBudget : ℕ := 0
  tokenizerAvailable : Bool := false
deriving DecidableEq

structure ContextData where
  action : Text
  status : Text
  capsuleId : Option Text
  previousCapsuleId : Option Text
  rootEpoch : Option ℕ
  purpose : Option Text
  changeId : Option Text
  anchors : List ContextAnchor
  identity : Option CapsuleIdentity
  items : List ContextItem
  omitted : List OmittedItem
  delta : Option DeltaReport
  page : Option PageInfo
  sizes : SizeReport
  notes : List Text
deriving DecidableEq

/-! ## As JSON -/

/-- A field that is left out when there is no value. -/
def fieldOf {α : Type} (name : String) (write : α → Value) : Option α → List (Text × Value)
  | none => []
  | some a => [(name.toList, write a)]

def field (name : String) (value : Value) : List (Text × Value) := [(name.toList, value)]

def AnchorRange.toJson (range : AnchorRange) : Value :=
  .object (field "startLine" (.nat range.startLine) ++ field "endLine" (.nat range.endLine))

def ContextAnchor.toJson : ContextAnchor → Value
  | .file path range =>
    .object (field "kind" (.string "file".toList) ++ field "file" (.string path) ++
      fieldOf "range" AnchorRange.toJson range)
  | .symbol name path line =>
    .object (field "kind" (.string "symbol".toList) ++ field "symbol" (.string name) ++
      fieldOf "file" .string path ++ fieldOf "line" .nat line)

def ContextItem.toJson (item : ContextItem) : Value :=
  .object (field "id" (.string item.id) ++ field "kind" (.string item.kind.name) ++
    field "reason" (.string item.reason) ++ field "provenance" (.string item.provenance.name) ++
    field "resolution" (.string item.resolution.name) ++ fieldOf "file" .string item.file ++
    fieldOf "line" .nat item.line ++ fieldOf "symbol" .string item.symbol ++
    fieldOf "sourceHash" .string item.sourceHash ++ field "stale" (.bool item.stale) ++
    fieldOf "excerpt" .string item.excerpt ++ field "excerptBytes" (.nat item.excerptBytes) ++
    field "excerptChars" (.nat item.excerptChars))

def OmittedItem.toJson (item : OmittedItem) : Value :=
  .object (fieldOf "kind" (fun kind => .string kind.name) item.kind ++
    field "reason" (.string item.reason.name) ++ field "detail" (.string item.detail) ++
    fieldOf "file" .string item.file ++ fieldOf "line" .nat item.line ++
    fieldOf "symbol" .string item.symbol)

def PackageIdentity.toJson (package : PackageIdentity) : Value :=
  .object (field "packageId" (.string package.packageId) ++ field "name" (.string package.name) ++
    field "version" (.string package.version))

def CapsuleIdentity.toJson (identity : CapsuleIdentity) : Value :=
  .object (field "schemaVersion" (.nat identity.schemaVersion) ++
    field "capsuleId" (.string identity.capsuleId) ++ field "rootEpoch" (.nat identity.rootEpoch) ++
    field "workspaceRoot" (.string identity.workspaceRoot) ++
    fieldOf "toolchain" .string identity.toolchain ++ fieldOf "analyzer" .string identity.analyzer ++
    field "sourceHashes" (.object (identity.sourceHashes.map fun entry => (entry.1, .string entry.2))) ++
    field "anchorsHash" (.string identity.anchorsHash) ++
    fieldOf "purposeHash" .string identity.purposeHash ++ fieldOf "changeId" .string identity.changeId ++
    field "byteBudget" (.nat identity.byteBudget) ++
    field "selectedPackages" (.array (identity.selectedPackages.map PackageIdentity.toJson)) ++
    field "enabledFeatures" (.array (identity.enabledFeatures.map .string)) ++
    field "workspaceOnly" (.bool identity.workspaceOnly))

def DeltaEntry.toJson (entry : DeltaEntry) : Value :=
  .object (field "id" (.string entry.id) ++ field "kind" (.string entry.kind.name) ++
    fieldOf "file" .string entry.file ++ fieldOf "line" .nat entry.line ++
    fieldOf "symbol" .string entry.symbol ++ field "reason" (.string entry.reason))

def DeltaReport.toJson (report : DeltaReport) : Value :=
  .object (field "added" (.array (report.added.map DeltaEntry.toJson)) ++
    field "changed" (.array (report.changed.map DeltaEntry.toJson)) ++
    field "removed" (.array (report.removed.map DeltaEntry.toJson)) ++
    field "unchanged" (.nat report.unchanged) ++ field "truncated" (.bool report.truncated))

def PageInfo.toJson (page : PageInfo) : Value :=
  .object (field "offset" (.nat page.offset) ++ field "limit" (.nat page.limit) ++
    field "total" (.nat page.total) ++ fieldOf "nextCursor" .nat page.nextCursor)

def SizeReport.toJson (sizes : SizeReport) : Value :=
  .object (field "bytes" (.nat sizes.bytes) ++ field "chars" (.nat sizes.chars) ++
    field "itemCount" (.nat sizes.itemCount) ++ field "returnedItems" (.nat sizes.returnedItems) ++
    field "byteBudget" (.nat sizes.byteBudget) ++
    field "tokenizerAvailable" (.bool sizes.tokenizerAvailable))

/-- What a payload is written as, before the report of its sizes. -/
def ContextData.fieldsBefore (data : ContextData) : List (Text × Value) :=
  field "action" (.string data.action) ++ field "status" (.string data.status) ++
    fieldOf "capsuleId" .string data.capsuleId ++
    fieldOf "previousCapsuleId" .string data.previousCapsuleId ++
    fieldOf "rootEpoch" .nat data.rootEpoch ++ fieldOf "purpose" .string data.purpose ++
    fieldOf "changeId" .string data.changeId ++
    field "anchors" (.array (data.anchors.map ContextAnchor.toJson)) ++
    fieldOf "identity" CapsuleIdentity.toJson data.identity ++
    field "items" (.array (data.items.map ContextItem.toJson)) ++
    field "omitted" (.array (data.omitted.map OmittedItem.toJson)) ++
    fieldOf "delta" DeltaReport.toJson data.delta ++ fieldOf "page" PageInfo.toJson data.page

def ContextData.toJson (data : ContextData) : Value :=
  .object (data.fieldsBefore ++ field "sizes" data.sizes.toJson ++ field "notes" (.array (data.notes.map .string)))

def wireBytes (data : ContextData) : ℕ := utf8Len data.toJson.compact

scoped instance lawfulText : LawfulBEq Text := inferInstance

end AgzRustMcp.Context
