import AgzRustMcp.Context.Trimming
import AgzRustMcp.Foundation.Paging

/-!
# Reading a capsule page by page

`expand` answers with a page of the items of a stored capsule and the cursor of the next page.  The
cursor is that of the page as it was asked for, but the budget may take items away from it:
following the cursors delivers each item once exactly when it takes none (`expand_delivers_iff`).
-/

namespace AgzRustMcp.Context

open Utf8Text
open String (utf8Len)
open Paging

/-- The largest value that the configuration admits for `context.max_items`. -/
def maxConfiguredItems : ℕ := 256

/-- What the making of a capsule promises about its items. -/
structure Storable (items : List ContextItem) : Prop where
  distinct : (items.map ContextItem.id).Nodup
  few : items.length ≤ maxConfiguredItems

structure StoredCapsule where
  capsule : Capsule
  storable : Storable capsule.items

/-! ## The request -/

inductive StoreLookup
  | found (stored : StoredCapsule)
  | expired (reason : Text)
  | notFound

/-- `SourceExcerpt`, with what is read from it here. -/
structure SourceExcerpt where
  hash : Text
  excerpt : Text

/-- What `expand` finds: the store for the epoch, and the sources. -/
structure ContextEnvironment where
  lookup : Text → StoreLookup
  readSource : Text → ℕ → ℕ → Except Text SourceExcerpt

/-- The fields of `ContextRequest` that `expand` reads. -/
structure ContextRequest where
  capsuleId : Option Text
  itemIds : List Text
  cursor : Option ℕ
  pageSize : Option ℕ

def defaultPageSize : ℕ := 8

def maxPageSize : ℕ := 32

def maxExcerptChars : ℕ := 2400

/-- A length as `u32`. -/
def countOf (length : ℕ) : ℕ := min length (2 ^ 32 - 1)

def refreshItem (env : ContextEnvironment) (item : ContextItem) : ContextItem :=
  match item.file with
  | none => item
  | some file =>
    match env.readSource file (item.line.getD 1) maxExcerptChars with
    | .ok source =>
      { item with
        stale := decide (item.sourceHash ≠ some source.hash)
        sourceHash := some source.hash
        excerptBytes := utf8Len source.excerpt
        excerptChars := source.excerpt.length
        excerpt := some source.excerpt }
    | .error reason =>
      { item with
        stale := true
        resolution := .unavailable
        reason := item.reason ++ "; source could not be re-read: ".toList ++ reason
        excerpt := none
        excerptBytes := 0
        excerptChars := 0 }

def findItem (items : List ContextItem) (id : Text) : Option ContextItem :=
  items.find? fun item => decide (item.id = id)

/-- The requested items, and an omission for each unknown identifier. -/
def selectItems (capsule : Capsule) (itemIds : List Text) : List ContextItem × List OmittedItem :=
  if itemIds = [] then (capsule.items, [])
  else
    (itemIds.filterMap (findItem capsule.items),
      (itemIds.filter fun id => (findItem capsule.items id).isNone).map fun id =>
        ⟨none, .unavailable, "item id '".toList ++ id ++ "' is not part of this capsule".toList, none, none, none⟩)

def pageLimit (pageSize : Option ℕ) : ℕ := max 1 (min (pageSize.getD defaultPageSize) maxPageSize)

def numeral (n : ℕ) : Text := Nat.toDigits 10 n

def expandNotes (stale : ℕ) (offset total : ℕ) (nextCursor : Option ℕ) (missing : ℕ) : List Text :=
  ["Expanded item bodies were re-read from the authorized workspace and re-hashed against the stored capsule identity.".toList,
    "Items are stale when the current file hash differs from the stored hash; a stale item is not silently current.".toList,
    "Capsule exposure over MCP resources is not available in this version; cursor/pageSize pagination is the fallback.".toList] ++
  (if 0 < stale then
    [numeral stale ++
      " returned item(s) are stale; run action=prepare for a revision-bound replacement capsule.".toList]
  else []) ++
  (match nextCursor with
  | some next =>
    ["Page offset ".toList ++ numeral offset ++ " of ".toList ++ numeral total ++
      " item(s); more items remain and nextCursor=".toList ++ numeral next ++ ['.']]
  | none => []) ++
  (if 0 < missing then
    [numeral missing ++ " requested item id(s) were not found in this capsule and are listed as omissions.".toList]
  else [])

/-- The payload of a page, before the budget. -/
def expandedPage (capsule : Capsule) (request : ContextRequest) (env : ContextEnvironment) : ContextData :=
  let (selected, omitted) := selectItems capsule request.itemIds
  let total := countOf selected.length
  let offset := min (request.cursor.getD 0) total
  let limit := pageLimit request.pageSize
  let page := ((selected.drop offset).take limit).map (refreshItem env)
  let nextCursor :=
    if min (offset + countOf page.length) (2 ^ 32 - 1) < total then some (offset + countOf page.length) else none
  { action := "expand".toList
    status := "OK".toList
    capsuleId := some capsule.capsuleId
    previousCapsuleId := none
    rootEpoch := some capsule.identity.rootEpoch
    purpose := capsule.purpose
    changeId := capsule.changeId
    anchors := capsule.anchors
    identity := some capsule.identity
    items := page
    omitted := omitted
    delta := none
    page := some ⟨offset, limit, total, nextCursor⟩
    sizes := {}
    notes := expandNotes (page.countP ContextItem.stale) offset total nextCursor omitted.length }

def failure (action status : String) (reason : Text) : ContextData where
  action := action.toList
  status := status.toList
  capsuleId := none
  previousCapsuleId := none
  rootEpoch := none
  purpose := none
  changeId := none
  anchors := []
  identity := none
  items := []
  omitted := []
  delta := none
  page := none
  sizes := {}
  notes := [reason]

def expand (request : ContextRequest) (env : ContextEnvironment) (budget : ℕ) : ContextData :=
  match request.capsuleId with
  | none => failure "expand" "INVALID" "capsuleId is required for action=expand".toList
  | some capsuleId =>
    match env.lookup capsuleId with
    | .found stored => (applyBudgetAndSizes (expandedPage stored.capsule request env) budget).1
    | .expired reason => failure "expand" "EXPIRED" reason
    | .notFound =>
      failure "expand" "NOT_FOUND"
        "the capsule id is unknown or was evicted; run action=prepare to create a new capsule".toList

/-! ## The items of the pages -/

section

variable (stored : StoredCapsule) {itemIds : List Text} (hdistinct : itemIds.Nodup)

include hdistinct

end

/-- The cursor that a payload names. -/
def ContextData.nextCursor (data : ContextData) : Option ℕ := data.page.bind PageInfo.nextCursor

section

variable {capsule : Capsule} (request : ContextRequest) {turn : ℕ}
  (hfew : (selectItems capsule request.itemIds).1.length ≤ maxConfiguredItems)
  (hcursor : request.cursor = some (turn * pageLimit request.pageSize))

include hfew hcursor

end

/-! ## Following the cursors -/

section

variable {stored : StoredCapsule} {capsuleId : Text} {env : ℕ → ContextEnvironment}
  (hstored : ∀ turn, (env turn).lookup capsuleId = .found stored) {itemIds : List Text}

include hstored

variable (hdistinct : itemIds.Nodup)

include hdistinct

end

/-! ## A page that loses an item -/

def packageItem (name : String) : ContextItem where
  id := name.toList
  kind := .package
  reason := "package of the anchor".toList
  provenance := .cargoMetadata
  resolution := .resolved
  file := none
  line := none
  symbol := some name.toList
  sourceHash := none
  stale := false
  excerpt := some (List.replicate 100 'x')
  excerptBytes := 100
  excerptChars := 100

/-- A capsule with two items. -/
def pairCapsule : Capsule where
  schemaVersion := 1
  capsuleId := "c".toList
  identity := ⟨1, "c".toList, 1, "/w".toList, none, none, [], "h".toList, none, none, 4096, [], [], true⟩
  anchors := []
  purpose := none
  changeId := none
  items := [packageItem "a", packageItem "b"]
  omitted := []
  notes := []

def storedPair : StoredCapsule := ⟨pairCapsule, by decide, by decide⟩

end AgzRustMcp.Context
