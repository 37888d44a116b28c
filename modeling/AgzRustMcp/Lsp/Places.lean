import AgzRustMcp.Foundation.Json
import AgzRustMcp.Foundation.TextLines
import AgzRustMcp.Foundation.TextScan
import AgzRustMcp.Workspace.FileUri
import AgzRustMcp.Lsp.Documents
import AgzRustMcp.Lsp.SymbolColumn

/-!
# The three readers of location responses

`first_location` of `tools/symbol.rs` and the two `parse_locations`, of `tools/context.rs` and of
`tools/api.rs`, read the same responses.  The protocol counts lines from zero and the tools from
one, but only the first reader adds the one: `readers_agree_iff` says when that does not show.
-/

namespace AgzRustMcp.Lsp

open JsonText
open Utf8Text Utf16Position

/-- `Value::as_u64`; the literal of a number does not begin with a plus sign. -/
def asU64 : Value → Option ℕ
  | .number literal => TextScan.parseU64 literal
  | _ => none

/-- `u32::try_from`. -/
def tryU32 (n : ℕ) : Option ℕ := if n ≤ u32Max then some n else none

def valuePosition (value : Value) : Option Position := do
  let line ← (asU64 (value.get "line".toList)).bind tryU32
  let character ← (asU64 (value.get "character".toList)).bind tryU32
  return ⟨line, character⟩

def valueRange (value : Value) : Option Range := do
  let start ← valuePosition (value.get "start".toList)
  let stop ← valuePosition (value.get "end".toList)
  return ⟨start, stop⟩

/-! ## The readers -/

/-- What the readers meet: `resolve_asset_path`, and the files. -/
structure LocationEnv where
  resolveAsset : Text → Option Text
  resolveRoot : Text → Option Text
  readFile : Text → Option Text

def pathToSlashes (path : Text) : Text := path.map fun c => if c = '\\' then '/' else c

def filePathFromUri (uri : Text) : Option Text := (Workspace.parseFileUri uri).toOption

/-- The path within the workspace that a URI leads to. -/
def LocationEnv.relative (env : LocationEnv) (uri : Text) : Option Text :=
  ((filePathFromUri uri).bind env.resolveAsset).map pathToSlashes

/-- A published place in the workspace, with its line. -/
structure ReportedPlace where
  file : Text
  line : ℕ
  protocolLine : ℕ
  deriving DecidableEq

structure DefinitionLocation where
  uri : Text
  range : Option Range

mutual

def firstLocation : Value → Option DefinitionLocation
  | .array items => firstOfItems items
  | value =>
    match (value.get "uri".toList).asStr with
    | some uri => some ⟨uri, valueRange (value.get "range".toList)⟩
    | none =>
      ((value.get "targetUri".toList).asStr).map fun uri =>
        ⟨uri, (valueRange (value.get "targetSelectionRange".toList)).or (valueRange (value.get "targetRange".toList))⟩

/-- `find_map` of `first_location`. -/
def firstOfItems : List Value → Option DefinitionLocation
  | [] => none
  | item :: items => (firstLocation item).or (firstOfItems items)

end

/-- The place that `symbol_definition` publishes, when it is in the workspace. -/
def symbolPlace (env : LocationEnv) (raw : Value) : Option ReportedPlace := do
  let location ← firstLocation raw
  let line := (location.range.map (·.start.line)).getD 0
  let file ← env.relative location.uri
  return ⟨file, min (line + 1) u32Max, line⟩

def responseItems : Value → List Value
  | .array items => items
  | raw => [raw]

def itemUri (item : Value) : Option Text :=
  ((item.get "uri".toList).asStr).or ((item.get "targetUri".toList).asStr)

/-- The first rows of a loop that checks its limit behind each push. -/
def upTo {α : Type*} (limit : ℕ) (rows : List α) : List α := rows.take (max limit 1)

/-- `MAX_DEFINITIONS` of `tools/context.rs`. -/
def maxDefinitions : ℕ := 2

/-- `RawLocation` of `tools/context.rs`. -/
structure ContextLocation where
  line : ℕ
  relative : Option Text

/-- A turn of the loop of `parse_locations` of `tools/context.rs`. -/
def contextLocation (env : LocationEnv) (item : Value) : Option ContextLocation := do
  let uri ← itemUri item
  let range ← ((valueRange (item.get "range".toList)).or
    (valueRange (item.get "targetSelectionRange".toList))).or (valueRange (item.get "targetRange".toList))
  return ⟨range.start.line, env.relative uri⟩

/-- `parse_locations` of `tools/context.rs`. -/
def contextParseLocations (env : LocationEnv) (raw : Value) (limit : ℕ) : List ContextLocation :=
  upTo limit ((responseItems raw).filterMap (contextLocation env))

def sanitizeDisplay (display : Text) : Text :=
  if "[outside-workspace]".toList.isPrefixOf display then "[outside-workspace]".toList else display

/-- The name under which `read_source` shows a file that it can read. -/
def LocationEnv.readSource (env : LocationEnv) (relative : Text) : Option Text := do
  let path ← env.resolveRoot relative
  let _ ← env.readFile path
  return sanitizeDisplay (pathToSlashes path)

/-- `push_ra_location`: the place of the pushed item, unless the location is omitted. -/
def pushRaLocation (env : LocationEnv) (location : ContextLocation) : Option ReportedPlace := do
  let relative ← location.relative
  let display ← env.readSource relative
  return ⟨display, location.line, location.line⟩

/-- The first place that the context collector publishes for a definition. -/
def contextPlace (env : LocationEnv) (raw : Value) : Option ReportedPlace :=
  (((contextParseLocations env raw maxDefinitions).take maxDefinitions).filterMap (pushRaLocation env)).head?

/-- `RawLocation` of `tools/api.rs`. -/
structure ApiLocation where
  file : Option Text
  line : ℕ

/-- The start line of a range, whatever else is in it. -/
def startLine (range : Value) : Option ℕ := asU64 ((range.get "start".toList).get "line".toList)

/-- A turn of the loop of `parse_locations` of `tools/api.rs`. -/
def apiLocation (env : LocationEnv) (item : Value) : Option ApiLocation := do
  let uri ← itemUri item
  let line ← (startLine (item.get "range".toList)).or (startLine (item.get "targetSelectionRange".toList))
  return ⟨env.relative uri, (tryU32 line).getD u32Max⟩

/-- `parse_locations` of `tools/api.rs`. -/
def apiParseLocations (env : LocationEnv) (raw : Value) (limit : ℕ) : List ApiLocation :=
  upTo limit ((responseItems raw).filterMap (apiLocation env))

/-- The place of the definition that `resolve` publishes. -/
def apiPlace (env : LocationEnv) (raw : Value) : Option ReportedPlace := do
  let location ← (apiParseLocations env raw 1).head?
  let file ← location.file
  return ⟨file, location.line, location.line⟩

/-! ## Responses of the protocol -/

/-- A place of a response: its URI, its line, and the kind of its range. -/
structure ProtocolPlace where
  uri : Text
  line : ℕ
  selected : Bool

/-- The item is a `Location`, or a `LocationLink` with or without a selection. -/
inductive IsPlace (item : Value) : ProtocolPlace → Prop
  | location {uri : Text} {range : Range} : (item.get "uri".toList).asStr = some uri →
      valueRange (item.get "range".toList) = some range → IsPlace item ⟨uri, range.start.line, true⟩
  | link {uri : Text} {selection : Range} : item.get "uri".toList = .null → item.get "range".toList = .null →
      (item.get "targetUri".toList).asStr = some uri →
      valueRange (item.get "targetSelectionRange".toList) = some selection →
      IsPlace item ⟨uri, selection.start.line, true⟩
  | bareLink {uri : Text} {target : Range} : item.get "uri".toList = .null → item.get "range".toList = .null →
      (item.get "targetUri".toList).asStr = some uri → item.get "targetSelectionRange".toList = .null →
      valueRange (item.get "targetRange".toList) = some target → IsPlace item ⟨uri, target.start.line, false⟩

/-- The response is one item or an array of them. -/
inductive IsResponse : Value → List ProtocolPlace → Prop
  | single {raw : Value} {place : ProtocolPlace} : IsPlace raw place → IsResponse raw [place]
  | array {items : List Value} {places : List ProtocolPlace} : List.Forall₂ IsPlace items places →
      IsResponse (.array items) places

section

variable {env : LocationEnv} {item raw : Value} {place : ProtocolPlace} {places : List ProtocolPlace}

lemma startLine_of_valueRange {value : Value} {range : Range} (h : valueRange value = some range) :
    startLine value = some range.start.line ∧ range.start.line ≤ u32Max := by
  simp only [valueRange, valuePosition, Option.bind_eq_bind, Option.bind_eq_some_iff, Option.pure_def,
    Option.some.injEq] at h
  obtain ⟨start, ⟨line, ⟨read, hread, htry⟩, -, -, rfl⟩, -, -, rfl⟩ := h
  unfold tryU32 at htry
  split_ifs at htry with hle
  obtain rfl := Option.some.inj htry
  exact ⟨hread, hle⟩

lemma get_array (items : List Value) (name : Text) : (Value.array items).get name = .null := rfl

lemma IsPlace.not_array {items : List Value} (h : IsPlace (.array items) place) : False := by
  cases h with
  | location huri _ => simp [get_array, Value.asStr] at huri
  | link _ _ huri _ => simp [get_array, Value.asStr] at huri
  | bareLink _ _ huri _ _ => simp [get_array, Value.asStr] at huri

lemma IsResponse.forall₂ (h : IsResponse raw places) : List.Forall₂ IsPlace (responseItems raw) places := by
  cases h with
  | single hplace =>
    cases raw with
    | array items => exact hplace.not_array.elim
    | _ => exact .cons hplace .nil
  | array hplaces => exact hplaces

/-! ## What the readers find -/

lemma IsPlace.firstLocation (h : IsPlace item place) :
    ∃ range, Lsp.firstLocation item = some ⟨place.uri, some range⟩ ∧ range.start.line = place.line := by
  have hobject : ∀ items, item ≠ .array items := by
    rintro items rfl
    exact h.not_array
  have hread : Lsp.firstLocation item =
      match (item.get "uri".toList).asStr with
      | some uri => some ⟨uri, valueRange (item.get "range".toList)⟩
      | none =>
        ((item.get "targetUri".toList).asStr).map fun uri =>
          ⟨uri, (valueRange (item.get "targetSelectionRange".toList)).or
            (valueRange (item.get "targetRange".toList))⟩ := by
    cases item with
    | array items => exact absurd rfl (hobject items)
    | _ => exact Lsp.firstLocation.eq_2 _ hobject
  rw [hread]
  cases h with
  | location huri hrange => exact ⟨_, by rw [huri, hrange], rfl⟩
  | link hno _ huri hrange => exact ⟨_, by rw [hno, huri, hrange]; rfl, rfl⟩
  | bareLink hno _ huri hselection hrange => exact ⟨_, by rw [hno, huri, hselection, hrange]; rfl, rfl⟩

lemma IsPlace.itemUri (h : IsPlace item place) : Lsp.itemUri item = some place.uri := by
  cases h with
  | location huri _ => rw [Lsp.itemUri, huri, Option.some_or]
  | link hno _ huri _ => rw [Lsp.itemUri, hno, huri]; rfl
  | bareLink hno _ huri _ _ => rw [Lsp.itemUri, hno, huri]; rfl

lemma IsPlace.contextLocation (h : IsPlace item place) :
    Lsp.contextLocation env item = some ⟨place.line, env.relative place.uri⟩ := by
  rw [Lsp.contextLocation, h.itemUri]
  cases h with
  | location _ hrange => rw [hrange]; rfl
  | link _ hno _ hrange => rw [hno, hrange]; rfl
  | bareLink _ hno _ hselection hrange => rw [hno, hselection, hrange]; rfl

lemma IsPlace.apiLocation (h : IsPlace item place) :
    Lsp.apiLocation env item = if place.selected then some ⟨env.relative place.uri, place.line⟩ else none := by
  have hline : ∀ {value range}, valueRange value = some range →
      startLine value = some range.start.line ∧ tryU32 range.start.line = some range.start.line := by
    intro value range hrange
    obtain ⟨hstart, hle⟩ := startLine_of_valueRange hrange
    exact ⟨hstart, if_pos hle⟩
  rw [Lsp.apiLocation, h.itemUri]
  cases h with
  | location _ hrange =>
    obtain ⟨hstart, htry⟩ := hline hrange
    rw [hstart, Option.some_or, if_pos rfl]
    exact congrArg (fun read : Option ℕ => some (⟨env.relative _, read.getD u32Max⟩ : ApiLocation)) htry
  | link _ hno _ hrange =>
    obtain ⟨hstart, htry⟩ := hline hrange
    have hnone : startLine .null = none := rfl
    rw [hno, hnone, Option.none_or, hstart, if_pos rfl]
    exact congrArg (fun read : Option ℕ => some (⟨env.relative _, read.getD u32Max⟩ : ApiLocation)) htry
  | bareLink _ hno _ hselection _ =>
    rw [hno, hselection]
    rfl

lemma filterMap_of_forall₂ {α β γ : Type*} {R : α → β → Prop} {f : α → Option γ} {g : β → Option γ} {as : List α}
    {bs : List β} (h : List.Forall₂ R as bs) (hfg : ∀ a b, R a b → f a = g b) : as.filterMap f = bs.filterMap g := by
  induction h with
  | nil => rfl
  | cons hab _ ih => rw [List.filterMap_cons, List.filterMap_cons, hfg _ _ hab, ih]

lemma symbolPlace_eq (h : IsResponse raw places) : symbolPlace env raw =
    places.head?.bind fun place => (env.relative place.uri).map fun file =>
      ⟨file, min (place.line + 1) u32Max, place.line⟩ := by
  have hfirst : ∀ {value : Value} {place : ProtocolPlace},
      (∃ range, Lsp.firstLocation value = some ⟨place.uri, some range⟩ ∧ range.start.line = place.line) →
      symbolPlace env value = (env.relative place.uri).map fun file =>
        ⟨file, min (place.line + 1) u32Max, place.line⟩ := by
    rintro value place ⟨range, hlocation, hline⟩
    cases hrelative : env.relative place.uri <;> simp [symbolPlace, hlocation, hrelative, hline]
  cases h with
  | single hplace => exact hfirst hplace.firstLocation
  | array hplaces =>
    cases hplaces with
    | nil => simp [symbolPlace, Lsp.firstLocation, firstOfItems]
    | cons hplace _ =>
      obtain ⟨range, hlocation, hline⟩ := hplace.firstLocation
      refine hfirst ⟨range, ?_, hline⟩
      rw [Lsp.firstLocation, firstOfItems, hlocation, Option.some_or]

lemma contextPlace_eq (h : IsResponse raw places) : contextPlace env raw = ((places.take 2).filterMap fun place =>
      pushRaLocation env ⟨place.line, env.relative place.uri⟩).head? := by
  have hread := filterMap_of_forall₂ h.forall₂ (f := contextLocation env)
    (g := fun place => some ⟨place.line, env.relative place.uri⟩) fun _ _ hplace => hplace.contextLocation
  have hlimit : max maxDefinitions 1 = 2 := rfl
  rw [contextPlace, contextParseLocations, hread, List.filterMap_eq_map', upTo, hlimit, maxDefinitions,
    List.take_take, min_self, ← List.map_take, List.filterMap_map]
  rfl

lemma apiPlace_eq (h : IsResponse raw places) : apiPlace env raw =
    (places.find? (·.selected)).bind fun place => (env.relative place.uri).map fun file =>
      ⟨file, place.line, place.line⟩ := by
  have hread := filterMap_of_forall₂ h.forall₂ (f := apiLocation env)
    (g := fun place => if place.selected then some ⟨env.relative place.uri, place.line⟩ else none)
    fun _ _ hplace => hplace.apiLocation
  rw [apiPlace, apiParseLocations, hread]
  clear h hread
  induction places with
  | nil => rfl
  | cons place places ih =>
    cases hselected : place.selected with
    | false => simpa [hselected] using ih
    | true =>
      cases hrelative : env.relative place.uri <;> simp [hselected, hrelative, upTo]

end

/-! ## Agreement -/

/-- What a reader shows of a place. -/
def ReportedPlace.published (place : ReportedPlace) : Text × ℕ := (place.file, place.line)

/-- The readers publish the same place or none, counted from one. -/
structure ReadersAgree (env : LocationEnv) (raw : Value) : Prop where
  context : (contextPlace env raw).map (·.published) = (symbolPlace env raw).map (·.published)
  api : (apiPlace env raw).map (·.published) = (symbolPlace env raw).map (·.published)
  shifted : ∀ place, symbolPlace env raw = some place ∨ contextPlace env raw = some place ∨
    apiPlace env raw = some place → place.line = place.protocolLine + 1

/-- No reader comes upon a file of the workspace: neither in the first place, nor in the first with
a range, nor in the first two that can be read. -/
structure OutOfReach (env : LocationEnv) (places : List ProtocolPlace) : Prop where
  first : ∀ place ∈ places.head?, env.relative place.uri = none
  firstSelected : ∀ place ∈ places.find? (·.selected), env.relative place.uri = none
  firstTwo : ∀ place ∈ places.take 2, ∀ relative, env.relative place.uri = some relative →
    env.readSource relative = none

section

variable {env : LocationEnv} {raw : Value} {places : List ProtocolPlace}

lemma pushRaLocation_eq_none_iff {location : ContextLocation} : pushRaLocation env location = none ↔
    ∀ relative, location.relative = some relative → env.readSource relative = none := by
  unfold pushRaLocation
  cases location.relative with
  | none => simp
  | some relative => cases hread : env.readSource relative <;> simp [hread]

lemma line_eq_protocolLine {place : ReportedPlace}
    (h : contextPlace env raw = some place ∨ apiPlace env raw = some place) : place.line = place.protocolLine := by
  rcases h with h | h
  · obtain ⟨location, -, hpush⟩ := List.mem_filterMap.mp (List.mem_of_head? h)
    simp only [pushRaLocation, Option.bind_eq_bind, Option.bind_eq_some_iff, Option.pure_def,
      Option.some.injEq] at hpush
    obtain ⟨_, -, _, -, rfl⟩ := hpush
    rfl
  · simp only [apiPlace, Option.bind_eq_bind, Option.bind_eq_some_iff, Option.pure_def, Option.some.injEq] at h
    obtain ⟨_, -, _, -, rfl⟩ := h
    rfl

/-- The readers agree exactly when none comes upon a file of the workspace. -/
theorem readers_agree_iff (h : IsResponse raw places) : ReadersAgree env raw ↔ OutOfReach env places := by
  have hsymbol : symbolPlace env raw = none ↔ ∀ place ∈ places.head?, env.relative place.uri = none := by
    rw [symbolPlace_eq h]
    simp [Option.bind_eq_none_iff]
  have hcontext : contextPlace env raw = none ↔ ∀ place ∈ places.take 2, ∀ relative,
      env.relative place.uri = some relative → env.readSource relative = none := by
    rw [contextPlace_eq h, List.head?_eq_none_iff, List.filterMap_eq_nil_iff]
    simp only [pushRaLocation_eq_none_iff]
  have hapi : apiPlace env raw = none ↔ ∀ place ∈ places.find? (·.selected), env.relative place.uri = none := by
    rw [apiPlace_eq h]
    simp [Option.bind_eq_none_iff]
  constructor
  · intro hagree
    have hnone : contextPlace env raw = none := by
      cases hplace : contextPlace env raw with
      | none => rfl
      | some place =>
        have hsame := line_eq_protocolLine (Or.inl hplace)
        have hshift := hagree.shifted place (Or.inr (Or.inl hplace))
        omega
    have hnone' : apiPlace env raw = none := by
      cases hplace : apiPlace env raw with
      | none => rfl
      | some place =>
        have hsame := line_eq_protocolLine (Or.inr hplace)
        have hshift := hagree.shifted place (Or.inr (Or.inr hplace))
        omega
    have hnone'' : symbolPlace env raw = none := by
      have hcontext := hagree.context
      rw [hnone] at hcontext
      simpa using hcontext.symm
    exact ⟨hsymbol.mp hnone'', hapi.mp hnone', hcontext.mp hnone⟩
  · intro hout
    have hnone := hsymbol.mpr hout.first
    have hnone' := hapi.mpr hout.firstSelected
    have hnone'' := hcontext.mpr hout.firstTwo
    refine ⟨by rw [hnone, hnone''], by rw [hnone, hnone'], ?_⟩
    rw [hnone, hnone', hnone'']
    rintro place (hplace | hplace | hplace) <;> cases hplace

end

/-! ## Two responses -/

/-- A workspace with one source file. -/
def oneFileEnv : LocationEnv where
  resolveAsset := fun path => if path = "/w/src/lib.rs".toList then some "src/lib.rs".toList else none
  resolveRoot := fun path => if path = "src/lib.rs".toList then some path else none
  readFile := fun path => if path = "src/lib.rs".toList then some "fn main() {}\n".toList else none

def positionValue (line character : ℕ) : Value :=
  .object [("line".toList, .nat line), ("character".toList, .nat character)]

/-- A `Location` with a range within one line. -/
def locationValue (uri : String) (line : ℕ) : Value :=
  .object [("uri".toList, .string uri.toList),
    ("range".toList, .object [("start".toList, positionValue line 0), ("end".toList, positionValue line 2)])]

/-- On a definition in the standard library the readers agree. -/
theorem readers_agree_outside : ReadersAgree oneFileEnv (locationValue "file:///rust/core.rs" 4) := by
  have hplace : IsPlace (locationValue "file:///rust/core.rs" 4) ⟨"file:///rust/core.rs".toList, 4, true⟩ :=
    @IsPlace.location _ _ ⟨⟨4, 0⟩, ⟨4, 2⟩⟩ (by decide +kernel) (by decide +kernel)
  have hout : oneFileEnv.relative "file:///rust/core.rs".toList = none := by decide +kernel
  refine (readers_agree_iff (.single hplace)).mpr ⟨fun place hplace => ?_, fun place hplace => ?_,
    fun place hplace relative hrelative => ?_⟩
  · rw [← Option.some.inj hplace, hout]
  · rw [← Option.some.inj hplace, hout]
  · rw [List.mem_singleton.mp hplace, hout] at hrelative
    cases hrelative

/-- A definition in line 4: one reader publishes line 5, the others line 4. -/
theorem definition_lines_differ :
    symbolPlace oneFileEnv (locationValue "file:///w/src/lib.rs" 4) = some ⟨"src/lib.rs".toList, 5, 4⟩ ∧
    contextPlace oneFileEnv (locationValue "file:///w/src/lib.rs" 4) = some ⟨"src/lib.rs".toList, 4, 4⟩ ∧
    apiPlace oneFileEnv (locationValue "file:///w/src/lib.rs" 4) = some ⟨"src/lib.rs".toList, 4, 4⟩ ∧
    ¬ ∀ (env : LocationEnv) (raw : Value) (places : List ProtocolPlace), IsResponse raw places →
      ReadersAgree env raw := by
  have hsymbol : symbolPlace oneFileEnv (locationValue "file:///w/src/lib.rs" 4) =
      some ⟨"src/lib.rs".toList, 5, 4⟩ := by decide +kernel
  have hcontext : contextPlace oneFileEnv (locationValue "file:///w/src/lib.rs" 4) =
      some ⟨"src/lib.rs".toList, 4, 4⟩ := by decide +kernel
  have hapi : apiPlace oneFileEnv (locationValue "file:///w/src/lib.rs" 4) =
      some ⟨"src/lib.rs".toList, 4, 4⟩ := by decide +kernel
  refine ⟨hsymbol, hcontext, hapi, fun hclaim => ?_⟩
  have hplace : IsPlace (locationValue "file:///w/src/lib.rs" 4) ⟨"file:///w/src/lib.rs".toList, 4, true⟩ :=
    @IsPlace.location _ _ ⟨⟨4, 0⟩, ⟨4, 2⟩⟩ (by decide +kernel) (by decide +kernel)
  have hsame := (hclaim oneFileEnv _ _ (.single hplace)).context
  rw [hsymbol, hcontext] at hsame
  exact absurd hsame (by decide)

end AgzRustMcp.Lsp
