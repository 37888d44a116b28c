import AgzRustMcp.Diagnostics.Packager
import AgzRustMcp.Foundation.Edits

/-!
# The patches of a migration

`compose_patches` of `change/migrate/plan.rs`: every planned edit gets a window of lines that occurs
once in the original text, and windows that meet are joined and grown until nothing is joined any
more.  What cannot be done is an obligation.
-/

namespace AgzRustMcp.Compose

open String (utf8Len)
open Utf8Text Splice
open Std (ExtTreeMap)

/-! ## Edits and obligations -/

/-- `PlannedEdit`: one structural edit of a candidate file. -/
structure PlannedEdit where
  file : String
  start : ℕ
  stop : ℕ
  text : Text
  group : String
  line : ℕ
  deriving DecidableEq

def PlannedEdit.toEdit (edit : PlannedEdit) : Edit := ⟨edit.start, edit.stop, edit.text⟩

/-- `MigrationObligationData`. -/
structure MigrationObligation where
  kind : String
  file : Option String
  line : Option ℕ
  message : String
  deriving DecidableEq

def maxMigrationEdits : ℕ := 512

/-- `MAX_CONTEXT_RADIUS` of `tools/edits.rs`. -/
def maxContextRadius : ℕ := 64

/-- `MAX_CONTEXT_CHARS` of `tools/edits.rs`. -/
def maxContextChars : ℕ := 8000

/-- The order in which the edits of a file are looked at. -/
def PlannedEdit.before (left right : PlannedEdit) : Prop :=
  left.start < right.start ∨ left.start = right.start ∧ left.stop ≤ right.stop

instance : DecidableRel PlannedEdit.before := fun left right =>
  inferInstanceAs (Decidable (left.start < right.start ∨ left.start = right.start ∧ left.stop ≤ right.stop))

def PlannedEdit.ValidIn (original : Text) (edit : PlannedEdit) : Prop :=
  edit.start ≤ edit.stop ∧ edit.stop ≤ utf8Len original ∧ isBoundary original edit.start = true ∧
    isBoundary original edit.stop = true

instance (original : Text) : DecidablePred (PlannedEdit.ValidIn original) := fun edit =>
  inferInstanceAs (Decidable (edit.start ≤ edit.stop ∧ edit.stop ≤ utf8Len original ∧
    isBoundary original edit.start = true ∧ isBoundary original edit.stop = true))

/-- The loop of `count_occurrences`, which stops at the second match. -/
def countLoop (needle : Text) : ℕ → ℕ → Text → ℕ
  | 0, count, _ => count
  | fuel + 1, count, rest =>
    match find? rest needle with
    | none => count
    | some found =>
      if count + 1 ≥ 2 then count + 1
      else
        let behind := (dropBytes rest found).drop 1
        if behind = [] then count + 1 else countLoop needle fuel (count + 1) behind

/-- `count_occurrences` of `tools/edits.rs`. -/
def countOccurrences (content needle : Text) : ℕ :=
  if needle = [] then 0 else countLoop needle (content.length + 1) 0 content

/-- The loop of `unique_context` over its radii. -/
def uniqueContextFrom (content : Text) (starts : List ℕ) (startLine endLine : ℕ) : List ℕ → Option (ℕ × ℕ)
  | [] => none
  | radius :: radii =>
    let (start, stop) := contextBounds content starts startLine endLine radius
    match slice? content start stop with
    | none => none
    | some text =>
      if text.length > maxContextChars then none
      else if text ≠ [] ∧ countOccurrences content text = 1 then some (start, stop)
      else uniqueContextFrom content starts startLine endLine radii

/-- `unique_context` of `tools/edits.rs`: the start and the end of the window. -/
def uniqueContext (content : Text) (start stop : ℕ) : Option (ℕ × ℕ) :=
  let starts := lineStarts content
  uniqueContextFrom content starts (lineAtOffset starts start) (lineAtOffset starts stop)
    (List.range (min starts.length maxContextRadius + 1))

/-- `Cluster`: a window and the edits in it. -/
structure Cluster where
  start : ℕ
  stop : ℕ
  edits : List PlannedEdit
  deriving DecidableEq

/-- What the loop over the edits of a file has collected. -/
structure Admitted where
  clusters : List Cluster
  previousEnd : Option ℕ
  obligations : List MigrationObligation

/-- One turn of the loop over the edits of a file. -/
def admitEdit (file : String) (original : Text) (state : Admitted) (edit : PlannedEdit) : Admitted :=
  if ¬ edit.ValidIn original ∨ state.previousEnd.any (fun previous => edit.start < previous) then
    { state with
      obligations := state.obligations ++ [⟨"overlappingEdit", some file, some edit.line,
        "planned edits are invalid or overlap in the candidate and were not applied"⟩] }
  else
    match uniqueContext original edit.start edit.stop with
    | none =>
      { state with
        previousEnd := some edit.stop
        obligations := state.obligations ++ [⟨"nonUniqueContext", some file, some edit.line,
          "a unique candidate oldString could not be derived for the edit"⟩] }
    | some (start, stop) =>
      { state with
        previousEnd := some edit.stop
        clusters := state.clusters ++ [⟨start, stop, [edit]⟩] }

def admitEdits (file : String) (original : Text) (edits : List PlannedEdit) : Admitted :=
  edits.foldl (admitEdit file original) ⟨[], none, []⟩

/-! ## Growing the windows -/

/-- The merging pass behind a cluster; the flag: two were joined. -/
def mergeInto (last : Cluster) : List Cluster → List Cluster × Bool
  | [] => ([last], false)
  | cluster :: clusters =>
    if cluster.start ≤ last.stop then
      ((mergeInto ⟨last.start, max last.stop cluster.stop, last.edits ++ cluster.edits⟩ clusters).1, true)
    else
      let (merged, mergedAny) := mergeInto cluster clusters
      (last :: merged, mergedAny)

/-- The merging pass over the clusters. -/
def mergeClusters : List Cluster → List Cluster × Bool
  | [] => ([], false)
  | cluster :: clusters => mergeInto cluster clusters

/-- The window widened to be unique; the flag: it grew. -/
def Cluster.expand (original : Text) (cluster : Cluster) : Cluster × Bool :=
  match uniqueContext original cluster.start cluster.stop with
  | none => (cluster, false)
  | some (start, stop) =>
    ({ cluster with start := start, stop := stop }, decide (start < cluster.start) || decide (stop > cluster.stop))

/-- Two windows that follow one another overlap. -/
def overlapping : List Cluster → Bool
  | left :: right :: clusters =>
    decide (right.start < left.stop) || overlapping (right :: clusters)
  | _ => false

/-- The loop that merges and widens the windows, for a number of rounds. -/
def growWindows (original : Text) : ℕ → List Cluster → List Cluster
  | 0, clusters => clusters
  | rounds + 1, clusters =>
    let (merged, mergedAny) :=
      mergeClusters (clusters.insertionSort fun left right => left.start ≤ right.start)
    let grown := merged.map fun cluster => (cluster.expand original).1
    let expanded := merged.any fun cluster => (cluster.expand original).2
    let overlap := overlapping grown
    if ¬ overlap ∧ ¬ expanded then grown
    else if ¬ mergedAny ∧ ¬ overlap then grown
    else growWindows original rounds grown

/-- The number of rounds that `compose_patches` gives the loop. -/
def roundsFor (clusters : List Cluster) : ℕ := max clusters.length 1 + 1

/-! ## Writing the patches -/

/-- The text between two offsets, or nothing where they are no boundaries. -/
def sliceOrEmpty (original : Text) (start stop : ℕ) : Text := (slice? original start stop).getD []

/-- The loop that writes the edits of a window, unless one does not fit. -/
def writeEdits (original : Text) (stop : ℕ) : ℕ → List PlannedEdit → Option Text
  | cursor, [] => some (sliceOrEmpty original cursor stop)
  | cursor, edit :: edits =>
    if edit.start < cursor ∨ edit.stop > stop then none
    else (writeEdits original stop edit.stop edits).map fun rest =>
      sliceOrEmpty original cursor edit.start ++ edit.text ++ rest

/-- The edits of a cluster in the order in which they are written. -/
def Cluster.sortedEdits (cluster : Cluster) : List PlannedEdit :=
  cluster.edits.insertionSort fun left right => left.start ≤ right.start

def Cluster.patch (file : String) (original : Text) (cluster : Cluster) : Except MigrationObligation PatchInput :=
  match writeEdits original cluster.stop cluster.start cluster.sortedEdits with
  | none => .error ⟨"overlappingEdit", some file, cluster.sortedEdits.head?.map PlannedEdit.line,
      "merged candidate edit window was inconsistent and was not applied"⟩
  | some updated =>
    match slice? original cluster.start cluster.stop with
    | none => .error ⟨"composeFailed", some file, cluster.sortedEdits.head?.map PlannedEdit.line,
        "candidate context does not cover the planned edit"⟩
    | some oldString => .ok ⟨file, String.ofList oldString, String.ofList updated⟩

def patchClusters (file : String) (original : Text) : List Cluster → List PatchInput × List MigrationObligation
  | [] => ([], [])
  | cluster :: clusters =>
    let (patches, obligations) := patchClusters file original clusters
    match cluster.patch file original with
    | .ok patch => (patch :: patches, obligations)
    | .error obligation => (patches, obligation :: obligations)

/-- The windows of a file: those of its sorted edits, grown. -/
def windows (file : String) (original : Text) (edits : List PlannedEdit) : List Cluster :=
  let clusters := (admitEdits file original (edits.insertionSort PlannedEdit.before)).clusters
  growWindows original (roundsFor clusters) clusters

/-- The turn of `compose_patches` for one file. -/
def composeFile (readFile : String → Option Text) (file : String) (edits : List PlannedEdit) :
    List PatchInput × List MigrationObligation :=
  match readFile file with
  | none => ([], [⟨"composeFailed", some file, none, "candidate file became unreadable during patch composition"⟩])
  | some original =>
    let admitted := admitEdits file original (edits.insertionSort PlannedEdit.before)
    let (patches, obligations) := patchClusters file original (windows file original edits)
    (patches, admitted.obligations ++ obligations)

def byFile (edits : List PlannedEdit) : ExtTreeMap String (List PlannedEdit) :=
  edits.foldl (fun files edit => files.insert edit.file ((files[edit.file]?).getD [] ++ [edit])) ∅

def composePatches (edits : List PlannedEdit) (readFile : String → Option Text) :
    List PatchInput × List MigrationObligation :=
  let composed := (byFile (edits.take maxMigrationEdits)).toList.map fun entry =>
    composeFile readFile entry.1 entry.2
  (composed.flatMap Prod.fst, composed.flatMap Prod.snd)

end AgzRustMcp.Compose
