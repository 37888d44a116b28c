import AgzRustMcp.Foundation.Checked
import AgzRustMcp.Foundation.Splice
import AgzRustMcp.Change.Model
import AgzRustMcp.Change.Tree

/-!
# Planning and applying patches

`plan_patches` of `change/patch.rs` checks every patch and new file in memory before a byte is
written.  A patch is matched against the running text of its file, but none may touch a byte that an
earlier one wrote.  `apply_plan` writes the planned files and stops at the first failure.

Offsets are `usize`
in the source and the texts are in memory, so saturating operations on them never saturate.
-/

namespace AgzRustMcp

open String (utf8Len)
open Utf8Text

structure CandidateLimits where
  currentFiles : ℕ
  currentBytes : ℕ
  maxFiles : ℕ
  maxBytes : ℕ

/-- `PlannedFile`: the bytes a stage will write to a path. -/
structure PlannedFile where
  relative : RelPath
  contents : ByteArray
  existed : Bool
  previousBytes : ℕ
  deriving DecidableEq

structure PlannedNewFile where
  relative : RelPath
  content : String
  deriving DecidableEq

/-- `PatchPlan`: patched files in the order of their first patch, then new files. -/
structure PatchPlan where
  files : List PlannedFile
  patches : List PatchInput
  newFiles : List PlannedNewFile
  deriving DecidableEq

/-- `shift` of `change/patch.rs`. -/
def shift (value : ℕ) (delta : ℤ) : ℕ :=
  if 0 ≤ delta then value + delta.natAbs else value - delta.natAbs

/-- One range of the text against the replacement of `start` to `stop`. -/
def rangesOverlap (start stop : ℕ) (range : ℕ × ℕ) : Bool :=
  decide (range.1 < stop) && decide (start < range.2)

/-- A range after the text before it changed its length by `delta`. -/
def shiftRange (stop : ℕ) (delta : ℤ) (range : ℕ × ℕ) : ℕ × ℕ :=
  if range.1 ≥ stop then (shift range.1 delta, shift range.2 delta) else range

/-- A turn on the text: the old string occurs once, apart from earlier ranges. -/
def matchPatch (file : String) (text : Text) (ranges : List (ℕ × ℕ)) (old new : Text) :
    Except String (Text × List (ℕ × ℕ)) :=
  match find? text old with
  | none => .error ("oldString does not occur in the candidate file: " ++ file)
  | some start =>
    if rfind? text old ≠ some start then
      .error ("oldString occurs more than once in the candidate file: " ++ file)
    else
      let stop := start + utf8Len old
      if ranges.any (rangesOverlap start stop) then
        .error ("overlapping edits in the same candidate file: " ++ file)
      else
        let delta : ℤ := (utf8Len new : ℤ) - (utf8Len old : ℤ)
        .ok (replaceRange text start stop new, ranges.map (shiftRange stop delta) ++ [(start, start + utf8Len new)])

/-! ## The loop over the patches -/

/-- The maps that `plan_patches` fills while it goes through the patches. -/
structure PlanState where
  planned : Finmap fun _ : RelPath => ByteArray
  original : Finmap fun _ : RelPath => ByteArray
  order : List RelPath
  ranges : Finmap fun _ : RelPath => List (ℕ × ℕ)
  normalized : List PatchInput

/-- The maps before the first patch. -/
def PlanState.empty : PlanState := ⟨∅, ∅, [], ∅, []⟩

/-- The current bytes of a file: planned by an earlier patch, or the candidate's. -/
def PlanState.enter (tree : Tree) (state : PlanState) (relative : RelPath) : Except String (ByteArray × PlanState) :=
  match state.planned.lookup relative with
  | some contents => .ok (contents, state)
  | none => do
    let contents ← readCandidateFile tree relative
    return (contents, { state with
        original := state.original.insert relative contents
        order := state.order ++ [relative] })

/-- The maps after a patch was matched. -/
def PlanState.record (state : PlanState) (relative : RelPath) (patch : PatchInput)
    (updated : Text) (ranges : List (ℕ × ℕ)) : PlanState :=
  { state with
    planned := state.planned.insert relative (encodeUtf8 updated)
    ranges := state.ranges.insert relative ranges
    normalized := state.normalized ++ [patch] }

/-- One turn of the patch loop of `plan_patches`. -/
def planPatch (tree : Tree) (state : PlanState) (patch : PatchInput) : Except String PlanState := do
  let relative ← normalizeRelative patch.file
  if patch.oldString = "" then
    .error ("oldString cannot be empty (file " ++ patch.file ++ ")")
  else
    let (current, entered) ← state.enter tree relative
    match decodeUtf8? current with
    | none => .error ("candidate file is not valid UTF-8: " ++ patch.file)
    | some text =>
      let (updated, ranges) ← matchPatch patch.file text ((entered.ranges.lookup relative).getD [])
        patch.oldString.toList patch.newString.toList
      return entered.record relative patch updated ranges

/-- One turn of the new-file loop of `plan_patches`. -/
def planNewFile (tree : Tree) (planned : Finmap fun _ : RelPath => ByteArray)
    (newPlanned : List PlannedNewFile) (newFile : NewFileInput) : Except String (List PlannedNewFile) := do
  let relative ← normalizeRelative newFile.file
  if relative ∈ newPlanned.map PlannedNewFile.relative ∨ planned.lookup relative ≠ none then
    .error ("duplicate new file or patch/new-file collision: " ++ newFile.file)
  else
    match tree.lookup relative with
    | some .symlink => .error ("new file target is a symlink: " ++ newFile.file)
    | some _ => .error ("new file already exists in the candidate: " ++ newFile.file)
    | none => do
      rejectSymlinkedAncestors tree relative
      return newPlanned ++ [⟨relative, newFile.content⟩]

def textBytes (text : String) : ℕ := utf8Len text.toList

/-- The change in bytes that a stage makes to the candidate. -/
def plannedDelta (state : PlanState) (newPlanned : List PlannedNewFile) : ℤ :=
  FiniteMap.total
      (fun relative contents =>
        (contents.size : ℤ) - (((state.original.lookup relative).map ByteArray.size).getD 0 : ℕ))
      state.planned +
    (newPlanned.map fun file => (textBytes file.content : ℤ)).sum

/-- The patched files in the order of their first patch. -/
def patchedFiles (original : Finmap fun _ : RelPath => ByteArray) :
    (Finmap fun _ : RelPath => ByteArray) → List RelPath → List PlannedFile
  | _, [] => []
  | planned, relative :: order =>
    match planned.lookup relative with
    | none => patchedFiles original planned order
    | some contents =>
      { relative
        contents
        existed := true
        previousBytes := ((original.lookup relative).map ByteArray.size).getD 0 } ::
        patchedFiles original (planned.erase relative) order

def PlannedNewFile.toPlanned (file : PlannedNewFile) : PlannedFile :=
  { relative := file.relative
    contents := encodeUtf8 file.content.toList
    existed := false
    previousBytes := 0 }

/-- `plan_patches` of `change/patch.rs`. -/
def planPatches (tree : Tree) (patches : List PatchInput) (newFiles : List NewFileInput)
    (limits : CandidateLimits) : Except String PatchPlan := do
  let state ← patches.foldlM (planPatch tree) PlanState.empty
  let newPlanned ← newFiles.foldlM (planNewFile tree state.planned) []
  if saturatingAdd limits.currentFiles newPlanned.length > limits.maxFiles then
    .error ("candidate file limit " ++ toString limits.maxFiles ++ " would be exceeded")
  else
    let projected : ℤ := (limits.currentBytes : ℤ) + plannedDelta state newPlanned
    if projected > (limits.maxBytes : ℤ) then
      .error ("candidate byte limit " ++ toString limits.maxBytes ++ " would be exceeded")
    else if projected < 0 then
      .error "candidate byte accounting is inconsistent"
    else
      return {
        files := patchedFiles state.original state.planned state.order ++ newPlanned.map PlannedNewFile.toPlanned
        patches := state.normalized
        newFiles := newPlanned }

/-- What the operating system may refuse while one file is written. -/
inductive ApplyFault where
  /-- `create_dir_all` made the first `made` missing parents and failed. -/
  | createDir (made : ℕ) (reason : String)
  /-- The temporary file or its rename failed. -/
  | write (reason : String)

/-- One turn of `apply_plan`, which checks the parents before and after they are made. -/
def applyFile (fault : RelPath → Option ApplyFault) (tree : Tree) (file : PlannedFile) : Tree × Option String :=
  match rejectSymlinkedAncestors tree file.relative with
  | .error reason => (tree, some reason)
  | .ok _ =>
    match fault file.relative with
    | some (.createDir made reason) =>
      (createDirs tree ((ancestors file.relative).take made),
        some ("could not create " ++ relativePathString file.relative.dropLast ++ ": " ++ reason))
    | some (.write reason) =>
      (createDirAll tree file.relative,
        some ("could not apply patch to " ++ relativePathString file.relative ++ ": " ++ reason))
    | none =>
      let parents := createDirAll tree file.relative
      match rejectSymlinkedAncestors parents file.relative with
      | .error reason => (parents, some reason)
      | .ok _ =>
        match parents.lookup file.relative with
        | some .symlink =>
          (parents, some ("could not apply patch to " ++ relativePathString file.relative ++
            ": candidate target became a symlink"))
        | some .dir =>
          (parents, some ("could not apply patch to " ++ relativePathString file.relative ++
            ": Is a directory (os error 21)"))
        | _ => (parents.insert file.relative (.file file.contents), none)

/-- `apply_plan` of `change/patch.rs`: the tree it leaves, and its error. -/
def applyPlan (fault : RelPath → Option ApplyFault) (tree : Tree) : List PlannedFile → Tree × Option String
  | [] => (tree, none)
  | file :: files =>
    match applyFile fault tree file with
    | (written, some reason) => (written, some reason)
    | (written, none) => applyPlan fault written files

/-! ## The specification of one match -/

section Match

variable {file : String} {text text' old new : Text} {ranges ranges' : List (ℕ × ℕ)}

lemma matchPatch_eq_ok_iff : matchPatch file text ranges old new = .ok (text', ranges') ↔
      ∃ pre suf, text = pre ++ old ++ suf ∧ OccursOnceAt text old (utf8Len pre) ∧
        (∀ r ∈ ranges, ¬ (r.1 < utf8Len pre + utf8Len old ∧ utf8Len pre < r.2)) ∧ text' = pre ++ new ++ suf ∧
        ranges' = ranges.map (shiftRange (utf8Len pre + utf8Len old)
          ((utf8Len new : ℤ) - (utf8Len old : ℤ))) ++ [(utf8Len pre, utf8Len pre + utf8Len new)] := by
  unfold matchPatch
  constructor
  · intro h
    split at h
    · simp at h
    next start hfind =>
    dsimp only at h
    split_ifs at h with hrfind hany
    obtain ⟨⟨pre, suf, rfl, rfl⟩, -⟩ := find?_eq_some_iff.mp hfind
    have honce : OccursOnceAt (pre ++ old ++ suf) old (utf8Len pre) :=
      occursOnceAt_iff.mpr ⟨hfind, not_not.mp hrfind⟩
    simp only [Except.ok.injEq, Prod.mk.injEq] at h
    refine ⟨pre, suf, rfl, honce, ?_, ?_, h.2.symm⟩
    · simpa [rangesOverlap] using hany
    · rw [← h.1, replaceRange_append]
  · rintro ⟨pre, suf, rfl, honce, hdisj, rfl, rfl⟩
    obtain ⟨hfind, hrfind⟩ := occursOnceAt_iff.mp honce
    have hany : ranges.any (rangesOverlap (utf8Len pre) (utf8Len pre + utf8Len old)) = false := by
      simpa [rangesOverlap] using hdisj
    simp only [hfind]
    rw [if_neg (not_not.mpr hrfind), hany, if_neg (by simp), replaceRange_append]

lemma shiftRange_of_lt {stop : ℕ} {delta : ℤ} {r : ℕ × ℕ} (h : r.1 < stop) : shiftRange stop delta r = r := by
  rw [shiftRange, if_neg (by omega)]

lemma shiftRange_of_le {start oldLen newLen : ℕ} {r : ℕ × ℕ} (h : start + oldLen ≤ r.1) (hr : r.1 ≤ r.2) :
    shiftRange (start + oldLen) ((newLen : ℤ) - (oldLen : ℤ)) r = (r.1 - oldLen + newLen, r.2 - oldLen + newLen) := by
  have hshift : ∀ v, oldLen ≤ v → shift v ((newLen : ℤ) - (oldLen : ℤ)) = v - oldLen + newLen := by
    intro v hv
    unfold shift
    split_ifs <;> omega
  rw [shiftRange, if_pos h, hshift _ (by omega), hshift _ (by omega)]

/-- The ranges that the patch loop keeps for a file are the spans of a script. -/
def Tracks (ranges : List (ℕ × ℕ)) (script : Splice.Script) : Prop :=
  ranges.Perm (script.spans 0)

lemma Tracks.edits {script script' : Splice.Script} {i : ℕ} (htrack : Tracks ranges script)
    (hold : old ≠ []) (hedits : Splice.Script.Edits old new script i script') :
    Tracks (ranges.map (shiftRange (i + utf8Len old) ((utf8Len new : ℤ) - (utf8Len old : ℤ))) ++
      [(i, i + utf8Len new)]) script' := by
  obtain ⟨left, right, hspans, hleft, hright, hspans'⟩ := hedits.spans_eq 0
  have hpos : 0 < utf8Len old := by
    rw [Nat.pos_iff_ne_zero]
    exact fun h => hold (String.utf8Len_eq_zero.mp h)
  have hbounds : ∀ r ∈ left ++ right, r.1 ≤ r.2 := by
    intro r hr
    rw [← hspans] at hr
    exact (Splice.Script.bounds_of_mem_spans hr).2.1
  have hmapl : left.map (shiftRange (i + utf8Len old)
      ((utf8Len new : ℤ) - (utf8Len old : ℤ))) = left := by
    refine (List.map_congr_left fun r hr => ?_).trans (List.map_id left)
    have h1 := hleft r hr
    have h2 := hbounds r (List.mem_append_left _ hr)
    exact shiftRange_of_lt (by omega)
  have hmapr : right.map (shiftRange (i + utf8Len old)
      ((utf8Len new : ℤ) - (utf8Len old : ℤ))) =
      right.map fun r => (r.1 - utf8Len old + utf8Len new, r.2 - utf8Len old + utf8Len new) := by
    refine List.map_congr_left fun r hr => ?_
    have h1 := hright r hr
    have h2 := hbounds r (List.mem_append_right _ hr)
    exact shiftRange_of_le (by omega) h2
  unfold Tracks at htrack ⊢
  rw [hspans] at htrack
  rw [hspans']
  simp only [Nat.zero_add]
  refine ((htrack.map _).append_right _).trans ?_
  rw [List.map_append, hmapl, hmapr, List.append_assoc]
  exact (List.perm_append_singleton _ _).append_left left

lemma Tracks.exists_edits {script : Splice.Script} (htrack : Tracks ranges script)
    (hold : old ≠ []) (h : matchPatch file script.after ranges old new = .ok (text', ranges')) :
    ∃ i script', OccursOnceAt script.after old i ∧ Splice.Script.Edits old new script i script' ∧
      text' = script'.after ∧ Tracks ranges' script' := by
  obtain ⟨pre, suf, hafter, honce, hdisj, rfl, rfl⟩ := matchPatch_eq_ok_iff.mp h
  have hspans : ∀ r ∈ script.spans 0, ¬ (r.1 < 0 + utf8Len pre + utf8Len old ∧ 0 + utf8Len pre < r.2) := by
    intro r hr
    simpa using hdisj r (htrack.mem_iff.mpr hr)
  obtain ⟨script', hedits⟩ := Splice.Script.exists_edits_of_disjoint new hafter hspans
  refine ⟨utf8Len pre, script', honce, hedits, ?_, htrack.edits hold hedits⟩
  obtain ⟨pre', suf', hafter', hlen, hnew⟩ := hedits.after_eq
  rw [hafter, List.append_assoc, List.append_assoc] at hafter'
  obtain ⟨rfl, hrest⟩ := append_inj_of_utf8Len hafter' hlen.symm
  rw [hnew, List.append_cancel_left hrest]

end Match

end AgzRustMcp
