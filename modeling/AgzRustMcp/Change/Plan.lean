import AgzRustMcp.Change.Patch

/-!
# What a plan says and what applying it does

`planPatch_eq_ok_iff` says what one accepted turn of the patch loop does, `PlanState.WellFormed` is
the invariant of its maps, and `planPatches_spec` collects in `PlanFor` what holds of an accepted
plan.
-/

namespace AgzRustMcp

open String (utf8Len)
open Utf8Text Checked

/-! ## One turn of the patch loop -/

/-- The bytes that a patch on a path is matched against. -/
def PlanState.contents (tree : Tree) (state : PlanState) (relative : RelPath) : Except String ByteArray :=
  match state.planned.lookup relative with
  | some contents => .ok contents
  | none => readCandidateFile tree relative

/-- The maps after the bytes of a path were looked up. -/
def PlanState.note (state : PlanState) (relative : RelPath) (contents : ByteArray) : PlanState :=
  if state.planned.lookup relative = none then
    { state with
      original := state.original.insert relative contents
      order := state.order ++ [relative] }
  else state

variable {tree : Tree} {state state' : PlanState} {patches : List PatchInput}
  {planned : Finmap fun _ : RelPath => ByteArray} {newPlanned : List PlannedNewFile} {newFiles : List NewFileInput}

lemma PlanState.enter_eq_ok_iff {entered : PlanState} {relative : RelPath} {contents : ByteArray} :
    state.enter tree relative = .ok (contents, entered) ↔
      state.contents tree relative = .ok contents ∧ entered = state.note relative contents := by
  unfold PlanState.enter PlanState.contents PlanState.note
  cases hplanned : state.planned.lookup relative with
  | some c =>
    simp only [Except.ok.injEq, Prod.mk.injEq, reduceCtorEq, if_false]
    exact and_congr Iff.rfl eq_comm
  | none =>
    simp only [bind_eq_ok_iff, pure, Except.pure, Except.ok.injEq, Prod.mk.injEq, if_true]
    constructor
    · rintro ⟨c, hread, rfl, rfl⟩
      exact ⟨hread, rfl⟩
    · rintro ⟨hread, rfl⟩
      exact ⟨contents, hread, rfl, rfl⟩

@[simp] lemma PlanState.note_ranges (state : PlanState) (relative : RelPath)
    (contents : ByteArray) : (state.note relative contents).ranges = state.ranges := by
  unfold PlanState.note
  split_ifs <;> rfl

@[simp] lemma PlanState.note_planned (state : PlanState) (relative : RelPath)
    (contents : ByteArray) : (state.note relative contents).planned = state.planned := by
  unfold PlanState.note
  split_ifs <;> rfl

@[simp] lemma PlanState.note_normalized (state : PlanState) (relative : RelPath)
    (contents : ByteArray) : (state.note relative contents).normalized = state.normalized := by
  unfold PlanState.note
  split_ifs <;> rfl

lemma decodeUtf8?_eq_some_iff {bytes : ByteArray} {text : Text} :
    decodeUtf8? bytes = some text ↔ bytes = encodeUtf8 text := by
  constructor
  · intro h
    exact (encodeUtf8_of_decodeUtf8? h).symm
  · rintro rfl
    exact decodeUtf8?_encodeUtf8 text

lemma planPatch_eq_ok_iff {patch : PatchInput} :
    planPatch tree state patch = .ok state' ↔ ∃ relative text updated ranges,
        normalizeRelative patch.file = .ok relative ∧ patch.oldString ≠ "" ∧
        state.contents tree relative = .ok (encodeUtf8 text) ∧
        matchPatch patch.file text ((state.ranges.lookup relative).getD [])
          patch.oldString.toList patch.newString.toList = .ok (updated, ranges) ∧
        state' = (state.note relative (encodeUtf8 text)).record relative patch updated ranges := by
  unfold planPatch
  rw [bind_eq_ok_iff]
  constructor
  · rintro ⟨relative, hrel, h⟩
    split_ifs at h with hempty
    rw [bind_eq_ok_iff] at h
    obtain ⟨⟨current, entered⟩, henter, h⟩ := h
    obtain ⟨hcontents, rfl⟩ := PlanState.enter_eq_ok_iff.mp henter
    dsimp only at h
    split at h
    · simp at h
    next text htext =>
    obtain rfl := decodeUtf8?_eq_some_iff.mp htext
    rw [bind_eq_ok_iff] at h
    obtain ⟨⟨updated, ranges⟩, hmatch, h⟩ := h
    rw [PlanState.note_ranges] at hmatch
    have hstate : (state.note relative (encodeUtf8 text)).record relative patch updated ranges =
        state' := by simpa [pure, Except.pure] using h
    exact ⟨relative, text, updated, ranges, hrel, hempty, hcontents, hmatch, hstate.symm⟩
  · rintro ⟨relative, text, updated, ranges, hrel, hempty, hcontents, hmatch, rfl⟩
    refine ⟨relative, hrel, ?_⟩
    rw [if_neg hempty, bind_eq_ok_iff]
    refine ⟨(encodeUtf8 text, state.note relative (encodeUtf8 text)),
      PlanState.enter_eq_ok_iff.mpr ⟨hcontents, rfl⟩, ?_⟩
    simp only [decodeUtf8?_encodeUtf8, PlanState.note_ranges]
    rw [bind_eq_ok_iff]
    exact ⟨(updated, ranges), hmatch, rfl⟩

lemma PlanState.contents_record (tree : Tree) (state : PlanState) (relative q : RelPath)
    (patch : PatchInput) (bytes : ByteArray) (updated : Text) (ranges : List (ℕ × ℕ)) :
    ((state.note relative bytes).record relative patch updated ranges).contents tree q =
      if q = relative then .ok (encodeUtf8 updated) else state.contents tree q := by
  unfold PlanState.contents PlanState.record
  by_cases hq : q = relative
  · subst hq
    simp [Finmap.lookup_insert]
  · simp [Finmap.lookup_insert_of_ne _ hq, hq]

/-! ## The maps of the patch loop -/

/-- What holds of the maps of `plan_patches` after any accepted patches. -/
structure PlanState.WellFormed (tree : Tree) (state : PlanState) : Prop where
  nodup : state.order.Nodup
  mem_order : ∀ p, p ∈ state.order ↔ state.planned.lookup p ≠ none
  original : ∀ p ∈ state.order, ∃ contents, state.original.lookup p = some contents ∧
    readCandidateFile tree p = .ok contents
  normal : ∀ p ∈ state.order, NormalPath p

lemma PlanState.wellFormed_empty (tree : Tree) : PlanState.empty.WellFormed tree where
  nodup := List.nodup_nil
  mem_order p := by simp [PlanState.empty]
  original p hp := by simp [PlanState.empty] at hp
  normal p hp := by simp [PlanState.empty] at hp

lemma PlanState.WellFormed.planPatch {patch : PatchInput}
    (hwf : state.WellFormed tree) (h : AgzRustMcp.planPatch tree state patch = .ok state') :
    state'.WellFormed tree := by
  obtain ⟨relative, text, updated, ranges, hrel, -, hcontents, -, rfl⟩ :=
    planPatch_eq_ok_iff.mp h
  by_cases hplanned : state.planned.lookup relative = none
  · have hread : readCandidateFile tree relative = .ok (encodeUtf8 text) := by
      simpa [PlanState.contents, hplanned] using hcontents
    have hnew : relative ∉ state.order := fun hmem => (hwf.mem_order relative).mp hmem hplanned
    unfold PlanState.note PlanState.record
    rw [if_pos hplanned]
    refine ⟨?_, fun p => ?_, fun p hp => ?_, fun p hp => ?_⟩
    · simpa [List.nodup_append, hwf.nodup] using fun p hp (heq : p = relative) => hnew (heq ▸ hp)
    · by_cases hp : p = relative
      · subst hp
        simp [Finmap.lookup_insert]
      · simp [Finmap.lookup_insert_of_ne _ hp, hp, hwf.mem_order]
    · by_cases hpr : p = relative
      · subst hpr
        exact ⟨_, Finmap.lookup_insert _, hread⟩
      · simp only [List.mem_append, List.mem_singleton, hpr, or_false] at hp
        obtain ⟨contents, horig, hreadp⟩ := hwf.original p hp
        refine ⟨contents, ?_, hreadp⟩
        rw [← horig]
        exact Finmap.lookup_insert_of_ne _ hpr
    · simp only [List.mem_append, List.mem_singleton] at hp
      rcases hp with hp | rfl
      · exact hwf.normal p hp
      · exact normalPath_of_normalizeRelative hrel
  · have hmem : relative ∈ state.order := (hwf.mem_order relative).mpr hplanned
    unfold PlanState.note PlanState.record
    rw [if_neg hplanned]
    refine ⟨hwf.nodup, fun p => ?_, hwf.original, hwf.normal⟩
    by_cases hp : p = relative
    · subst hp
      simp [Finmap.lookup_insert, hmem]
    · simp [Finmap.lookup_insert_of_ne _ hp, hwf.mem_order]

lemma PlanState.wellFormed_of_foldlM
    (h : patches.foldlM (AgzRustMcp.planPatch tree) PlanState.empty = .ok state) : state.WellFormed tree :=
  foldlM_invariant (PlanState.WellFormed tree) (fun _ _ _ _ hstep hwf => hwf.planPatch hstep) h
    (PlanState.wellFormed_empty tree)

lemma normalized_of_foldlM (h : patches.foldlM (planPatch tree) state = .ok state') :
    state'.normalized = state.normalized ++ patches := by
  induction patches generalizing state with
  | nil =>
    obtain rfl : state = state' := by simpa [pure, Except.pure] using h
    simp
  | cons patch patches ih =>
    rw [List.foldlM_cons, bind_eq_ok_iff] at h
    obtain ⟨mid, hstep, hrest⟩ := h
    obtain ⟨_, _, _, _, _, _, _, _, rfl⟩ := planPatch_eq_ok_iff.mp hstep
    rw [ih hrest]
    simp [PlanState.record]

def patchedFile (original planned : Finmap fun _ : RelPath => ByteArray) (relative : RelPath) : PlannedFile where
  relative := relative
  contents := (planned.lookup relative).getD ByteArray.empty
  existed := true
  previousBytes := ((original.lookup relative).map ByteArray.size).getD 0

lemma patchedFiles_eq_map (original : Finmap fun _ : RelPath => ByteArray) {order : List RelPath}
    (hnodup : order.Nodup)
    (hmem : ∀ p ∈ order, planned.lookup p ≠ none) :
    patchedFiles original planned order = order.map (patchedFile original planned) := by
  induction order generalizing planned with
  | nil => rfl
  | cons p order ih =>
    obtain ⟨hp, hnodup⟩ := List.nodup_cons.mp hnodup
    obtain ⟨contents, hcontents⟩ := Option.ne_none_iff_exists'.mp (hmem p List.mem_cons_self)
    have hne : ∀ q ∈ order, q ≠ p := fun q hq heq => hp (heq ▸ hq)
    have hih := @ih (planned.erase p) hnodup fun q hq => by
      rw [Finmap.lookup_erase_ne (hne q hq)]
      exact hmem q (List.mem_cons_of_mem _ hq)
    simp only [patchedFiles, hcontents, hih, List.map_cons]
    congr 1
    · simp [patchedFile, hcontents]
    · refine List.map_congr_left fun q hq => ?_
      simp [patchedFile, Finmap.lookup_erase_ne (hne q hq)]

lemma planNewFile_eq_ok_iff {newPlanned' : List PlannedNewFile} {newFile : NewFileInput} :
    planNewFile tree planned newPlanned newFile = .ok newPlanned' ↔
      ∃ relative, normalizeRelative newFile.file = .ok relative ∧
        relative ∉ newPlanned.map PlannedNewFile.relative ∧ planned.lookup relative = none ∧
        tree.lookup relative = none ∧ rejectSymlinkedAncestors tree relative = .ok () ∧
        newPlanned' = newPlanned ++ [⟨relative, newFile.content⟩] := by
  unfold planNewFile
  rw [bind_eq_ok_iff]
  refine exists_congr fun relative => and_congr_right fun _ => ?_
  by_cases hdup : relative ∈ newPlanned.map PlannedNewFile.relative
  · rw [if_pos (Or.inl hdup)]
    simp [hdup]
  by_cases hplanned : planned.lookup relative = none
  · rw [if_neg (not_or.mpr ⟨hdup, not_not.mpr hplanned⟩)]
    cases hlookup : tree.lookup relative with
    | some node => cases node <;> simp
    | none =>
      cases hreject : rejectSymlinkedAncestors tree relative with
      | error reason => simp [hdup, bind, Except.bind]
      | ok u => simp [hdup, hplanned, bind, Except.bind, pure, Except.pure, eq_comm]
  · rw [if_pos (Or.inr hplanned)]
    simp [hplanned]

/-- What holds of the new files that the loop has accepted. -/
structure NewPlanned (tree : Tree) (planned : Finmap fun _ : RelPath => ByteArray)
    (newPlanned : List PlannedNewFile) : Prop where
  nodup : (newPlanned.map PlannedNewFile.relative).Nodup
  spec : ∀ file ∈ newPlanned, NormalPath file.relative ∧ planned.lookup file.relative = none ∧
    tree.lookup file.relative = none ∧ rejectSymlinkedAncestors tree file.relative = .ok ()

lemma newPlanned_of_foldlM (h : newFiles.foldlM (planNewFile tree planned) [] = .ok newPlanned) :
    NewPlanned tree planned newPlanned := by
  refine foldlM_invariant (NewPlanned tree planned) (fun done file done' _ hstep hdone => ?_) h
    ⟨by simp, by simp⟩
  obtain ⟨relative, hrel, hdup, hplanned, hlookup, hreject, rfl⟩ :=
    planNewFile_eq_ok_iff.mp hstep
  refine ⟨?_, fun f hf => ?_⟩
  · rw [List.map_append, List.nodup_append]
    refine ⟨hdone.nodup, by simp, ?_⟩
    intro p hp q hq heq
    obtain rfl : q = relative := by simpa using hq
    exact hdup (heq ▸ hp)
  · rcases List.mem_append.mp hf with hf | hf
    · exact hdone.spec f hf
    · obtain rfl : f = ⟨relative, file.content⟩ := by simpa using hf
      exact ⟨normalPath_of_normalizeRelative hrel, hplanned, hlookup, hreject⟩

/-! ## Accepted plans -/

/-- The change in bytes that a list of planned files makes. -/
def filesDelta (files : List PlannedFile) : ℤ :=
  (files.map fun file => (file.contents.size : ℤ) - (file.previousBytes : ℤ)).sum

/-- What stood at the target of a planned file. -/
def PlannedFile.Fits (tree : Tree) (file : PlannedFile) : Prop :=
  if file.existed then
    ∃ contents, tree.lookup file.relative = some (.file contents) ∧ file.previousBytes = contents.size
  else tree.lookup file.relative = none ∧ file.previousBytes = 0

/-- What holds of the files that the two loops of `plan_patches` accept. -/
structure PlannedFiles (tree : Tree) (plan : PatchPlan) : Prop where
  nodup : (plan.files.map PlannedFile.relative).Nodup
  normal : ∀ file ∈ plan.files, NormalPath file.relative
  ancestors : ∀ file ∈ plan.files, rejectSymlinkedAncestors tree file.relative = .ok ()
  fits : ∀ file ∈ plan.files, file.Fits tree
  created : plan.files.filter (fun file => !file.existed) = plan.newFiles.map PlannedNewFile.toPlanned

/-- What holds of every plan that `plan_patches` accepts. -/
structure PlanFor (tree : Tree) (limits : CandidateLimits) (plan : PatchPlan) : Prop extends
    PlannedFiles tree plan where
  files_le : saturatingAdd limits.currentFiles plan.newFiles.length ≤ limits.maxFiles
  bytes_le : (limits.currentBytes : ℤ) + filesDelta plan.files ≤ limits.maxBytes
  bytes_nonneg : 0 ≤ (limits.currentBytes : ℤ) + filesDelta plan.files

lemma planPatches_eq_ok_iff {limits : CandidateLimits} {plan : PatchPlan} :
    planPatches tree patches newFiles limits = .ok plan ↔
      ∃ state newPlanned, patches.foldlM (planPatch tree) PlanState.empty = .ok state ∧
        newFiles.foldlM (planNewFile tree state.planned) [] = .ok newPlanned ∧
        saturatingAdd limits.currentFiles newPlanned.length ≤ limits.maxFiles ∧
        (limits.currentBytes : ℤ) + plannedDelta state newPlanned ≤ limits.maxBytes ∧
        0 ≤ (limits.currentBytes : ℤ) + plannedDelta state newPlanned ∧
        plan = ⟨patchedFiles state.original state.planned state.order ++
          newPlanned.map PlannedNewFile.toPlanned, state.normalized, newPlanned⟩ := by
  unfold planPatches
  simp only [bind_eq_ok_iff]
  refine exists_congr fun state => ?_
  rw [← exists_and_left]
  refine exists_congr fun newPlanned => ?_
  refine and_congr_right fun _ => and_congr_right fun _ => ?_
  split_ifs with hfiles hbytes hneg
  · simp [hfiles]
  · simp [hbytes]
  · simp [hneg]
  · simp only [not_lt] at hfiles hbytes hneg
    simp [hfiles, hbytes, hneg, pure, Except.pure, eq_comm]

lemma plannedDelta_eq_filesDelta (hwf : state.WellFormed tree) (newPlanned : List PlannedNewFile) :
    plannedDelta state newPlanned = filesDelta (patchedFiles state.original state.planned state.order ++
        newPlanned.map PlannedNewFile.toPlanned) := by
  have hpatched := patchedFiles_eq_map state.original hwf.nodup fun p hp =>
    (hwf.mem_order p).mp hp
  unfold plannedDelta filesDelta
  rw [FiniteMap.total_eq_sum_weightAt _ hwf.nodup fun p hp => (hwf.mem_order p).mpr hp, hpatched,
    List.map_append, List.sum_append, List.map_map, List.map_map]
  congr 2
  · refine List.map_congr_left fun p hp => ?_
    obtain ⟨contents, hcontents⟩ := Option.ne_none_iff_exists'.mp ((hwf.mem_order p).mp hp)
    simp [FiniteMap.weightAt, patchedFile, hcontents]
  · refine List.map_congr_left fun file _ => ?_
    simp [PlannedNewFile.toPlanned, textBytes]

lemma PlanState.WellFormed.notMem_of_newPlanned (hwf : state.WellFormed tree)
    (hnew : NewPlanned tree state.planned newPlanned) {p : RelPath} (hp : p ∈ state.order) :
    p ∉ newPlanned.map PlannedNewFile.relative := by
  intro hmem
  obtain ⟨file, hfile, rfl⟩ := List.mem_map.mp hmem
  exact (hwf.mem_order _).mp hp (hnew.spec file hfile).2.1

/-- The plan that the two loops of `plan_patches` make. -/
def loopPlan (state : PlanState) (newPlanned : List PlannedNewFile) : PatchPlan :=
  ⟨patchedFiles state.original state.planned state.order ++
    newPlanned.map PlannedNewFile.toPlanned, state.normalized, newPlanned⟩

lemma plannedFiles_loopPlan (hpatches : patches.foldlM (planPatch tree) PlanState.empty = .ok state)
    (hfiles : newFiles.foldlM (planNewFile tree state.planned) [] = .ok newPlanned) :
    PlannedFiles tree (loopPlan state newPlanned) := by
  have hwf := PlanState.wellFormed_of_foldlM hpatches
  have hnew := newPlanned_of_foldlM hfiles
  have hpatched := patchedFiles_eq_map state.original hwf.nodup fun p hp =>
    (hwf.mem_order p).mp hp
  unfold loopPlan
  rw [hpatched]
  have hmem : ∀ file ∈ state.order.map (patchedFile state.original state.planned) ++
      newPlanned.map PlannedNewFile.toPlanned,
      NormalPath file.relative ∧ rejectSymlinkedAncestors tree file.relative = .ok () ∧ file.Fits tree := by
    intro file hfile
    rcases List.mem_append.mp hfile with hfile | hfile
    · obtain ⟨p, hp, rfl⟩ := List.mem_map.mp hfile
      obtain ⟨contents, horig, hread⟩ := hwf.original p hp
      obtain ⟨hreject, hlookup⟩ := readCandidateFile_eq_ok_iff.mp hread
      refine ⟨hwf.normal p hp, hreject, contents, hlookup, ?_⟩
      simp [patchedFile, horig]
    · obtain ⟨newFile, hnewFile, rfl⟩ := List.mem_map.mp hfile
      obtain ⟨hnormal, -, hlookup, hreject⟩ := hnew.spec newFile hnewFile
      exact ⟨hnormal, hreject, hlookup, rfl⟩
  refine ⟨?_, fun f hf => (hmem f hf).1, fun f hf => (hmem f hf).2.1, fun f hf => (hmem f hf).2.2, ?_⟩
  · simp only [List.map_append, List.map_map]
    refine List.nodup_append.mpr ⟨?_, hnew.nodup, ?_⟩
    · exact (List.map_id state.order).symm ▸ hwf.nodup
    · intro p hp q hq heq
      obtain ⟨p', hp', rfl⟩ := List.mem_map.mp hp
      obtain rfl : p' = q := heq
      exact hwf.notMem_of_newPlanned hnew hp' hq
  · simp [List.filter_append, List.filter_map, Function.comp_def, patchedFile, PlannedNewFile.toPlanned]

/-- Every accepted plan is a plan for its tree. -/
theorem planPatches_spec {limits : CandidateLimits} {plan : PatchPlan}
    (h : planPatches tree patches newFiles limits = .ok plan) : PlanFor tree limits plan := by
  obtain ⟨state, newPlanned, hpatches, hfiles, hcount, hle, hnonneg, rfl⟩ :=
    planPatches_eq_ok_iff.mp h
  rw [plannedDelta_eq_filesDelta (PlanState.wellFormed_of_foldlM hpatches)] at hle hnonneg
  exact ⟨plannedFiles_loopPlan hpatches hfiles, hcount, hle, hnonneg⟩

/-! ## Applying a plan -/

lemma applyFile_eq_none_iff {fault : RelPath → Option ApplyFault} {tree' : Tree}
    {file : PlannedFile} (hne : file.relative ≠ []) :
    applyFile fault tree file = (tree', none) ↔ fault file.relative = none ∧
        (∀ a ∈ ancestors file.relative, tree.lookup a = none ∨ tree.lookup a = some .dir) ∧
        (tree.lookup file.relative = none ∨ ∃ contents, tree.lookup file.relative = some (.file contents)) ∧
        tree' = (createDirAll tree file.relative).insert file.relative (.file file.contents) := by
  have hcheck := @rejectSymlinkedAncestors_createDirAll_iff file.relative tree
  constructor
  · intro h
    unfold applyFile at h
    split at h
    · simp at h
    split at h
    · simp at h
    · simp at h
    next hfault =>
    dsimp only at h
    split at h
    · simp at h
    next hreject =>
    refine ⟨hfault, hcheck.mp hreject, ?_⟩
    rw [lookup_createDirAll_self tree hne] at h
    cases hlookup : tree.lookup file.relative with
    | none =>
      rw [hlookup] at h
      exact ⟨Or.inl rfl, (Prod.mk.inj h).1.symm⟩
    | some node =>
      rw [hlookup] at h
      cases node with
      | file contents => exact ⟨Or.inr ⟨contents, rfl⟩, (Prod.mk.inj h).1.symm⟩
      | dir => simp at h
      | symlink => simp at h
  · rintro ⟨hfault, hdirs, htarget, rfl⟩
    have hfirst : rejectSymlinkedAncestors tree file.relative = .ok () :=
      rejectAncestors_eq_ok_of_dirs hdirs
    have hsecond := hcheck.mpr hdirs
    have hself := lookup_createDirAll_self tree hne
    unfold applyFile
    rw [hfirst, hfault]
    dsimp only
    rw [hsecond, hself]
    rcases htarget with hnone | ⟨contents, hfile⟩
    · rw [hnone]
    · rw [hfile]

def writtenAt (files : List PlannedFile) (path : RelPath) : Option ByteArray :=
  (files.find? fun file => file.relative = path).map PlannedFile.contents

lemma writtenAt_eq_none_iff {files : List PlannedFile} {path : RelPath} :
    writtenAt files path = none ↔ path ∉ files.map PlannedFile.relative := by
  simp [writtenAt]

lemma writtenAt_of_mem {files : List PlannedFile} {file : PlannedFile}
    (hnodup : (files.map PlannedFile.relative).Nodup) (hfile : file ∈ files) :
    writtenAt files file.relative = some file.contents := by
  induction files with
  | nil => simp at hfile
  | cons f files ih =>
    rw [List.map_cons, List.nodup_cons] at hnodup
    rcases List.mem_cons.mp hfile with rfl | hfile
    · simp [writtenAt]
    · have hne : f.relative ≠ file.relative := fun heq =>
        hnodup.1 (heq ▸ List.mem_map_of_mem hfile)
      have hrest := ih hnodup.2 hfile
      simpa [writtenAt, List.find?_cons, hne] using hrest

lemma lookup_written (tree : Tree) (file : PlannedFile) (q : RelPath) :
    ((createDirAll tree file.relative).insert file.relative (.file file.contents)).lookup q =
      if q = file.relative then some (.file file.contents)
      else if tree.lookup q = none ∧ q ∈ ancestors file.relative then some .dir
      else tree.lookup q := by
  by_cases hq : q = file.relative
  · subst hq
    rw [Finmap.lookup_insert, if_pos rfl]
  · rw [Finmap.lookup_insert_of_ne _ hq, if_neg hq, lookup_createDirAll]

section Apply

variable {fault : RelPath → Option ApplyFault} {tree tree' : Tree} {files : List PlannedFile}

lemma applyPlan_cons_eq_none_iff {file : PlannedFile} :
    applyPlan fault tree (file :: files) = (tree', none) ↔ ∃ written, applyFile fault tree file = (written, none) ∧
        applyPlan fault written files = (tree', none) := by
  rw [applyPlan]
  cases applyFile fault tree file with
  | mk written error =>
    cases error with
    | none => simp
    | some reason => simp

/-- The tree after an apply: planned bytes, missing parents, and the rest. -/
theorem lookup_applyPlan (h : applyPlan fault tree files = (tree', none))
    (hnormal : ∀ file ∈ files, file.relative ≠ [])
    (hnodup : (files.map PlannedFile.relative).Nodup) (q : RelPath) : tree'.lookup q =
      match writtenAt files q with
      | some contents => some (.file contents)
      | none =>
        if tree.lookup q = none ∧ ∃ file ∈ files, q ∈ ancestors file.relative then some .dir
        else tree.lookup q := by
  induction files generalizing tree with
  | nil =>
    obtain rfl : tree = tree' := (Prod.mk.inj h).1
    simp [writtenAt]
  | cons file files ih =>
    obtain ⟨written, hfile, hrest⟩ := applyPlan_cons_eq_none_iff.mp h
    obtain ⟨-, -, -, rfl⟩ := (applyFile_eq_none_iff (hnormal file List.mem_cons_self)).mp hfile
    rw [List.map_cons, List.nodup_cons] at hnodup
    rw [ih hrest (fun f hf => hnormal f (List.mem_cons_of_mem _ hf)) hnodup.2, lookup_written]
    by_cases hq : q = file.relative
    · subst hq
      have hnone : writtenAt files file.relative = none := writtenAt_eq_none_iff.mpr hnodup.1
      rw [hnone]
      simp [writtenAt]
    · have hwritten : writtenAt (file :: files) q = writtenAt files q := by
        simp [writtenAt, Ne.symm hq]
      rw [hwritten]
      cases writtenAt files q with
      | some contents => rfl
      | none =>
        simp only [hq, if_false, List.mem_cons, exists_eq_or_imp]
        by_cases hnone : tree.lookup q = none
        · by_cases ha : q ∈ ancestors file.relative
          · simp [hnone, ha]
          · simp [hnone, ha]
        · simp [hnone]

lemma fileAt_applyPlan (h : applyPlan fault tree files = (tree', none)) (hnormal : ∀ file ∈ files, file.relative ≠ [])
    (hnodup : (files.map PlannedFile.relative).Nodup) (p : RelPath) :
    fileAt tree' p = (writtenAt files p).or (fileAt tree p) := by
  unfold fileAt
  rw [lookup_applyPlan h hnormal hnodup]
  cases writtenAt files p with
  | some contents => rfl
  | none =>
    simp only [Option.none_or]
    split_ifs with hdir
    · rw [hdir.1]
    · rfl

lemma lookup_ancestor_applyPlan (h : applyPlan fault tree files = (tree', none))
    (hnormal : ∀ file ∈ files, file.relative ≠ []) {file : PlannedFile} (hfile : file ∈ files)
    {a : RelPath} (ha : a ∈ ancestors file.relative) : tree'.lookup a = some .dir := by
  -- A directory stays one: writing a file onto it would have stopped the apply.
  have hkeep : ∀ (files : List PlannedFile) (t : Tree), (∀ f ∈ files, f.relative ≠ []) →
      applyPlan fault t files = (tree', none) → t.lookup a = some .dir →
      tree'.lookup a = some .dir := by
    intro files
    induction files with
    | nil =>
      intro t _ ht hdir
      obtain rfl : t = tree' := (Prod.mk.inj ht).1
      exact hdir
    | cons f files ih =>
      intro t hne ht hdir
      obtain ⟨written, hf, hrest⟩ := applyPlan_cons_eq_none_iff.mp ht
      obtain ⟨-, -, htarget, rfl⟩ := (applyFile_eq_none_iff (hne f List.mem_cons_self)).mp hf
      refine ih _ (fun g hg => hne g (List.mem_cons_of_mem _ hg)) hrest ?_
      have haf : a ≠ f.relative := by
        rintro rfl
        rcases htarget with hc | ⟨c, hc⟩ <;> simp [hdir] at hc
      rw [lookup_written, if_neg haf, if_neg (by simp [hdir]), hdir]
  induction files generalizing tree with
  | nil => simp at hfile
  | cons f files ih =>
    obtain ⟨written, hf, hrest⟩ := applyPlan_cons_eq_none_iff.mp h
    have hne := hnormal f List.mem_cons_self
    have hrestNormal : ∀ g ∈ files, g.relative ≠ [] := fun g hg =>
      hnormal g (List.mem_cons_of_mem _ hg)
    rcases List.mem_cons.mp hfile with rfl | hfile
    · obtain ⟨-, hdirs, -, rfl⟩ := (applyFile_eq_none_iff hne).mp hf
      refine hkeep files _ hrestNormal hrest ?_
      have haf : a ≠ file.relative := fun heq => notMem_ancestors_self hne (heq ▸ ha)
      rw [lookup_written, if_neg haf]
      rcases hdirs a ha with hnone | hdir
      · rw [if_pos ⟨hnone, ha⟩]
      · rw [if_neg (by simp [hdir]), hdir]
    · exact ih hrest hrestNormal hfile

lemma total_applyPlan (w : Node → ℕ) (hw : w .dir = 0) (h : applyPlan fault tree files = (tree', none))
    (hnormal : ∀ file ∈ files, file.relative ≠ []) (hnodup : (files.map PlannedFile.relative).Nodup) :
    ((FiniteMap.total (fun _ => w) tree' : ℕ) : ℤ) = (FiniteMap.total (fun _ => w) tree : ℕ) +
        (files.map fun file => (w (.file file.contents) : ℤ) -
          (FiniteMap.weightAt (fun _ => w) tree file.relative : ℕ)).sum := by
  induction files generalizing tree with
  | nil =>
    obtain rfl : tree = tree' := (Prod.mk.inj h).1
    simp
  | cons file files ih =>
    obtain ⟨written, hfile, hrest⟩ := applyPlan_cons_eq_none_iff.mp h
    have hne := hnormal file List.mem_cons_self
    obtain ⟨-, -, -, rfl⟩ := (applyFile_eq_none_iff hne).mp hfile
    rw [List.map_cons, List.nodup_cons] at hnodup
    have hih := ih hrest (fun f hf => hnormal f (List.mem_cons_of_mem _ hf)) hnodup.2
    have hinsert := FiniteMap.total_insert (fun _ => w) (createDirAll tree file.relative)
      file.relative (.file file.contents)
    have hdirs : FiniteMap.total (fun _ => w) (createDirAll tree file.relative) =
        FiniteMap.total (fun _ => w) tree := total_createDirs _ (fun _ => hw) _ _
    have hself : FiniteMap.weightAt (fun _ => w) (createDirAll tree file.relative) file.relative =
        FiniteMap.weightAt (fun _ => w) tree file.relative := by
      unfold FiniteMap.weightAt
      rw [lookup_createDirAll_self tree hne]
    -- The other targets weigh what they weighed before: at most a directory appeared there.
    have hother : (files.map fun f => (w (.file f.contents) : ℤ) -
        (FiniteMap.weightAt (fun _ => w) ((createDirAll tree file.relative).insert file.relative
          (.file file.contents)) f.relative : ℕ)) =
        files.map fun f => (w (.file f.contents) : ℤ) -
          (FiniteMap.weightAt (fun _ => w) tree f.relative : ℕ) := by
      refine List.map_congr_left fun f hf => ?_
      have hfne : f.relative ≠ file.relative := fun heq =>
        hnodup.1 (heq ▸ List.mem_map_of_mem hf)
      unfold FiniteMap.weightAt
      rw [lookup_written, if_neg hfne]
      split_ifs with hdir
      · simp [hdir.1, hw]
      · rfl
    rw [hother] at hih
    rw [hdirs, hself] at hinsert
    rw [hih, List.map_cons, List.sum_cons]
    omega

/-- The bytes of the tree move by what was planned. -/
theorem fileBytes_applyPlan (h : applyPlan fault tree files = (tree', none))
    (hnormal : ∀ file ∈ files, file.relative ≠ [])
    (hnodup : (files.map PlannedFile.relative).Nodup) (hfits : ∀ file ∈ files, file.Fits tree) :
    (fileBytes tree' : ℤ) = fileBytes tree + filesDelta files := by
  have htotal := total_applyPlan Node.bytes rfl h hnormal hnodup
  rw [fileBytes, htotal, fileBytes, filesDelta]
  congr 2
  refine List.map_congr_left fun file hfile => ?_
  have hprev : FiniteMap.weightAt (fun _ => Node.bytes) tree file.relative = file.previousBytes := by
    have hfit := hfits file hfile
    unfold PlannedFile.Fits at hfit
    unfold FiniteMap.weightAt
    split_ifs at hfit
    · obtain ⟨contents, hlookup, hprev⟩ := hfit
      simp [hlookup, hprev, Node.bytes]
    · simp [hfit.1, hfit.2]
  rw [hprev]
  rfl

/-- The number of files of the tree grows by the planned new files. -/
theorem fileCount_applyPlan (h : applyPlan fault tree files = (tree', none))
    (hnormal : ∀ file ∈ files, file.relative ≠ [])
    (hnodup : (files.map PlannedFile.relative).Nodup) (hfits : ∀ file ∈ files, file.Fits tree) :
    fileCount tree' = fileCount tree + (files.filter fun file => !file.existed).length := by
  have htotal := total_applyPlan Node.files rfl h hnormal hnodup
  have hsum : (files.map fun file => (Node.files (.file file.contents) : ℤ) -
      (FiniteMap.weightAt (fun _ => Node.files) tree file.relative : ℕ)).sum =
      (files.filter fun file => !file.existed).length := by
    clear h hnormal hnodup htotal
    induction files with
    | nil => rfl
    | cons file files ih =>
      have hfit := hfits file List.mem_cons_self
      have hrest := ih fun f hf => hfits f (List.mem_cons_of_mem _ hf)
      unfold PlannedFile.Fits at hfit
      rw [List.map_cons, List.sum_cons, hrest]
      unfold FiniteMap.weightAt
      split_ifs at hfit with hexisted
      · obtain ⟨contents, hlookup, -⟩ := hfit
        simp [hlookup, hexisted, Node.files]
      · simp [hfit.1, hexisted, Node.files, add_comm]
  rw [hsum] at htotal
  unfold fileCount
  omega

end Apply

end AgzRustMcp
