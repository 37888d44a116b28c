import AgzRustMcp.Change.History

/-!
# Replaying the record

`replay` plans and applies the recorded patches and new files again, revision by revision, on the
tree that was captured.  A revision whose paths survive another trimming is planned again as it was
(`planPatches_recorded`); by induction over the stages the candidate of a ready record is the replay
of its history.
-/

namespace AgzRustMcp

open Checked
open Std (ExtTreeMap)

/-! ## Replay -/

/-- The patches of a revision, as a stage would receive them. -/
def Revision.patchInputs (revision : Revision) : List PatchInput :=
  revision.patches.map fun patch => ⟨patch.file, patch.oldString, patch.newString⟩

/-- The new files of a revision, as a stage would receive them. -/
def Revision.newFileInputs (revision : Revision) : List NewFileInput :=
  revision.newFiles.map fun file => ⟨file.file, file.content⟩

def treeLimits (config : ChangeConfig) (tree : Tree) : CandidateLimits :=
  ⟨fileCount tree, fileBytes tree, config.maxFiles, config.maxBytes⟩

/-- Plans and applies patches and new files on a tree, with nothing failing outside. -/
def stageOn (config : ChangeConfig) (tree : Tree) (patches : List PatchInput)
    (newFiles : List NewFileInput) : Except String Tree := do
  let plan ← planPatches tree patches newFiles (treeLimits config tree)
  match applyPlan (fun _ => none) tree plan.files with
  | (written, none) => .ok written
  | (_, some reason) => .error reason

/-- Plans and applies one recorded revision. -/
def replayRevision (config : ChangeConfig) (tree : Tree) (revision : Revision) : Except String Tree :=
  stageOn config tree revision.patchInputs revision.newFileInputs

/-- Plans and applies the recorded revisions in their order. -/
def replay (config : ChangeConfig) (baseline : Tree) (history : List Revision) : Except String Tree :=
  history.foldlM (replayRevision config) baseline

/-- The texts under which a revision records what it wrote. -/
def Revision.files (revision : Revision) : List String :=
  revision.patches.map StoredPatch.file ++ revision.newFiles.map StoredNewFile.file

/-- The texts under which a history records what it wrote. -/
def writtenFiles (history : List Revision) : List String := history.flatMap Revision.files

/-! ## The condition on paths -/

/-- The file is recorded under a text that does not begin or end with white space. -/
def RecordedPlain (file : String) : Prop :=
  match normalizeRelative file with
  | .ok path => SurvivesTrim path
  | .error _ => True

instance : DecidablePred RecordedPlain := fun file => by
  unfold RecordedPlain
  split <;> infer_instance

lemma RecordedPlain.survivesTrim {file : String} {path : RelPath} (h : RecordedPlain file)
    (hpath : normalizeRelative file = .ok path) : SurvivesTrim path := by
  unfold RecordedPlain at h
  rwa [hpath] at h

/-- Every file that the request names is recorded under a text that survives trimming. -/
def StageRequest.PathsSurviveTrim (request : StageRequest) : Prop :=
  (∀ patch ∈ request.patches, RecordedPlain patch.file) ∧ ∀ file ∈ request.newFiles, RecordedPlain file.file

instance (request : StageRequest) : Decidable request.PathsSurviveTrim :=
  inferInstanceAs (Decidable (_ ∧ _))

/-- A stage call that is accepted names only paths that survive trimming. -/
def StageCall.RecordsPlainPaths (sha : ByteArray → String) (config : ChangeConfig)
    (timeline : Timeline) (call : StageCall) : Prop :=
  (stageBlocking sha config call.env call.request timeline.dir).2.isDone = true → call.request.PathsSurviveTrim

instance (sha : ByteArray → String) (config : ChangeConfig) (timeline : Timeline)
    (call : StageCall) : Decidable (call.RecordsPlainPaths sha config timeline) :=
  inferInstanceAs (Decidable (_ → _))

/-! ## Planning a recorded revision -/

lemma matchPatch_file_irrel {file file' : String} {text old new text' : Utf8Text.Text}
    {ranges ranges' : List (ℕ × ℕ)} (h : matchPatch file text ranges old new = .ok (text', ranges')) :
    matchPatch file' text ranges old new = .ok (text', ranges') :=
  matchPatch_eq_ok_iff.mpr (matchPatch_eq_ok_iff.mp h)

/-- The maps of two patch loops that differ in the names of the patches only. -/
structure PlanState.SameMaps (s t : PlanState) : Prop where
  planned : t.planned = s.planned
  original : t.original = s.original
  order : t.order = s.order
  ranges : t.ranges = s.ranges

/-- One patch under two names of the same path. -/
structure SamePatch (a b : PatchInput) : Prop where
  path : ∀ path, normalizeRelative a.file = .ok path → normalizeRelative b.file = .ok path
  oldString : b.oldString = a.oldString
  newString : b.newString = a.newString

variable {tree : Tree} {newFiles : List NewFileInput} {patches : List PatchInput}
  {limits : CandidateLimits} {plan : PatchPlan} {request : StageRequest} {sha : ByteArray → String}
  {record : ChangeRecord} {config : ChangeConfig}

lemma PlanState.SameMaps.planPatch {s s' t : PlanState} {a b : PatchInput}
    (hst : s.SameMaps t) (hab : SamePatch a b) (h : AgzRustMcp.planPatch tree s a = .ok s') :
    ∃ t', AgzRustMcp.planPatch tree t b = .ok t' ∧ s'.SameMaps t' := by
  obtain ⟨relative, text, updated, ranges, hrel, hempty, hcontents, hmatch, rfl⟩ :=
    planPatch_eq_ok_iff.mp h
  have hcontents' : t.contents tree relative = .ok (Utf8Text.encodeUtf8 text) := by
    rw [← hcontents]
    unfold PlanState.contents
    rw [hst.planned]
  refine ⟨(t.note relative (Utf8Text.encodeUtf8 text)).record relative b updated ranges,
    planPatch_eq_ok_iff.mpr ⟨relative, text, updated, ranges, hab.path _ hrel, ?_, hcontents', ?_, rfl⟩, ?_⟩
  · rwa [hab.oldString]
  · rw [hst.ranges, hab.oldString, hab.newString]
    exact matchPatch_file_irrel hmatch
  · unfold PlanState.note PlanState.record
    rw [hst.planned]
    split_ifs
    · exact ⟨by simp, by simp [hst.original], by simp [hst.order], by simp [hst.ranges]⟩
    · exact ⟨by simp [hst.planned], hst.original, hst.order, by simp [hst.ranges]⟩

lemma forall₂_newPlanned {planned : Finmap fun _ : RelPath => ByteArray} {done newPlanned : List PlannedNewFile}
    (h : newFiles.foldlM (planNewFile tree planned) done = .ok newPlanned) :
    ∃ added, newPlanned = done ++ added ∧ List.Forall₂ (fun (file : NewFileInput) (new : PlannedNewFile) =>
        normalizeRelative file.file = .ok new.relative ∧ new.content = file.content) newFiles added := by
  induction newFiles generalizing done with
  | nil =>
    obtain rfl : done = newPlanned := by simpa [pure, Except.pure] using h
    exact ⟨[], by simp, .nil⟩
  | cons file newFiles ih =>
    rw [List.foldlM_cons, bind_eq_ok_iff] at h
    obtain ⟨mid, hstep, hrest⟩ := h
    obtain ⟨relative, hrel, -, -, -, -, rfl⟩ := planNewFile_eq_ok_iff.mp hstep
    obtain ⟨added, rfl, hadded⟩ := ih hrest
    exact ⟨⟨relative, file.content⟩ :: added, by simp, .cons ⟨hrel, rfl⟩ hadded⟩

lemma exists_input_of_mem_newFiles (h : planPatches tree patches newFiles limits = .ok plan) {new : PlannedNewFile}
    (hnew : new ∈ plan.newFiles) : ∃ file ∈ newFiles, normalizeRelative file.file = .ok new.relative := by
  obtain ⟨state, newPlanned, -, hfiles, -, -, -, rfl⟩ := planPatches_eq_ok_iff.mp h
  obtain ⟨added, hadded, hforall⟩ := forall₂_newPlanned hfiles
  obtain rfl : newPlanned = added := by simpa using hadded
  clear h hfiles hadded
  induction hforall with
  | nil => simp at hnew
  | cons hfirst _ ih =>
    rcases List.mem_cons.mp hnew with rfl | hnew
    · exact ⟨_, List.mem_cons_self, hfirst.1⟩
    · obtain ⟨file, hfile, hpath⟩ := ih hnew
      exact ⟨file, List.mem_cons_of_mem _ hfile, hpath⟩

/-- A plan whose paths survive trimming is made again from its record. -/
theorem planPatches_recorded (sha : ByteArray → String)
    (h : planPatches tree request.patches request.newFiles limits = .ok plan) (htrim : request.PathsSurviveTrim) :
    ∃ plan', planPatches tree
        (Revision.patchInputs ⟨plan.patches.map storedPatch, plan.newFiles.map (storedNewFile sha)⟩)
        (Revision.newFileInputs
          ⟨plan.patches.map storedPatch, plan.newFiles.map (storedNewFile sha)⟩) limits =
          .ok plan' ∧ plan'.files = plan.files := by
  obtain ⟨state, newPlanned, hpatches, hfiles, hcount, hle, hnonneg, rfl⟩ :=
    planPatches_eq_ok_iff.mp h
  have hnormalized : state.normalized = request.patches := by
    rw [normalized_of_foldlM hpatches]
    rfl
  -- The recorded patches name the same paths.
  have hsame : List.Forall₂ SamePatch request.patches
      (Revision.patchInputs ⟨state.normalized.map storedPatch, newPlanned.map (storedNewFile sha)⟩) := by
    rw [hnormalized, Revision.patchInputs, List.map_map, List.forall₂_map_right_iff]
    refine List.forall₂_same.mpr fun patch hpatch => ⟨fun path hpath => ?_, rfl, rfl⟩
    have hnormal := normalPath_of_normalizeRelative hpath
    have hround := normalizeRelative_relativePathString hnormal ((htrim.1 patch hpatch).survivesTrim hpath)
    simpa [storedPatch, normalizePatchFile, hpath] using hround
  obtain ⟨state', hpatches', hmaps⟩ := foldlM_simulation PlanState.SameMaps SamePatch
    (fun _ _ _ _ _ hst hab hstep => hst.planPatch hab hstep) hsame
    (⟨rfl, rfl, rfl, rfl⟩ : PlanState.empty.SameMaps PlanState.empty) hpatches
  -- The recorded new files name the same paths.
  obtain ⟨added, hadded, hforall⟩ := forall₂_newPlanned hfiles
  obtain rfl : newPlanned = added := by simpa using hadded
  have hsameNew : List.Forall₂ (fun a b : NewFileInput => b.content = a.content ∧
      ∀ path, normalizeRelative a.file = .ok path → normalizeRelative b.file = .ok path)
      request.newFiles (Revision.newFileInputs ⟨state.normalized.map storedPatch,
        newPlanned.map (storedNewFile sha)⟩) := by
    rw [Revision.newFileInputs, List.map_map, List.forall₂_map_right_iff]
    have hmem : List.Forall₂ (fun (file : NewFileInput) (new : PlannedNewFile) =>
        file ∈ request.newFiles ∧ normalizeRelative file.file = .ok new.relative ∧
          new.content = file.content) request.newFiles newPlanned := by
      refine (List.forall₂_and_left (p := fun file => file ∈ request.newFiles) ..).mpr
        ⟨fun file hfile => hfile, hforall⟩
    refine hmem.imp ?_
    rintro file new ⟨hfile, hrel, hcontent⟩
    refine ⟨hcontent, fun path hpath => ?_⟩
    obtain rfl : new.relative = path := Except.ok.inj (hrel.symm.trans hpath)
    exact normalizeRelative_relativePathString (normalPath_of_normalizeRelative hpath)
      ((htrim.2 file hfile).survivesTrim hpath)
  obtain ⟨newPlanned', hfiles', rfl⟩ := foldlM_simulation
    (g := planNewFile tree state'.planned) (Eq : List PlannedNewFile → _ → Prop) _
    (fun done done' a b out hdone hab hstep => by
      subst hdone
      obtain ⟨relative, hrel, hdup, hplanned, hlookup, hreject, rfl⟩ :=
        planNewFile_eq_ok_iff.mp hstep
      refine ⟨_, planNewFile_eq_ok_iff.mpr ⟨relative, hab.2 _ hrel, hdup, ?_, hlookup, hreject, rfl⟩, by rw [hab.1]⟩
      rwa [hmaps.planned]) hsameNew rfl hfiles
  have hdelta : plannedDelta state' newPlanned = plannedDelta state newPlanned := by
    unfold plannedDelta
    rw [hmaps.planned, hmaps.original]
  refine ⟨_, planPatches_eq_ok_iff.mpr ⟨state', newPlanned, hpatches', hfiles', hcount, ?_, ?_, rfl⟩, ?_⟩
  · rwa [hdelta]
  · rwa [hdelta]
  · simp only [hmaps.planned, hmaps.original, hmaps.order]

lemma planned_ne_none_iff {state state' : PlanState}
    (h : patches.foldlM (planPatch tree) state = .ok state') (p : RelPath) : state'.planned.lookup p ≠ none ↔
      state.planned.lookup p ≠ none ∨ ∃ patch ∈ patches, normalizeRelative patch.file = .ok p := by
  induction patches generalizing state with
  | nil =>
    obtain rfl : state = state' := by simpa [pure, Except.pure] using h
    simp
  | cons patch patches ih =>
    rw [List.foldlM_cons, bind_eq_ok_iff] at h
    obtain ⟨mid, hstep, hrest⟩ := h
    obtain ⟨relative, text, updated, ranges, hrel, -, -, -, rfl⟩ := planPatch_eq_ok_iff.mp hstep
    rw [ih hrest]
    by_cases hp : p = relative
    · subst hp
      simp [PlanState.record, Finmap.lookup_insert, hrel]
    · have hne : normalizeRelative patch.file ≠ .ok p := by
        rw [hrel]
        exact fun heq => hp (Except.ok.inj heq).symm
      simp [PlanState.record, Finmap.lookup_insert_of_ne _ hp, hne]

lemma mem_targets_iff (h : planPatches tree patches newFiles limits = .ok plan) (p : RelPath) :
    p ∈ plan.files.map PlannedFile.relative ↔ (∃ patch ∈ patches, normalizeRelative patch.file = .ok p) ∨
        p ∈ plan.newFiles.map PlannedNewFile.relative := by
  obtain ⟨state, newPlanned, hpatches, -, -, -, -, rfl⟩ := planPatches_eq_ok_iff.mp h
  have hwf := PlanState.wellFormed_of_foldlM hpatches
  have hpatched := patchedFiles_eq_map state.original hwf.nodup fun p hp =>
    (hwf.mem_order p).mp hp
  have horder := (hwf.mem_order p).trans (planned_ne_none_iff hpatches p)
  have hempty : PlanState.empty.planned.lookup p = none := rfl
  rw [hpatched, List.map_append, List.mem_append, List.map_map, List.map_map]
  refine or_congr ?_ ?_
  · rw [show PlannedFile.relative ∘ patchedFile state.original state.planned = id from rfl, List.map_id, horder]
    simp [hempty]
  · rfl

lemma exists_path_of_mem_patches (h : planPatches tree patches newFiles limits = .ok plan) {patch : PatchInput}
    (hpatch : patch ∈ patches) : ∃ path, normalizeRelative patch.file = .ok path := by
  obtain ⟨state, -, hpatches, -⟩ := planPatches_eq_ok_iff.mp h
  obtain ⟨s, s', hturn⟩ := exists_turn_of_mem hpatches hpatch
  obtain ⟨relative, -, -, -, hrel, -⟩ := planPatch_eq_ok_iff.mp hturn
  exact ⟨relative, hrel⟩

lemma patches_of_planPatches (h : planPatches tree patches newFiles limits = .ok plan) : plan.patches = patches := by
  obtain ⟨state, newPlanned, hpatches, -, -, -, -, rfl⟩ := planPatches_eq_ok_iff.mp h
  simpa [PlanState.empty] using normalized_of_foldlM hpatches

lemma mem_files_recorded_iff (sha : ByteArray → String)
    (h : planPatches tree patches newFiles limits = .ok plan) (k : String) :
    k ∈ Revision.files ⟨plan.patches.map storedPatch, plan.newFiles.map (storedNewFile sha)⟩ ↔
      ∃ p ∈ plan.files.map PlannedFile.relative, relativePathString p = k := by
  have hpatches := patches_of_planPatches h
  simp only [Revision.files, List.mem_append, List.map_map, hpatches]
  constructor
  · rintro (hk | hk)
    · obtain ⟨patch, hpatch, rfl⟩ := List.mem_map.mp hk
      obtain ⟨path, hpath⟩ := exists_path_of_mem_patches h hpatch
      refine ⟨path, (mem_targets_iff h path).mpr (Or.inl ⟨patch, hpatch, hpath⟩), ?_⟩
      simp [storedPatch, normalizePatchFile, hpath]
    · obtain ⟨file, hfile, rfl⟩ := List.mem_map.mp hk
      exact ⟨file.relative, (mem_targets_iff h _).mpr (Or.inr (List.mem_map_of_mem hfile)), rfl⟩
  · rintro ⟨p, hp, rfl⟩
    rcases (mem_targets_iff h p).mp hp with ⟨patch, hpatch, hpath⟩ | hp
    · refine Or.inl (List.mem_map.mpr ⟨patch, hpatch, ?_⟩)
      simp [storedPatch, normalizePatchFile, hpath]
    · obtain ⟨file, hfile, rfl⟩ := List.mem_map.mp hp
      exact Or.inr (List.mem_map.mpr ⟨file, hfile, rfl⟩)

/-! ## Recorded hashes -/

/-- The recorded hashes are those of exactly the files of the history. -/
structure HashesCurrent (sha : ByteArray → String) (record : ChangeRecord) (candidate : Tree)
    (history : List Revision) : Prop where
  keys : ∀ k, record.sourceHashes[k]? ≠ none ↔ k ∈ writtenFiles history
  current : ∀ k hash, record.sourceHashes[k]? = some hash →
    ∃ path contents, NormalPath path ∧ relativePathString path = k ∧
      fileAt candidate path = some contents ∧ hash = ⟨sha contents, contents.size⟩

lemma PlanFor.nodup_hashes (sha : ByteArray → String) (hplan : PlanFor tree limits plan) :
    ((plan.files.map (plannedHash sha)).map Prod.fst).Nodup := by
  have hnodup := hplan.nodup
  rw [List.map_map]
  rw [List.Nodup, List.pairwise_map] at hnodup ⊢
  refine hnodup.imp_of_mem fun {f g} hf hg hne heq => hne ?_
  exact relativePathString_injective (hplan.normal f hf) (hplan.normal g hg) heq

lemma PlanFor.getElem?_extendHashes (sha : ByteArray → String) (hplan : PlanFor tree limits plan)
    (hashes : ExtTreeMap String StoredHash) {file : PlannedFile} (hfile : file ∈ plan.files) :
    (extendHashes hashes (plan.files.map (plannedHash sha)))[relativePathString file.relative]? =
      some ⟨sha file.contents, file.contents.size⟩ :=
  OrderedMap.getElem?_insertAll_of_mem _ (hplan.nodup_hashes sha)
    (List.mem_map_of_mem (f := plannedHash sha) hfile)

lemma getElem?_extendHashes_of_ne (sha : ByteArray → String) {files : List PlannedFile}
    (hashes : ExtTreeMap String StoredHash) {k : String}
    (h : ∀ p ∈ files.map PlannedFile.relative, relativePathString p ≠ k) :
    (extendHashes hashes (files.map (plannedHash sha)))[k]? = hashes[k]? := by
  refine OrderedMap.getElem?_insertAll_of_notMem _ fun hk => ?_
  obtain ⟨entry, hentry, rfl⟩ := List.mem_map.mp hk
  obtain ⟨file, hfile, rfl⟩ := List.mem_map.mp hentry
  exact h _ (List.mem_map_of_mem hfile) rfl

lemma mem_writtenFiles_append_iff (sha : ByteArray → String) (h : planPatches tree patches newFiles limits = .ok plan)
    (history : List Revision) (k : String) :
    k ∈ writtenFiles (history ++ [⟨plan.patches.map storedPatch, plan.newFiles.map (storedNewFile sha)⟩]) ↔
      k ∈ writtenFiles history ∨ ∃ p ∈ plan.files.map PlannedFile.relative, relativePathString p = k := by
  rw [← mem_files_recorded_iff sha h]
  simp [writtenFiles]

lemma HashesCurrent.commit {env : StageEnv} {fault : RelPath → Option ApplyFault} {candidate : Tree}
    {history : List Revision} (hhashes : HashesCurrent sha record candidate history)
    (hplan : planPatches candidate patches newFiles limits = .ok plan)
    (happly : applyPlan fault candidate plan.files = (tree, none)) :
    HashesCurrent sha (commitRecord sha env record plan (plan.files.map (plannedHash sha))) tree
      (history ++ [⟨plan.patches.map storedPatch, plan.newFiles.map (storedNewFile sha)⟩]) := by
  have hspec := planPatches_spec hplan
  have hnonempty : ∀ file ∈ plan.files, file.relative ≠ [] := fun f hf => (hspec.normal f hf).ne_nil
  have hfile := fileAt_applyPlan happly hnonempty hspec.nodup
  refine ⟨fun k => ?_, fun k hash hk => ?_⟩
  · rw [mem_writtenFiles_append_iff sha hplan]
    simp only [commitRecord]
    by_cases hmem : ∃ p ∈ plan.files.map PlannedFile.relative, relativePathString p = k
    · obtain ⟨p, hp, rfl⟩ := hmem
      obtain ⟨file, hmemFile, rfl⟩ := List.mem_map.mp hp
      rw [hspec.getElem?_extendHashes sha _ hmemFile]
      exact iff_of_true (by simp) (Or.inr ⟨_, hp, rfl⟩)
    · rw [getElem?_extendHashes_of_ne sha _ fun p hp heq => hmem ⟨p, hp, heq⟩, hhashes.keys, or_iff_left hmem]
  · simp only [commitRecord] at hk
    by_cases hmem : ∃ p ∈ plan.files.map PlannedFile.relative, relativePathString p = k
    · obtain ⟨p, hp, rfl⟩ := hmem
      obtain ⟨file, hmemFile, rfl⟩ := List.mem_map.mp hp
      refine ⟨file.relative, file.contents, hspec.normal file hmemFile, rfl, ?_, ?_⟩
      · rw [hfile, writtenAt_of_mem hspec.nodup hmemFile]
        rfl
      · exact Option.some.inj (hk.symm.trans (hspec.getElem?_extendHashes sha _ hmemFile))
    · rw [getElem?_extendHashes_of_ne sha _ fun p hp heq => hmem ⟨p, hp, heq⟩] at hk
      obtain ⟨path, contents, hnormal, rfl, hcontents, rfl⟩ := hhashes.current k hash hk
      refine ⟨path, contents, hnormal, rfl, ?_, rfl⟩
      have hnot : writtenAt plan.files path = none := by
        rw [writtenAt_eq_none_iff]
        exact fun hp => hmem ⟨path, hp, rfl⟩
      rw [hfile, hnot, hcontents]
      rfl

/-- Every path that the history wrote has a text that survives trimming. -/
def WrittenSurvive (history : List Revision) : Prop :=
  ∀ path, NormalPath path → relativePathString path ∈ writtenFiles history → SurvivesTrim path

lemma survivesTrim_of_mem_targets (hplan : planPatches tree request.patches request.newFiles limits = .ok plan)
    (htrim : request.PathsSurviveTrim) {p : RelPath}
    (hp : p ∈ plan.files.map PlannedFile.relative) : SurvivesTrim p := by
  rcases (mem_targets_iff hplan p).mp hp with ⟨patch, hpatch, hpath⟩ | hp
  · exact (htrim.1 patch hpatch).survivesTrim hpath
  · obtain ⟨new, hnew, rfl⟩ := List.mem_map.mp hp
    obtain ⟨file, hfile, hpath⟩ := exists_input_of_mem_newFiles hplan hnew
    exact (htrim.2 file hfile).survivesTrim hpath

lemma WrittenSurvive.commit (sha : ByteArray → String) {history : List Revision} (h : WrittenSurvive history)
    (hplan : planPatches tree request.patches request.newFiles limits = .ok plan) (htrim : request.PathsSurviveTrim) :
    WrittenSurvive (history ++ [⟨plan.patches.map storedPatch, plan.newFiles.map (storedNewFile sha)⟩]) := by
  intro path hpath hmem
  rcases (mem_writtenFiles_append_iff sha hplan _ _).mp hmem with hmem | ⟨q, hq, htext⟩
  · exact h path hpath hmem
  · obtain ⟨file, hfile, rfl⟩ := List.mem_map.mp hq
    obtain rfl := relativePathString_injective ((planPatches_spec hplan).normal file hfile) hpath
      htext
    exact survivesTrim_of_mem_targets hplan htrim hq

/-! ## Whole runs -/

lemma applyPlan_quiet {fault : RelPath → Option ApplyFault} {tree' : Tree}
    {files : List PlannedFile} (hnormal : ∀ file ∈ files, file.relative ≠ [])
    (h : applyPlan fault tree files = (tree', none)) : applyPlan (fun _ => none) tree files = (tree', none) := by
  induction files generalizing tree with
  | nil => exact h
  | cons file files ih =>
    obtain ⟨written, hfile, hrest⟩ := applyPlan_cons_eq_none_iff.mp h
    have hne := hnormal file List.mem_cons_self
    obtain ⟨-, hdirs, htarget, hwritten⟩ := (applyFile_eq_none_iff hne).mp hfile
    exact applyPlan_cons_eq_none_iff.mpr ⟨written, (applyFile_eq_none_iff hne).mpr ⟨rfl, hdirs, htarget, hwritten⟩,
      ih (fun f hf => hnormal f (List.mem_cons_of_mem _ hf)) hrest⟩

lemma stageOn_eq_ok {tree' : Tree} (hplan : planPatches tree patches newFiles (treeLimits config tree) = .ok plan)
    (happly : applyPlan (fun _ => none) tree plan.files = (tree', none)) :
    stageOn config tree patches newFiles = .ok tree' := by
  unfold stageOn
  rw [bind_eq_ok_iff]
  exact ⟨plan, hplan, by rw [happly]⟩

/-- The candidate of a ready record is the replay of its history. -/
structure Timeline.Replays (sha : ByteArray → String) (config : ChangeConfig) (timeline : Timeline) : Prop where
  accounted : Accounted config timeline.dir
  replays : ∀ record, timeline.dir.record = some record → record.state = .ready →
    replay config timeline.baseline timeline.history = .ok timeline.dir.candidate ∧
      HashesCurrent sha record timeline.dir.candidate timeline.history

lemma Timeline.replays_ofCreate {env : CreateEnv} {dir : ChangeDir}
    (h : createBlocking sha config env = (dir, .done record)) : (Timeline.ofCreate dir).Replays sha config := by
  refine ⟨accounted_of_create h, fun record' hrecord' _ => ⟨rfl, ?_⟩⟩
  obtain ⟨manifest, tree, -, rfl, rfl⟩ := createBlocking_eq_done h
  obtain rfl := Option.some.inj hrecord'
  refine ⟨fun k => ?_, fun k hash hk => ?_⟩
  · simp [capturedRecord, Timeline.ofCreate, writtenFiles]
  · simp [capturedRecord] at hk

lemma Timeline.Replays.commit {timeline : Timeline} (h : timeline.Replays sha config)
    (hrecord : timeline.dir.record = some record) (hready : record.state = .ready) {env : StageEnv}
    (hplan : planPatches timeline.dir.candidate request.patches request.newFiles
      (candidateLimits config record) = .ok plan)
    (happly : applyPlan env.apply timeline.dir.candidate plan.files = (tree, none))
    (htrim : request.PathsSurviveTrim) : Timeline.Replays sha config
      { dir := { timeline.dir with
          record := some (commitRecord sha env record plan (plan.files.map (plannedHash sha)))
          candidate := tree }
        baseline := timeline.baseline
        history := timeline.history ++ [⟨plan.patches.map storedPatch, plan.newFiles.map (storedNewFile sha)⟩] } := by
  obtain ⟨hreplay, hhashes⟩ := h.replays record hrecord hready
  obtain ⟨hfiles, hbytes, -, -⟩ := h.accounted record hrecord hready
  refine ⟨fun record' hrecord' _ => ?_, fun record' hrecord' _ => ?_⟩
  · obtain rfl := Option.some.inj hrecord'
    obtain ⟨h1, h2, h3, h4⟩ := accounted_commitRecord sha env (plan.files.map (plannedHash sha))
      hfiles hbytes (planPatches_spec hplan) happly
    exact ⟨h1, h2, h1 ▸ h3, h2 ▸ h4⟩
  obtain rfl := Option.some.inj hrecord'
  refine ⟨?_, hhashes.commit hplan happly⟩
  have hlimits : candidateLimits config record = treeLimits config timeline.dir.candidate := by
    rw [candidateLimits, treeLimits, hfiles, hbytes]
  obtain ⟨plan', hplan', hfiles'⟩ := planPatches_recorded sha hplan htrim
  have hnonempty : ∀ file ∈ plan.files, file.relative ≠ [] := fun f hf =>
    ((planPatches_spec hplan).normal f hf).ne_nil
  have hagain := stageOn_eq_ok (hlimits ▸ hplan') (hfiles' ▸ applyPlan_quiet hnonempty happly)
  unfold replay at hreplay ⊢
  rw [List.foldlM_append, bind_eq_ok_iff]
  refine ⟨_, hreplay, ?_⟩
  rw [List.foldlM_cons, bind_eq_ok_iff]
  exact ⟨tree, hagain, rfl⟩

lemma Timeline.Replays.stage {timeline : Timeline} (h : timeline.Replays sha config) {call : StageCall}
    (hcall : call.RecordsPlainPaths sha config timeline) : (timeline.stage sha config call).Replays sha config := by
  rcases timeline.stage_cases sha config call with
    ⟨hsame, -⟩ | ⟨left, hleft, hstate⟩ |
      ⟨record, plan, tree, hrecord, hready, hadmit, happly, hreply, hstage⟩
  · rw [hsame]
    exact h
  · refine ⟨h.accounted.stage call, fun record hrecord hready => ?_⟩
    obtain rfl : left = record := Option.some.inj (hleft.symm.trans hrecord)
    exact absurd hready hstate
  · rw [hstage]
    exact h.commit hrecord hready (admitPlan_eq_ok hadmit).2.2.2 happly
      (hcall (by rw [hreply]; rfl))

/-- After stages whose paths survive trimming, the history of a ready record replays to the
candidate, and the recorded hashes are those of exactly the files that it wrote. -/
theorem ready_record_replays {sha : ByteArray → String} {config : ChangeConfig} {env : CreateEnv}
    {dir : ChangeDir} {created : ChangeRecord}
    (h : createBlocking sha config env = (dir, .done created)) {calls : List StageCall}
    (hcalls : Runs.Along (Timeline.stage sha config)
      (fun timeline call => call.RecordsPlainPaths sha config timeline) (.ofCreate dir) calls)
    {record : ChangeRecord}
    (hrecord : (stages sha config (.ofCreate dir) calls).dir.record = some record)
    (hready : record.state = .ready) :
    replay config dir.candidate (stages sha config (.ofCreate dir) calls).history =
        .ok (stages sha config (.ofCreate dir) calls).dir.candidate ∧
      HashesCurrent sha record (stages sha config (.ofCreate dir) calls).dir.candidate
        (stages sha config (.ofCreate dir) calls).history := by
  have hinv := hcalls.invariant (P := fun timeline : Timeline => timeline.Replays sha config ∧
    timeline.baseline = dir.candidate)
    (fun timeline call ht hcall => ⟨ht.1.stage hcall, ht.2⟩)
    ⟨Timeline.replays_ofCreate h, rfl⟩
  obtain ⟨hreplays, hbaseline⟩ := hinv
  have hfinal := hreplays.replays record hrecord hready
  rwa [hbaseline] at hfinal

theorem ready_record_replays_one_file :
    ∃ record, (stages Sha256.sha256Hex .default (.ofCreate oneFileChange.1)
        oneFileCalls).dir.record = some record ∧ record.state = .ready ∧
      replay .default oneFileChange.1.candidate (stages Sha256.sha256Hex .default
        (.ofCreate oneFileChange.1) oneFileCalls).history =
          .ok (stages Sha256.sha256Hex .default (.ofCreate oneFileChange.1)
            oneFileCalls).dir.candidate := by
  obtain ⟨created, hcreated⟩ := Reply.exists_of_isDone oneFileChange (by decide +kernel)
  obtain ⟨record, hrecord, hready⟩ := ChangeDir.exists_ready
    (stages Sha256.sha256Hex .default (.ofCreate oneFileChange.1) oneFileCalls).dir
    (by decide +kernel)
  have hspec := ready_record_replays hcreated (by decide +kernel) hrecord
    hready
  exact ⟨record, hrecord, hready, hspec.1⟩

/-- A workspace with one file whose name begins with a blank. -/
def blankSource : SourceDir where
  listing := .ofTexts [(" b", "x")]
  distinct := by decide
  bytes_lt := by decide

/-- The change created from that workspace. -/
def blankChange : ChangeDir × Reply :=
  createBlocking Sha256.sha256Hex .default (.quiet blankSource)

/-- One stage that names the file as `./ b`; it is accepted and recorded as ` b`. -/
def blankCalls : List StageCall :=
  (Timeline.ofCreate blankChange.1).script Sha256.sha256Hex .default [([⟨"./ b", "x", "y"⟩], [])]

/-- The recorded path is trimmed when it is replayed. -/
theorem blank_path_does_not_replay :
    ¬ ∀ (sha : ByteArray → String) (config : ChangeConfig) (env : CreateEnv) (dir : ChangeDir)
      (created : ChangeRecord), createBlocking sha config env = (dir, .done created) →
      ∀ (calls : List StageCall) (record : ChangeRecord),
        (stages sha config (.ofCreate dir) calls).dir.record = some record →
        record.state = .ready →
        replay config dir.candidate (stages sha config (.ofCreate dir) calls).history =
            .ok (stages sha config (.ofCreate dir) calls).dir.candidate ∧
          HashesCurrent sha record (stages sha config (.ofCreate dir) calls).dir.candidate
            (stages sha config (.ofCreate dir) calls).history := by
  intro hclaim
  obtain ⟨created, hcreated⟩ := Reply.exists_of_isDone blankChange (by decide +kernel)
  obtain ⟨record, hrecord, hready⟩ := ChangeDir.exists_ready
    (stages Sha256.sha256Hex .default (.ofCreate blankChange.1) blankCalls).dir
    (by decide +kernel)
  have hrefused : replay .default blankChange.1.candidate
      (stages Sha256.sha256Hex .default (.ofCreate blankChange.1) blankCalls).history =
      .error ("candidate file is unavailable b: " ++ notFoundText) := by decide +kernel
  have hreplay := (hclaim _ _ _ _ _ hcreated blankCalls record hrecord hready).1
  rw [hrefused] at hreplay
  cases hreplay

end AgzRustMcp
