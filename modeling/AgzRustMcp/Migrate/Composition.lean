import AgzRustMcp.Migrate.Staging

/-!
# Composed for staging

The patches of `compose_patches` are meant to be staged at once.  `composed_stageable_iff` says when
they are; a new text that makes a second copy of a later window breaks its first condition
(`compose_patches_repeats_window`).
-/

namespace AgzRustMcp.Compose

open String (utf8Len)
open Utf8Text Splice Checked
open Std (ExtTreeMap)

/-! ## The edits of each file -/

def fileEdits (edits : List PlannedEdit) (file : String) : List PlannedEdit :=
  edits.filter fun edit => decide (edit.file = file)

/-- The edits that `compose_patches` looks at. -/
def keptEdits (edits : List PlannedEdit) : List PlannedEdit := edits.take maxMigrationEdits

section

variable {edits : List PlannedEdit} {file : String} {es : List PlannedEdit} {readFile : String → Option Text}

lemma getElem?_foldl_byFile (files : ExtTreeMap String (List PlannedEdit)) (file : String) :
    (edits.foldl (fun files edit =>
      files.insert edit.file ((files[edit.file]?).getD [] ++ [edit])) files)[file]? =
      if fileEdits edits file = [] then files[file]?
      else some ((files[file]?).getD [] ++ fileEdits edits file) := by
  induction edits generalizing files with
  | nil => rfl
  | cons edit edits ih =>
    rw [List.foldl_cons, ih]
    by_cases hfile : edit.file = file
    · subst hfile
      have hcons : fileEdits (edit :: edits) edit.file = edit :: fileEdits edits edit.file := by
        simp [fileEdits]
      rw [hcons, if_neg (List.cons_ne_nil _ _), ExtTreeMap.getElem?_insert_self, Option.getD_some]
      by_cases hnone : fileEdits edits edit.file = []
      · rw [if_pos hnone, hnone]
      · rw [if_neg hnone, List.append_assoc, List.singleton_append]
    · have hcons : fileEdits (edit :: edits) file = fileEdits edits file := by
        simp [fileEdits, hfile]
      have hne : compare edit.file file ≠ .eq :=
        fun heq => hfile (Std.LawfulEqCmp.compare_eq_iff_eq.mp heq)
      rw [hcons, ExtTreeMap.getElem?_insert, if_neg hne]

lemma mem_byFile_iff : (file, es) ∈ (byFile edits).toList ↔
    es = fileEdits edits file ∧ fileEdits edits file ≠ [] := by
  rw [ExtTreeMap.mem_toList_iff_getElem?_eq_some, byFile, getElem?_foldl_byFile]
  by_cases hnone : fileEdits edits file = []
  · simp [hnone]
  · rw [if_neg hnone]
    simp [hnone, eq_comm]

lemma fileEdits_ne_nil {edit : PlannedEdit} (h : edit ∈ edits) : fileEdits edits edit.file ≠ [] :=
  List.ne_nil_of_mem (List.mem_filter.mpr ⟨h, by simp⟩)

lemma exists_edit_of_fileEdits (h : fileEdits edits file ≠ []) : ∃ edit ∈ edits, edit.file = file := by
  obtain ⟨edit, hedit⟩ := List.exists_mem_of_ne_nil _ h
  obtain ⟨hmem, hfile⟩ := List.mem_filter.mp hedit
  exact ⟨edit, hmem, of_decide_eq_true hfile⟩

lemma nodup_byFile (edits : List PlannedEdit) : ((byFile edits).toList.map Prod.fst).Nodup := by
  rw [List.Nodup, List.pairwise_map]
  exact (byFile edits).distinct_keys_toList.imp fun h heq =>
    h (Std.LawfulEqCmp.compare_eq_iff_eq.mpr heq)

lemma composed_of_obligations (h : (composePatches edits readFile).2 = [])
    (hmem : (file, es) ∈ (byFile (keptEdits edits)).toList) :
    ∃ original, readFile file = some original ∧ Composed file original es ∧
      composeFile readFile file es = (filePatches file original es, []) := by
  have hfile : (composeFile readFile file es).2 = [] :=
    List.flatMap_eq_nil_iff.mp h _ (List.mem_map_of_mem hmem)
  unfold composeFile at hfile ⊢
  cases hread : readFile file with
  | none =>
    rw [hread] at hfile
    simp at hfile
  | some original =>
    rw [hread] at hfile
    dsimp only at hfile ⊢
    obtain ⟨hadmitted, hwritten⟩ := List.append_eq_nil_iff.mp hfile
    exact ⟨original, rfl, ⟨hadmitted, hwritten⟩, by rw [hadmitted, hwritten]; rfl⟩

end

/-! ## The patches of all files -/

/-- `read_file` returns the text of the file that stands under the normalized name. -/
def ReadsCandidate (tree : Tree) (readFile : String → Option Text) : Prop :=
  ∀ file original, readFile file = some original → ∃ path, normalizeRelative file = .ok path ∧
      readCandidateFile tree path = .ok (encodeUtf8 original)

/-- The edits name every file in one way. -/
def NamedOnce (edits : List PlannedEdit) : Prop :=
  ∀ edit ∈ edits, ∀ other ∈ edits, normalizeRelative edit.file = normalizeRelative other.file → edit.file = other.file

/-- The bytes that the kept edits add to the files. -/
def addedBytes (edits : List PlannedEdit) (readFile : String → Option Text) : ℤ :=
  ((byFile (keptEdits edits)).toList.map fun entry =>
    match readFile entry.1 with
    | none => 0
    | some original => (utf8Len (editedText original entry.2) : ℤ) - utf8Len original).sum

lemma exists_foldlM_of_matchPatchesAt {tree : Tree} {patches : List PatchInput} {state : PlanState}
    (h : ∀ patch ∈ patches, ∃ path text result, normalizeRelative patch.file = .ok path ∧
      patch.oldString ≠ "" ∧ state.contents tree path = .ok (encodeUtf8 text) ∧
      matchPatches (text, (state.ranges.lookup path).getD []) (patchesAt path patches) = .ok result) :
    ∃ state', patches.foldlM (planPatch tree) state = .ok state' := by
  induction patches generalizing state with
  | nil => exact ⟨state, rfl⟩
  | cons patch patches ih =>
    obtain ⟨path, text, result, hrel, hold, htext, hmatches⟩ := h patch List.mem_cons_self
    rw [patchesAt_cons_of_eq hrel] at hmatches
    unfold matchPatches at hmatches
    rw [List.foldlM_cons, bind_eq_ok_iff] at hmatches
    obtain ⟨⟨updated, ranges⟩, hmatch, hrest⟩ := hmatches
    have hstep : planPatch tree state patch =
        .ok ((state.note path (encodeUtf8 text)).record path patch updated ranges) :=
      planPatch_eq_ok_iff.mpr ⟨path, text, updated, ranges, hrel, hold, htext, hmatch, rfl⟩
    obtain ⟨state', hstate'⟩ := @ih ((state.note path (encodeUtf8 text)).record path patch updated
      ranges) (by
        intro other hother
        obtain ⟨path', text', result', hrel', hold', htext', hmatches'⟩ :=
          h other (List.mem_cons_of_mem _ hother)
        by_cases hpath : path' = path
        · subst hpath
          refine ⟨path', updated, result, hrel', hold', ?_, ?_⟩
          · rw [PlanState.contents_record, if_pos rfl]
          · simpa [PlanState.record, Finmap.lookup_insert, matchPatches] using hrest
        · refine ⟨path', text', result', hrel', hold', ?_, ?_⟩
          · rw [PlanState.contents_record, if_neg hpath, htext']
          · rw [patchesAt_cons_of_ne hrel hpath] at hmatches'
            simpa [PlanState.record, Finmap.lookup_insert_of_ne _ hpath] using hmatches')
    refine ⟨state', ?_⟩
    rw [List.foldlM_cons, hstep]
    exact hstate'

section

variable {tree : Tree} {edits : List PlannedEdit} {readFile : String → Option Text} {file : String}
  {es : List PlannedEdit} {original : Text} {path : RelPath}

lemma mem_composePatches (h : (composePatches edits readFile).2 = []) {patch : PatchInput} :
    patch ∈ (composePatches edits readFile).1 ↔ ∃ file es original, (file, es) ∈ (byFile (keptEdits edits)).toList ∧
        readFile file = some original ∧ patch ∈ filePatches file original es := by
  have hfirst : (composePatches edits readFile).1 = ((byFile (keptEdits edits)).toList.map fun entry =>
        composeFile readFile entry.1 entry.2).flatMap Prod.fst := rfl
  rw [hfirst, List.mem_flatMap]
  constructor
  · rintro ⟨composed, hcomposed, hpatch⟩
    obtain ⟨⟨file, es⟩, hmem, rfl⟩ := List.mem_map.mp hcomposed
    obtain ⟨original, hread, -, hfile⟩ := composed_of_obligations h hmem
    rw [hfile] at hpatch
    exact ⟨file, es, original, hmem, hread, hpatch⟩
  · rintro ⟨file, es, original, hmem, hread, hpatch⟩
    obtain ⟨original', hread', -, hfile⟩ := composed_of_obligations h hmem
    obtain rfl : original = original' := Option.some.inj (hread.symm.trans hread')
    exact ⟨_, List.mem_map_of_mem hmem, by rw [hfile]; exact hpatch⟩

lemma Composed.file_of_mem (h : Composed file original es) {patch : PatchInput}
    (hpatch : patch ∈ filePatches file original es) : patch.file = file ∧ patch.oldString ≠ "" := by
  have hpatched := patched_of_obligations h.written
  have hframed := h.windows_spec.1
  unfold filePatches at hpatch
  generalize (patchClusters file original (windows file original es)).1 = patches at *
  generalize windows file original es = clusters at *
  induction hpatched with
  | nil => simp at hpatch
  | @cons cluster first _ _ hfirst _ ih =>
    rcases List.mem_cons.mp hpatch with rfl | hpatch
    · refine ⟨hfirst.file_eq, fun hempty => ?_⟩
      obtain ⟨text, hslice, hne, -⟩ := (hframed cluster List.mem_cons_self).once
      obtain rfl := Option.some.inj (hslice.symm.trans hfirst.oldString)
      rw [hempty] at hne
      exact hne rfl
    · exact ih hpatch fun c hc => hframed c (List.mem_cons_of_mem _ hc)

lemma Composed.filePatches_ne_nil (h : Composed file original es) (hne : es ≠ []) :
    filePatches file original es ≠ [] := by
  intro hnil
  have hpatched := patched_of_obligations h.written
  obtain ⟨-, -, hedits⟩ := h.windows_spec
  rw [show (patchClusters file original (windows file original es)).1 = [] from hnil] at hpatched
  cases hwindows : windows file original es with
  | nil =>
    have hperm := List.perm_insertionSort PlannedEdit.before es
    rw [← hedits, hwindows] at hperm
    exact hne hperm.symm.eq_nil
  | cons c clusters =>
    rw [hwindows] at hpatched
    cases hpatched

lemma flatMap_eq_of_mem {α β : Type*} {l : List α} {a : α} {f : α → List β} (hnodup : l.Nodup)
    (ha : a ∈ l) (hother : ∀ b ∈ l, b ≠ a → f b = []) : l.flatMap f = f a := by
  induction l with
  | nil => simp at ha
  | cons b l ih =>
    obtain ⟨hb, hnodup⟩ := List.nodup_cons.mp hnodup
    rw [List.flatMap_cons]
    rcases List.mem_cons.mp ha with rfl | ha
    · have hrest : l.flatMap f = [] := List.flatMap_eq_nil_iff.mpr fun c hc =>
        hother c (List.mem_cons_of_mem _ hc) fun heq => hb (heq ▸ hc)
      rw [hrest, List.append_nil]
    · rw [hother b List.mem_cons_self fun heq => hb (heq ▸ ha), List.nil_append]
      exact ih hnodup ha fun c hc => hother c (List.mem_cons_of_mem _ hc)

lemma exists_edit_of_mem_byFile (hmem : (file, es) ∈ (byFile (keptEdits edits)).toList) :
    ∃ edit ∈ edits, edit.file = file := by
  obtain ⟨-, hne⟩ := mem_byFile_iff.mp hmem
  obtain ⟨edit, hedit, hfile⟩ := exists_edit_of_fileEdits hne
  exact ⟨edit, List.mem_of_mem_take hedit, hfile⟩

lemma patchesAt_composePatches (h : (composePatches edits readFile).2 = [])
    (hnames : NamedOnce edits) (hmem : (file, es) ∈ (byFile (keptEdits edits)).toList)
    (hread : readFile file = some original) (hrel : normalizeRelative file = .ok path) :
    patchesAt path (composePatches edits readFile).1 = filePatches file original es := by
  have hfirst : (composePatches edits readFile).1 = (byFile (keptEdits edits)).toList.flatMap fun entry =>
        (composeFile readFile entry.1 entry.2).1 := by
    unfold composePatches
    dsimp only
    rw [List.flatMap_map]
    rfl
  have hkept : ∀ {other es'}, (other, es') ∈ (byFile (keptEdits edits)).toList →
      ∀ patch ∈ (composeFile readFile other es').1, patch.file = other := by
    intro other es' hother patch hpatch
    obtain ⟨original', -, hcomposed, hfile⟩ := composed_of_obligations h hother
    rw [hfile] at hpatch
    exact (hcomposed.file_of_mem hpatch).1
  unfold patchesAt
  rw [hfirst, List.filter_flatMap, flatMap_eq_of_mem (List.Nodup.of_map _ (nodup_byFile (keptEdits edits))) hmem]
  · obtain ⟨original', hread', -, hfile⟩ := composed_of_obligations h hmem
    obtain rfl : original = original' := Option.some.inj (hread.symm.trans hread')
    rw [hfile]
    refine List.filter_eq_self.mpr fun patch hpatch => ?_
    have := hkept hmem patch (by rw [hfile]; exact hpatch)
    simpa [this] using hrel
  · rintro ⟨other, es'⟩ hother hne
    refine List.filter_eq_nil_iff.mpr fun patch hpatch hpath => hne ?_
    rw [hkept hother patch hpatch, decide_eq_true_iff, ← hrel] at hpath
    obtain ⟨edit, hedit, rfl⟩ := exists_edit_of_mem_byFile hother
    obtain ⟨edit', hedit', rfl⟩ := exists_edit_of_mem_byFile hmem
    have hsame := hnames edit hedit edit' hedit' hpath
    rw [hsame] at hother ⊢
    rw [(mem_byFile_iff.mp hother).1, (mem_byFile_iff.mp hmem).1]

lemma planned_of_foldlM (h : (composePatches edits readFile).2 = []) (hreads : ReadsCandidate tree readFile)
    (hnames : NamedOnce edits) {state : PlanState}
    (hstate : (composePatches edits readFile).1.foldlM (planPatch tree) PlanState.empty = .ok state)
    (hmem : (file, es) ∈ (byFile (keptEdits edits)).toList) (hread : readFile file = some original)
    (hrel : normalizeRelative file = .ok path) : StaysUnique original [] (windows file original es) ∧
      state.contents tree path = .ok (encodeUtf8 (editedText original es)) ∧ path ∈ state.order := by
  obtain ⟨path', hrel', hcandidate⟩ := hreads file original hread
  obtain rfl : path = path' := Except.ok.inj (hrel.symm.trans hrel')
  obtain ⟨original', hread', hcomposed, -⟩ := composed_of_obligations h hmem
  obtain rfl : original = original' := Option.some.inj (hread.symm.trans hread')
  have hat := patchesAt_composePatches h hnames hmem hread hrel
  have hempty : PlanState.empty.contents tree path = .ok (encodeUtf8 original) := hcandidate
  obtain ⟨text, ranges, hmatches, hcontents⟩ := matchPatches_of_foldlM hstate hempty
  rw [hat] at hmatches
  obtain ⟨hloop, htext⟩ := hcomposed.matchPatches_iff
  have hwf := PlanState.wellFormed_of_foldlM hstate
  refine ⟨hloop.mp ⟨_, hmatches⟩, ?_, ?_⟩
  · rw [hcontents, htext text ranges hmatches]
  · rw [hwf.mem_order path, planned_ne_none_iff hstate path]
    obtain ⟨hes, hne⟩ := mem_byFile_iff.mp hmem
    obtain ⟨patch, hpatch⟩ := List.exists_mem_of_ne_nil _ (hcomposed.filePatches_ne_nil (hes ▸ hne))
    refine Or.inr ⟨patch, (mem_composePatches h).mpr ⟨file, es, original, hmem, hread, hpatch⟩, ?_⟩
    rw [(hcomposed.file_of_mem hpatch).1, hrel]

def pathOf (file : String) : RelPath :=
  match normalizeRelative file with
  | .ok path => path
  | .error _ => []

lemma plannedDelta_eq_addedBytes (h : (composePatches edits readFile).2 = [])
    (hreads : ReadsCandidate tree readFile) (hnames : NamedOnce edits) {state : PlanState}
    (hstate : (composePatches edits readFile).1.foldlM (planPatch tree) PlanState.empty = .ok state) :
    plannedDelta state [] = addedBytes edits readFile := by
  have hwf := PlanState.wellFormed_of_foldlM hstate
  have hpatched := patchedFiles_eq_map state.original hwf.nodup fun p hp => (hwf.mem_order p).mp hp
  have hentry : ∀ entry ∈ (byFile (keptEdits edits)).toList, ∃ original,
      readFile entry.1 = some original ∧ normalizeRelative entry.1 = .ok (pathOf entry.1) ∧
      readCandidateFile tree (pathOf entry.1) = .ok (encodeUtf8 original) := by
    rintro ⟨file, es⟩ hmem
    obtain ⟨original, hread, -, -⟩ := composed_of_obligations h hmem
    obtain ⟨path, hrel, hcandidate⟩ := hreads file original hread
    refine ⟨original, hread, ?_, ?_⟩ <;> simp only [pathOf, hrel]
    exact hcandidate
  -- The paths that are planned are those of the files.
  have horder : state.order.Perm ((byFile (keptEdits edits)).toList.map fun entry => pathOf entry.1) := by
    refine (List.perm_ext_iff_of_nodup hwf.nodup ?_).mpr fun p => ?_
    · have hkeys := nodup_byFile (keptEdits edits)
      have hcomp : ((byFile (keptEdits edits)).toList.map fun entry => pathOf entry.1) =
          ((byFile (keptEdits edits)).toList.map Prod.fst).map pathOf := by rw [List.map_map]; rfl
      rw [hcomp]
      refine hkeys.map_on fun f hf g hg hsame => ?_
      obtain ⟨⟨f, es⟩, hmemf, rfl⟩ := List.mem_map.mp hf
      obtain ⟨⟨g, es'⟩, hmemg, rfl⟩ := List.mem_map.mp hg
      obtain ⟨-, -, hrelf, -⟩ := hentry _ hmemf
      obtain ⟨-, -, hrelg, -⟩ := hentry _ hmemg
      obtain ⟨edit, hedit, rfl⟩ := exists_edit_of_mem_byFile hmemf
      obtain ⟨edit', hedit', rfl⟩ := exists_edit_of_mem_byFile hmemg
      exact hnames edit hedit edit' hedit' (by rw [hrelf, hrelg, hsame])
    · rw [List.mem_map]
      constructor
      · intro hp
        have hplanned := (hwf.mem_order p).mp hp
        rcases (planned_ne_none_iff hstate p).mp hplanned with hnone | ⟨patch, hpatch, hrel⟩
        · exact absurd rfl hnone
        · obtain ⟨file, es, original, hmem, hread, hin⟩ := (mem_composePatches h).mp hpatch
          obtain ⟨original', hread', hcomposed, -⟩ := composed_of_obligations h hmem
          obtain rfl : original = original' := Option.some.inj (hread.symm.trans hread')
          refine ⟨(file, es), hmem, ?_⟩
          rw [(hcomposed.file_of_mem hin).1] at hrel
          simp only [pathOf, hrel]
      · rintro ⟨⟨file, es⟩, hmem, rfl⟩
        obtain ⟨original, hread, hrel, -⟩ := hentry _ hmem
        exact (planned_of_foldlM h hreads hnames hstate hmem hread hrel).2.2
  rw [plannedDelta_eq_filesDelta hwf, hpatched, List.map_nil, List.append_nil, filesDelta,
    ((horder.map _).map _).sum_eq, addedBytes, List.map_map, List.map_map]
  congr 1
  refine List.map_congr_left fun entry hmem => ?_
  obtain ⟨original, hread, hrel, hcandidate⟩ := hentry entry hmem
  obtain ⟨-, hcontents, hin⟩ := planned_of_foldlM h hreads hnames hstate hmem hread hrel
  obtain ⟨noted, hnoted, hreadNoted⟩ := hwf.original _ hin
  obtain rfl : encodeUtf8 original = noted := Except.ok.inj (hcandidate.symm.trans hreadNoted)
  obtain ⟨planned, hplanned⟩ := Option.ne_none_iff_exists'.mp ((hwf.mem_order _).mp hin)
  obtain rfl : planned = encodeUtf8 (editedText original entry.2) := by
    simpa [PlanState.contents, hplanned] using hcontents
  simp [patchedFile, hplanned, hnoted, hread, size_encodeUtf8]

end

/-! ## One stage -/

/-- Every named file has all its edits made at once; nothing else is written. -/
structure Stages (edits : List PlannedEdit) (readFile : String → Option Text) (plan : PatchPlan) : Prop where
  made : ∀ edit ∈ edits, ∀ path original, normalizeRelative edit.file = .ok path →
    readFile edit.file = some original →
    (writtenAt plan.files path).getD (encodeUtf8 original) =
      encodeUtf8 (editedText original (fileEdits edits edit.file))
  only : ∀ path, writtenAt plan.files path ≠ none → ∃ edit ∈ edits, normalizeRelative edit.file = .ok path

/-- When composed patches can be staged. -/
structure Stageable (limits : CandidateLimits) (edits : List PlannedEdit)
    (readFile : String → Option Text) : Prop where
  unique : ∀ edit ∈ keptEdits edits, ∀ original, readFile edit.file = some original →
    StaysUnique original [] (windows edit.file original (fileEdits (keptEdits edits) edit.file))
  files : saturatingAdd limits.currentFiles 0 ≤ limits.maxFiles
  bytes : (limits.currentBytes : ℤ) + addedBytes edits readFile ≤ limits.maxBytes
  nonneg : 0 ≤ (limits.currentBytes : ℤ) + addedBytes edits readFile
  rest : ∀ edit ∈ edits, ∀ original, readFile edit.file = some original →
    editedText original (fileEdits (keptEdits edits) edit.file) = editedText original (fileEdits edits edit.file)

section

variable {tree : Tree} {edits : List PlannedEdit} {readFile : String → Option Text}
  {limits : CandidateLimits} {plan : PatchPlan}

lemma mem_byFile_of_mem {edit : PlannedEdit} (h : edit ∈ edits) :
    (edit.file, fileEdits edits edit.file) ∈ (byFile edits).toList :=
  mem_byFile_iff.mpr ⟨rfl, fileEdits_ne_nil h⟩

lemma exists_edit_of_written (h : (composePatches edits readFile).2 = [])
    (hplan : planPatches tree (composePatches edits readFile).1 [] limits = .ok plan)
    {path : RelPath} (hwritten : writtenAt plan.files path ≠ none) :
    ∃ edit ∈ keptEdits edits, normalizeRelative edit.file = .ok path := by
  have hmem : path ∈ plan.files.map PlannedFile.relative := by
    by_contra hnot
    exact hwritten (writtenAt_eq_none_iff.mpr hnot)
  rcases (mem_targets_iff hplan path).mp hmem with ⟨patch, hpatch, hpath⟩ | hfile
  · obtain ⟨file, es, original, hmem, hread, hin⟩ := (mem_composePatches h).mp hpatch
    obtain ⟨original', hread', hcomposed, -⟩ := composed_of_obligations h hmem
    obtain rfl : original = original' := Option.some.inj (hread.symm.trans hread')
    rw [(hcomposed.file_of_mem hin).1] at hpath
    obtain ⟨edit, hedit, rfl⟩ := exists_edit_of_fileEdits (mem_byFile_iff.mp hmem).2
    exact ⟨edit, hedit, hpath⟩
  · obtain ⟨state, newPlanned, -, hnew, -, -, -, rfl⟩ := planPatches_eq_ok_iff.mp hplan
    obtain rfl : [] = newPlanned := by simpa [pure, Except.pure] using hnew
    simp at hfile

lemma written_of_planPatches (h : (composePatches edits readFile).2 = [])
    (hreads : ReadsCandidate tree readFile) (hnames : NamedOnce edits)
    (hplan : planPatches tree (composePatches edits readFile).1 [] limits = .ok plan)
    {edit : PlannedEdit} (hedit : edit ∈ edits) {path : RelPath} {original : Text}
    (hrel : normalizeRelative edit.file = .ok path) (hread : readFile edit.file = some original) :
    (writtenAt plan.files path).getD (encodeUtf8 original) =
      encodeUtf8 (editedText original (fileEdits (keptEdits edits) edit.file)) := by
  obtain ⟨state, newPlanned, hstate, hnew, -⟩ := planPatches_eq_ok_iff.mp hplan
  by_cases hnone : fileEdits (keptEdits edits) edit.file = []
  · -- No kept edit names the file, so no patch is at its path.
    have hwritten : writtenAt plan.files path = none := by
      by_contra hsome
      obtain ⟨other, hother, hpath⟩ := exists_edit_of_written h hplan hsome
      have hsame := hnames other (List.mem_of_mem_take hother) edit hedit (hpath.trans hrel.symm)
      exact fileEdits_ne_nil hother (hsame ▸ hnone)
    rw [hwritten, hnone, Option.getD_none]
    have hsame : editedText original [] = original := by
      rw [editedText]
      simpa [applyFrom] using dropBytes_append_left [] original
    rw [hsame]
  · have hmem : (edit.file, fileEdits (keptEdits edits) edit.file) ∈
        (byFile (keptEdits edits)).toList := mem_byFile_iff.mpr ⟨rfl, hnone⟩
    obtain ⟨-, hcontents, hin⟩ := planned_of_foldlM h hreads hnames hstate hmem hread hrel
    obtain ⟨original', hread', hcomposed, -⟩ := composed_of_obligations h hmem
    obtain rfl : original = original' := Option.some.inj (hread.symm.trans hread')
    have hat := patchesAt_composePatches h hnames hmem hread hrel
    obtain ⟨text, made, ranges, hcandidate, hmade, hwritten⟩ :=
      matchPatches_of_planPatches hplan (hat ▸ hcomposed.filePatches_ne_nil hnone)
    obtain ⟨path', hrel', hcandidate'⟩ := hreads _ _ hread
    obtain rfl : path = path' := Except.ok.inj (hrel.symm.trans hrel')
    obtain rfl : original = text :=
      encodeUtf8_injective (Except.ok.inj (hcandidate'.symm.trans hcandidate))
    rw [hat] at hmade
    rw [hwritten, Option.getD_some, hcomposed.matchPatches_iff.2 made ranges hmade]

lemma exists_plan_of_stageable (h : (composePatches edits readFile).2 = [])
    (hreads : ReadsCandidate tree readFile) (hnames : NamedOnce edits)
    (hstageable : Stageable limits edits readFile) :
    ∃ plan, planPatches tree (composePatches edits readFile).1 [] limits = .ok plan := by
  obtain ⟨state, hstate⟩ := @exists_foldlM_of_matchPatchesAt tree (composePatches edits readFile).1
    PlanState.empty (by
      intro patch hpatch
      obtain ⟨file, es, original, hmem, hread, hin⟩ := (mem_composePatches h).mp hpatch
      obtain ⟨original', hread', hcomposed, -⟩ := composed_of_obligations h hmem
      obtain rfl : original = original' := Option.some.inj (hread.symm.trans hread')
      obtain ⟨path, hrel, hcandidate⟩ := hreads file original hread
      obtain ⟨hfile, hold⟩ := hcomposed.file_of_mem hin
      obtain ⟨hes, hne⟩ := mem_byFile_iff.mp hmem
      obtain ⟨edit, hedit, rfl⟩ := exists_edit_of_fileEdits hne
      have hunique := hstageable.unique edit hedit original hread
      rw [← hes] at hunique
      obtain ⟨result, hresult⟩ := hcomposed.matchPatches_iff.1.mpr hunique
      refine ⟨path, original, result, hfile ▸ hrel, hold, hcandidate, ?_⟩
      rw [patchesAt_composePatches h hnames hmem hread hrel]
      exact hresult)
  have hdelta := plannedDelta_eq_addedBytes h hreads hnames hstate
  refine ⟨_, planPatches_eq_ok_iff.mpr ⟨state, [], hstate, rfl, hstageable.files, ?_, ?_, rfl⟩⟩
  · rw [hdelta]
    exact hstageable.bytes
  · rw [hdelta]
    exact hstageable.nonneg

end

/-- Patches composed without obligations are staged, with all edits at once, just when every window
stays unique while the edits before it are made, there is room, and the edits that are not kept do
not matter. -/
theorem composed_stageable_iff (tree : Tree) (limits : CandidateLimits) (edits : List PlannedEdit)
    (readFile : String → Option Text) (hreads : ReadsCandidate tree readFile)
    (hnames : NamedOnce edits) (hnone : (composePatches edits readFile).2 = []) :
    (∀ edit ∈ keptEdits edits, ∀ original, readFile edit.file = some original → ∀ more,
      let clusters := (admitEdits edit.file original
        ((fileEdits (keptEdits edits) edit.file).insertionSort PlannedEdit.before)).clusters
      growWindows original (roundsFor clusters + more) clusters =
        growWindows original (roundsFor clusters) clusters) ∧
    ((∃ plan, planPatches tree (composePatches edits readFile).1 [] limits = .ok plan ∧
      Stages edits readFile plan) ↔ Stageable limits edits readFile) := by
  refine ⟨fun edit hedit original hread more => ?_, ?_, fun hstageable => ?_⟩
  · obtain ⟨original', hread', hcomposed, -⟩ :=
      composed_of_obligations hnone (mem_byFile_of_mem hedit)
    obtain rfl : original = original' := Option.some.inj (hread.symm.trans hread')
    obtain ⟨-, -, -, opened, hopened, hopens⟩ := admitted_of_obligations hcomposed.admitted
    refine growWindows_add (fun c hc => ?_) (by unfold roundsFor; omega) more
    rw [admitEdits, hopened, List.nil_append] at hc
    obtain ⟨e, he⟩ := exists_opens hopens c hc
    exact he.framed
  · rintro ⟨plan, hplan, hstages⟩
    obtain ⟨state, newPlanned, hstate, hnew, hfiles, hbytes, hnonneg, -⟩ :=
      planPatches_eq_ok_iff.mp hplan
    obtain rfl : [] = newPlanned := by simpa [pure, Except.pure] using hnew
    rw [plannedDelta_eq_addedBytes hnone hreads hnames hstate] at hbytes hnonneg
    refine ⟨fun edit hedit original hread => ?_, hfiles, hbytes, hnonneg,
      fun edit hedit original hread => ?_⟩
    · obtain ⟨path, hrel, -⟩ := hreads _ _ hread
      exact (planned_of_foldlM hnone hreads hnames hstate (mem_byFile_of_mem hedit) hread hrel).1
    · obtain ⟨path, hrel, -⟩ := hreads _ _ hread
      have hmade := hstages.made edit hedit path original hrel hread
      rw [written_of_planPatches hnone hreads hnames hplan hedit hrel hread] at hmade
      exact encodeUtf8_injective hmade
  · obtain ⟨plan, hplan⟩ := exists_plan_of_stageable hnone hreads hnames hstageable
    refine ⟨plan, hplan, fun edit hedit path original hrel hread => ?_, fun path hwritten => ?_⟩
    · rw [written_of_planPatches hnone hreads hnames hplan hedit hrel hread,
        hstageable.rest edit hedit original hread]
    · obtain ⟨edit, hedit, hpath⟩ := exists_edit_of_written hnone hplan hwritten
      exact ⟨edit, List.mem_of_mem_take hedit, hpath⟩

/-- A candidate with one file of three lines. -/
def threeLineTree : Tree :=
  (∅ : Tree).insert [.unicode "lib.rs"] (.file (encodeUtf8 "a\nx\nb\n".toList))

def readThreeLines (file : String) : Option Text :=
  if file = "lib.rs" then some "a\nx\nb\n".toList else none

def threeLineLimits : CandidateLimits := ⟨1, 6, 10, 100⟩

def outerEdits (first last : String) : List PlannedEdit :=
  [⟨"lib.rs", 0, 1, first.toList, "definition", 1⟩, ⟨"lib.rs", 4, 5, last.toList, "consumer", 3⟩]

lemma readsCandidate_threeLines : ReadsCandidate threeLineTree readThreeLines := by
  intro file original hread
  unfold readThreeLines at hread
  split_ifs at hread with hfile
  obtain rfl := Option.some.inj hread
  subst hfile
  exact ⟨[.unicode "lib.rs"], by decide +kernel, by decide +kernel⟩

lemma namedOnce_outerEdits (first last : String) : NamedOnce (outerEdits first last) := by
  have hfile : ∀ edit ∈ outerEdits first last, edit.file = "lib.rs" := by simp [outerEdits]
  intro edit hedit other hother _
  rw [hfile edit hedit, hfile other hother]

/-- Edits that leave the last line the only one of its kind are staged. -/
theorem composed_stageable_outer_lines :
    ∃ plan, planPatches threeLineTree (composePatches (outerEdits "c" "d") readThreeLines).1 []
      threeLineLimits = .ok plan ∧ Stages (outerEdits "c" "d") readThreeLines plan := by
  have hwindows : windows "lib.rs" "a\nx\nb\n".toList (outerEdits "c" "d") =
      [⟨0, 4, [⟨"lib.rs", 0, 1, "c".toList, "definition", 1⟩]⟩,
        ⟨4, 6, [⟨"lib.rs", 4, 5, "d".toList, "consumer", 3⟩]⟩] := by decide +kernel
  have hedits : fileEdits (keptEdits (outerEdits "c" "d")) "lib.rs" = outerEdits "c" "d" := by
    decide +kernel
  have hfile : ∀ edit ∈ keptEdits (outerEdits "c" "d"), edit.file = "lib.rs" := by
    simp [keptEdits, outerEdits, maxMigrationEdits]
  refine (composed_stageable_iff threeLineTree threeLineLimits (outerEdits "c" "d") readThreeLines
    readsCandidate_threeLines (namedOnce_outerEdits "c" "d") (by decide +kernel)).2.mpr
    ⟨?_, by decide, by decide +kernel, by decide +kernel, fun _ _ _ _ => by congr 1⟩
  intro edit hedit original hread
  rw [hfile edit hedit] at hread ⊢
  obtain rfl : "a\nx\nb\n".toList = original := Option.some.inj hread
  rw [hedits, hwindows]
  refine staysUnique_cons.mpr ⟨⟨"a\nx\n".toList, 0, by decide +kernel, ?_⟩,
    staysUnique_cons.mpr ⟨⟨"b\n".toList, 4, by decide +kernel, ?_⟩, ?_⟩⟩
  · exact occursOnceAt_iff.mpr (by decide +kernel)
  · exact occursOnceAt_iff.mpr (by decide +kernel)
  · intro before c behind hsplit
    simp at hsplit

/-- The first edit copies the second window, so the patches are refused. -/
theorem compose_patches_repeats_window :
    (composePatches (outerEdits "b" "c") readThreeLines).2 = [] ∧
    planPatches threeLineTree (composePatches (outerEdits "b" "c") readThreeLines).1 []
      threeLineLimits = .error "oldString occurs more than once in the candidate file: lib.rs" ∧
    ¬ ∀ (tree : Tree) (limits : CandidateLimits) (edits : List PlannedEdit)
      (readFile : String → Option Text), ReadsCandidate tree readFile → NamedOnce edits →
      edits.length ≤ maxMigrationEdits → saturatingAdd limits.currentFiles 0 ≤ limits.maxFiles →
      (limits.currentBytes : ℤ) + addedBytes edits readFile ≤ limits.maxBytes →
      0 ≤ (limits.currentBytes : ℤ) + addedBytes edits readFile →
      (composePatches edits readFile).2 = [] →
      ∃ plan, planPatches tree (composePatches edits readFile).1 [] limits = .ok plan ∧
        Stages edits readFile plan := by
  have hnone : (composePatches (outerEdits "b" "c") readThreeLines).2 = [] := by decide +kernel
  have hrefused : planPatches threeLineTree (composePatches (outerEdits "b" "c") readThreeLines).1 []
      threeLineLimits = .error "oldString occurs more than once in the candidate file: lib.rs" := by
    decide +kernel
  refine ⟨hnone, hrefused, fun h => ?_⟩
  obtain ⟨plan, hplan, -⟩ := h threeLineTree threeLineLimits (outerEdits "b" "c") readThreeLines
    readsCandidate_threeLines (namedOnce_outerEdits "b" "c") (by decide) (by decide)
    (by decide +kernel) (by decide +kernel) hnone
  rw [hrefused] at hplan
  cases hplan

end AgzRustMcp.Compose
