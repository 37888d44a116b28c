import AgzRustMcp.Change.Replay

/-!
# A plan replaces simultaneously

Every patch that the patch loop accepts replaces an occurrence of the original text, and no two of
these meet.  So the planned content is the original one with all of them replaced at once
(`planned_simultaneously`), in whatever order the patches come (`planned_in_any_order`).
-/

namespace AgzRustMcp

open String (utf8Len)
open Utf8Text Checked Splice

/-! ## The loop as one text sees it -/

def patchesAt (path : RelPath) (patches : List PatchInput) : List PatchInput :=
  patches.filter fun patch => decide (normalizeRelative patch.file = .ok path)

variable {path : RelPath} {tree : Tree} {patches : List PatchInput}

lemma patchesAt_cons_of_eq {patch : PatchInput}
    (h : normalizeRelative patch.file = .ok path) (patches : List PatchInput) :
    patchesAt path (patch :: patches) = patch :: patchesAt path patches := by
  unfold patchesAt
  rw [List.filter_cons, if_pos (by simpa using h)]

lemma patchesAt_cons_of_ne {relative : RelPath} {patch : PatchInput}
    (h : normalizeRelative patch.file = .ok relative) (hne : path ≠ relative)
    (patches : List PatchInput) : patchesAt path (patch :: patches) = patchesAt path patches := by
  unfold patchesAt
  rw [List.filter_cons, if_neg]
  rw [h, decide_eq_true_iff]
  exact fun heq => hne (Except.ok.inj heq).symm

/-- The turns of the patch loop that concern one text. -/
def matchPatches (state : Text × List (ℕ × ℕ)) (patches : List PatchInput) : Except String (Text × List (ℕ × ℕ)) :=
  patches.foldlM (fun state patch => matchPatch patch.file state.1 state.2
    patch.oldString.toList patch.newString.toList) state

lemma matchPatches_of_foldlM {state state' : PlanState} (h : patches.foldlM (planPatch tree) state = .ok state')
    {text : Text} (htext : state.contents tree path = .ok (encodeUtf8 text)) :
    ∃ text' ranges', matchPatches (text, (state.ranges.lookup path).getD [])
        (patchesAt path patches) = .ok (text', ranges') ∧ state'.contents tree path = .ok (encodeUtf8 text') := by
  induction patches generalizing state text with
  | nil =>
    obtain rfl : state = state' := by simpa [pure, Except.pure] using h
    exact ⟨text, _, rfl, htext⟩
  | cons patch patches ih =>
    rw [List.foldlM_cons, bind_eq_ok_iff] at h
    obtain ⟨mid, hstep, hrest⟩ := h
    obtain ⟨relative, text₀, updated, ranges, hrel, -, hcontents, hmatch, rfl⟩ :=
      planPatch_eq_ok_iff.mp hstep
    by_cases hpath : path = relative
    · subst hpath
      obtain rfl : text₀ = text := by
        rw [hcontents] at htext
        exact encodeUtf8_injective (Except.ok.inj htext)
      have hmid : ((state.note path (encodeUtf8 text₀)).record path patch updated
          ranges).contents tree path = .ok (encodeUtf8 updated) := by
        rw [PlanState.contents_record, if_pos rfl]
      obtain ⟨text', ranges', hmatches, hfinal⟩ := ih hrest hmid
      refine ⟨text', ranges', ?_, hfinal⟩
      have hranges : (((state.note path (encodeUtf8 text₀)).record path patch updated
          ranges).ranges.lookup path).getD [] = ranges := by
        simp [PlanState.record, Finmap.lookup_insert]
      rw [hranges] at hmatches
      unfold matchPatches
      rw [patchesAt_cons_of_eq hrel, List.foldlM_cons, bind_eq_ok_iff]
      exact ⟨(updated, ranges), hmatch, hmatches⟩
    · have hmid : ((state.note relative (encodeUtf8 text₀)).record relative patch updated
          ranges).contents tree path = .ok (encodeUtf8 text) := by
        rw [PlanState.contents_record, if_neg hpath, htext]
      obtain ⟨text', ranges', hmatches, hfinal⟩ := ih hrest hmid
      refine ⟨text', ranges', ?_, hfinal⟩
      have hranges : ((state.note relative (encodeUtf8 text₀)).record relative patch updated
          ranges).ranges.lookup path = state.ranges.lookup path := by
        simp [PlanState.record, Finmap.lookup_insert_of_ne _ hpath]
      rw [patchesAt_cons_of_ne hrel hpath]
      rw [hranges] at hmatches
      exact hmatches

lemma exists_text_of_foldlM {state state' : PlanState} (h : patches.foldlM (planPatch tree) state = .ok state')
    (hne : patchesAt path patches ≠ []) : ∃ text, state.contents tree path = .ok (encodeUtf8 text) := by
  induction patches generalizing state with
  | nil => exact absurd rfl hne
  | cons patch patches ih =>
    rw [List.foldlM_cons, bind_eq_ok_iff] at h
    obtain ⟨mid, hstep, hrest⟩ := h
    obtain ⟨relative, text, updated, ranges, hrel, -, hcontents, -, rfl⟩ :=
      planPatch_eq_ok_iff.mp hstep
    by_cases hpath : path = relative
    · subst hpath
      exact ⟨text, hcontents⟩
    · rw [patchesAt_cons_of_ne hrel hpath] at hne
      obtain ⟨text₁, htext₁⟩ := ih hrest hne
      rw [PlanState.contents_record, if_neg hpath] at htext₁
      exact ⟨text₁, htext₁⟩

lemma matchPatches_of_planPatches {newFiles : List NewFileInput} {limits : CandidateLimits} {plan : PatchPlan}
    (h : planPatches tree patches newFiles limits = .ok plan) (hne : patchesAt path patches ≠ []) :
    ∃ text text' ranges', readCandidateFile tree path = .ok (encodeUtf8 text) ∧
      matchPatches (text, []) (patchesAt path patches) = .ok (text', ranges') ∧
      writtenAt plan.files path = some (encodeUtf8 text') := by
  have hspec := planPatches_spec h
  obtain ⟨state, newPlanned, hpatches, hnew, -, -, -, rfl⟩ := planPatches_eq_ok_iff.mp h
  have hwf := PlanState.wellFormed_of_foldlM hpatches
  obtain ⟨text, htext⟩ := exists_text_of_foldlM hpatches hne
  obtain ⟨text', ranges', hmatches, hfinal⟩ := matchPatches_of_foldlM hpatches htext
  refine ⟨text, text', ranges', htext, hmatches, ?_⟩
  obtain ⟨patch, hpatch⟩ := List.exists_mem_of_ne_nil _ hne
  obtain ⟨hmem, hrel⟩ := List.mem_filter.mp hpatch
  have hplanned : state.planned.lookup path ≠ none :=
    (planned_ne_none_iff hpatches path).mpr (Or.inr ⟨patch, hmem, by simpa using hrel⟩)
  obtain ⟨contents, hcontents⟩ := Option.ne_none_iff_exists'.mp hplanned
  obtain rfl : contents = encodeUtf8 text' := by
    simpa [PlanState.contents, hcontents] using hfinal
  have hfile : patchedFile state.original state.planned path ∈
      patchedFiles state.original state.planned state.order ++ newPlanned.map PlannedNewFile.toPlanned := by
    rw [patchedFiles_eq_map state.original hwf.nodup fun p hp => (hwf.mem_order p).mp hp]
    exact List.mem_append_left _ (List.mem_map_of_mem ((hwf.mem_order path).mpr hplanned))
  have hwritten := writtenAt_of_mem hspec.nodup hfile
  rw [show (patchedFile state.original state.planned path).relative = path from rfl] at hwritten
  rw [hwritten]
  simp [patchedFile, hcontents]

section Scripts

variable {text text' : Text} {ranges ranges' : List (ℕ × ℕ)} {script : Script} {patches : List PatchInput}

lemma Tracks.exists_script (htrack : Tracks ranges script) (hproper : script.Proper)
    (hold : ∀ patch ∈ patches, patch.oldString ≠ "")
    (h : matchPatches (script.after, ranges) patches = .ok (text', ranges')) :
    ∃ (script' : Script) (edits : List Edit), script'.before = script.before ∧ script'.after = text' ∧ script'.Proper ∧
      List.Forall₂ (fun patch edit => Edit.Replaces script.before patch.oldString.toList
        patch.newString.toList edit) patches edits ∧ (script'.edits 0).Perm (edits ++ script.edits 0) := by
  induction patches generalizing script ranges with
  | nil =>
    obtain ⟨rfl, rfl⟩ : script.after = text' ∧ ranges = ranges' := by
      simpa [matchPatches, pure, Except.pure] using h
    exact ⟨script, [], rfl, rfl, hproper, .nil, .rfl⟩
  | cons patch patches ih =>
    unfold matchPatches at h
    rw [List.foldlM_cons, bind_eq_ok_iff] at h
    obtain ⟨⟨updated, ranges₁⟩, hmatch, hrest⟩ := h
    have hne : patch.oldString.toList ≠ [] := by
      simpa using hold patch List.mem_cons_self
    obtain ⟨i, script₁, -, hedits, rfl, htrack₁⟩ := htrack.exists_edits hne hmatch
    obtain ⟨script', edits, hbefore, hafter, hproper', hreplaces, hperm⟩ :=
      ih htrack₁ (hedits.proper hne hproper) (fun p hp => hold p (List.mem_cons_of_mem _ hp)) hrest
    obtain ⟨pre, suf, left, right, hpre, hleft, hnew⟩ := hedits.edits_eq 0
    rw [hedits.before_eq] at hbefore hreplaces
    refine ⟨script', ⟨0 + utf8Len pre, 0 + utf8Len pre + utf8Len patch.oldString.toList,
      patch.newString.toList⟩ :: edits, hbefore, hafter, hproper', .cons ?_ hreplaces, ?_⟩
    · exact ⟨⟨pre, suf, hpre, by simp⟩, rfl, rfl⟩
    · refine hperm.trans ?_
      rw [hnew, hleft, List.cons_append]
      exact (List.perm_append_left_iff edits).mpr List.perm_middle |>.trans List.perm_middle

lemma Tracks.script_of_bound (htrack : Tracks ranges script) (hproper : script.Proper)
    (hold : ∀ patch ∈ patches, patch.oldString ≠ "")
    (h : matchPatches (script.after, ranges) patches = .ok (text', ranges'))
    (bound : List (PatchInput × Edit)) (hbound : (bound.map Prod.fst).Perm patches)
    (hreplaces : ∀ b ∈ bound, Edit.Replaces script.before b.1.oldString.toList
      b.1.newString.toList b.2) (hapart : (bound.map Prod.snd).Pairwise fun e e' => ¬ e.Meets e')
    (hscript : ∀ b ∈ bound, ∀ e ∈ script.edits 0, ¬ b.2.Meets e) :
    ∃ script' : Script, script'.before = script.before ∧ script'.after = text' ∧ script'.Proper ∧
      (script'.edits 0).Perm (bound.map Prod.snd ++ script.edits 0) := by
  induction patches generalizing script ranges bound with
  | nil =>
    obtain ⟨rfl, rfl⟩ : script.after = text' ∧ ranges = ranges' := by
      simpa [matchPatches, pure, Except.pure] using h
    obtain rfl : bound = [] := by simpa using hbound
    exact ⟨script, rfl, rfl, hproper, .rfl⟩
  | cons patch patches ih =>
    unfold matchPatches at h
    rw [List.foldlM_cons, bind_eq_ok_iff] at h
    obtain ⟨⟨updated, ranges₁⟩, hmatch, hrest⟩ := h
    have hne : patch.oldString.toList ≠ [] := by
      simpa using hold patch List.mem_cons_self
    obtain ⟨i, script₁, honce, hedits, rfl, htrack₁⟩ := htrack.exists_edits hne hmatch
    -- The edit that the other order has bound the patch to.
    obtain ⟨⟨patch', edit⟩, hmem, rfl⟩ := List.mem_map.mp (hbound.mem_iff.mpr List.mem_cons_self)
    have hrest_perm : bound.Perm ((patch', edit) :: bound.erase (patch', edit)) :=
      List.perm_cons_erase hmem
    generalize bound.erase (patch', edit) = others at hrest_perm
    obtain ⟨⟨pre, suf, hpre, hstart⟩, hstop, hnew⟩ := hreplaces _ hmem
    obtain ⟨j, script₂, hedits₂, hperm₂⟩ :=
      Script.exists_edits_of_before patch'.newString.toList 0 hpre (by
        intro e he hmeets
        obtain ⟨hlt, hlt'⟩ := hmeets
        dsimp only at hstart hstop hlt hlt'
        refine hscript _ hmem e he ⟨?_, ?_⟩
        · dsimp only
          omega
        · dsimp only
          omega)
    -- It is the one that this order finds, since the old string occurs once.
    obtain rfl : j = i := by
      obtain ⟨pre', suf', hafter, hlen, -⟩ := hedits₂.after_eq
      exact (honce j).mp ⟨pre', suf', hafter, hlen⟩
    obtain rfl := hedits.unique hne hedits₂
    have hedit : (⟨0 + utf8Len pre, 0 + utf8Len pre + utf8Len patch'.oldString.toList,
        patch'.newString.toList⟩ : Edit) = edit := by
      cases edit
      simp_all
    rw [hedit] at hperm₂
    have hothers : (others.map Prod.fst).Perm patches :=
      (List.perm_cons _).mp ((hrest_perm.map Prod.fst).symm.trans hbound)
    have hmemOf : ∀ b ∈ others, b ∈ bound :=
      fun b hb => hrest_perm.mem_iff.mpr (List.mem_cons_of_mem _ hb)
    have hsymm : ∀ {e e' : Edit}, ¬ e.Meets e' → ¬ e'.Meets e := by
      rintro e e' hnot ⟨hlt, hlt'⟩
      exact hnot ⟨hlt', hlt⟩
    have hapart' := ((hrest_perm.map Prod.snd).pairwise_iff hsymm).mp hapart
    rw [List.map_cons, List.pairwise_cons] at hapart'
    obtain ⟨script', hbefore, hafter, hproper', hperm⟩ :=
      ih htrack₁ (hedits.proper hne hproper) (fun p hp => hold p (List.mem_cons_of_mem _ hp)) hrest
        others hothers (by
          intro b hb
          rw [hedits.before_eq]
          exact hreplaces b (hmemOf b hb)) hapart'.2 (by
          intro b hb e he
          rcases List.mem_cons.mp (hperm₂.mem_iff.mp he) with rfl | he
          · exact hsymm (hapart'.1 b.2 (List.mem_map_of_mem hb))
          · exact hscript b (hmemOf b hb) e he)
    refine ⟨script', hbefore.trans hedits.before_eq, hafter, hproper', hperm.trans ?_⟩
    refine (hperm₂.append_left _).trans ?_
    refine List.perm_middle.trans ?_
    exact ((hrest_perm.map Prod.snd).append_right _).symm

end Scripts

/-! ## What a plan does to a file -/

section Plans

variable {tree : Tree} {patches patches' : List PatchInput} {newFiles newFiles' : List NewFileInput}
  {limits limits' : CandidateLimits} {plan plan' : PatchPlan} {path : RelPath}

lemma oldString_ne_of_planPatches (h : planPatches tree patches newFiles limits = .ok plan) :
    ∀ patch ∈ patchesAt path patches, patch.oldString ≠ "" := by
  intro patch hpatch
  obtain ⟨state, -, hpatches, -⟩ := planPatches_eq_ok_iff.mp h
  obtain ⟨_, _, hturn⟩ := exists_turn_of_mem hpatches (List.mem_of_mem_filter hpatch)
  obtain ⟨_, _, _, _, -, hold, -⟩ := planPatch_eq_ok_iff.mp hturn
  exact hold

lemma tracks_last (text : Text) : Tracks [] (.last text) := .nil

/-- The planned content of a file has one occurrence of each old string replaced at once. -/
theorem planned_simultaneously (h : planPatches tree patches newFiles limits = .ok plan)
    (hne : patchesAt path patches ≠ []) :
    ∃ (text : Text) (edits sorted : List Edit), readCandidateFile tree path = .ok (encodeUtf8 text) ∧
      List.Forall₂ (fun patch edit => Edit.Replaces text patch.oldString.toList
        patch.newString.toList edit) (patchesAt path patches) edits ∧
      sorted.Perm edits ∧
      sorted.Pairwise (fun edit later => edit.stop ≤ later.start) ∧
      (∀ edit ∈ sorted, edit.start < edit.stop) ∧
      writtenAt plan.files path = some (encodeUtf8 (applyFrom text 0 sorted)) := by
  obtain ⟨text, text', ranges', hread, hmatches, hwritten⟩ := matchPatches_of_planPatches h hne
  obtain ⟨script, edits, hbefore, hafter, hproper, hreplaces, hperm⟩ :=
    (tracks_last text).exists_script trivial (oldString_ne_of_planPatches h) hmatches
  refine ⟨text, edits, script.edits 0, hread, hreplaces, ?_, (script.pairwise_edits 0).1,
    fun _ hedit => hproper.start_lt_stop hedit, ?_⟩
  · simpa [Script.edits] using hperm
  · have happly := applyFrom_edits script []
    simp only [List.nil_append, String.utf8Len_nil] at happly
    rw [hwritten, ← hafter, ← happly, hbefore]
    rfl

/-- A candidate with one file. -/
def countingTree : Tree :=
  (∅ : Tree).insert [.unicode "lib.rs"] (.file (encodeUtf8 "one two".toList))

def countingPatches : List PatchInput := [⟨"lib.rs", "one", "1"⟩, ⟨"./lib.rs", "two", "second"⟩]

def countingLimits : CandidateLimits := ⟨1, 7, 10, 100⟩

/-- What the two patches make of the file. -/
def countingPlan (patches : List PatchInput) : PatchPlan :=
  ⟨[⟨[.unicode "lib.rs"], encodeUtf8 "1 second".toList, true, 7⟩], patches, []⟩

theorem planned_simultaneously_two_patches :
    ∃ (text : Text) (sorted : List Edit), readCandidateFile countingTree [.unicode "lib.rs"] = .ok (encodeUtf8 text) ∧
      sorted.length = 2 ∧
      writtenAt (countingPlan countingPatches).files [.unicode "lib.rs"] =
        some (encodeUtf8 (applyFrom text 0 sorted)) := by
  have hplan : planPatches countingTree countingPatches [] countingLimits =
      .ok (countingPlan countingPatches) := by decide +kernel
  have hboth : patchesAt [.unicode "lib.rs"] countingPatches = countingPatches := by
    decide +kernel
  obtain ⟨text, edits, sorted, hread, hreplaces, hperm, -, -, hwritten⟩ :=
    planned_simultaneously hplan (by rw [hboth]; decide :
      patchesAt [.unicode "lib.rs"] countingPatches ≠ [])
  refine ⟨text, sorted, hread, ?_, hwritten⟩
  rw [hperm.length_eq, ← hreplaces.length_eq, hboth]
  rfl

/-- Two accepted orders of the same patches write the same content. -/
theorem planned_in_any_order (hperm : patches.Perm patches')
    (h : planPatches tree patches newFiles limits = .ok plan)
    (h' : planPatches tree patches' newFiles' limits' = .ok plan')
    (hne : patchesAt path patches ≠ []) :
    writtenAt plan.files path = writtenAt plan'.files path := by
  have hpatches : (patchesAt path patches).Perm (patchesAt path patches') := hperm.filter _
  have hne' : patchesAt path patches' ≠ [] := by
    intro hnil
    rw [hnil] at hpatches
    exact hne hpatches.eq_nil
  obtain ⟨text, after, ranges, hread, hmatches, hwritten⟩ := matchPatches_of_planPatches h hne
  obtain ⟨text', after', ranges', hread', hmatches', hwritten'⟩ :=
    matchPatches_of_planPatches h' hne'
  obtain rfl : text = text' := encodeUtf8_injective (Except.ok.inj (hread.symm.trans hread'))
  obtain ⟨script', edits, hbefore', hafter', hproper', hreplaces, hedits⟩ :=
    (tracks_last text).exists_script trivial (oldString_ne_of_planPatches h') hmatches'
  rw [show Script.edits 0 (.last text) = [] from rfl, List.append_nil] at hedits
  -- The edits of the second order, bound to their patches.
  have hlength := hreplaces.length_eq
  have hfst : ((patchesAt path patches').zip edits).map Prod.fst = patchesAt path patches' :=
    List.map_fst_zip hlength.le
  have hsnd : ((patchesAt path patches').zip edits).map Prod.snd = edits :=
    List.map_snd_zip hlength.ge
  have hapart : edits.Pairwise fun e e' => ¬ e.Meets e' := by
    refine (hedits.pairwise_iff ?_).mp ((script'.pairwise_edits 0).1.imp ?_)
    · rintro e e' hnot ⟨hlt, hlt'⟩
      exact hnot ⟨hlt', hlt⟩
    · rintro e e' hle ⟨-, hlt⟩
      omega
  obtain ⟨script, hbefore, hafter, hproper, hbound⟩ :=
    (tracks_last text).script_of_bound trivial (oldString_ne_of_planPatches h) hmatches
      ((patchesAt path patches').zip edits) (by rw [hfst]; exact hpatches.symm)
      (fun b hb => (List.forall₂_zip hreplaces hb)) (by rw [hsnd]; exact hapart)
      (fun b _ e he => by cases he)
  rw [hsnd, show Script.edits 0 (.last text) = [] from rfl, List.append_nil] at hbound
  have hsame := Script.after_eq_of_perm hproper hproper' (hbefore.trans hbefore'.symm)
    (hbound.trans hedits.symm)
  rw [hwritten, hwritten', ← hafter, ← hafter', hsame]

theorem planned_in_any_order_two_patches :
    writtenAt (countingPlan countingPatches).files [.unicode "lib.rs"] =
      writtenAt (countingPlan countingPatches.reverse).files [.unicode "lib.rs"] := by
  have hplan : planPatches countingTree countingPatches [] countingLimits =
      .ok (countingPlan countingPatches) := by decide +kernel
  have hplan' : planPatches countingTree countingPatches.reverse [] countingLimits =
      .ok (countingPlan countingPatches.reverse) := by decide +kernel
  exact planned_in_any_order (List.reverse_perm countingPatches).symm hplan hplan'
    (by decide +kernel)

end Plans

end AgzRustMcp
