import AgzRustMcp.Foundation.Edits
import AgzRustMcp.Diagnostics.Contexts
import AgzRustMcp.Change.Simultaneous

/-!
# Which packages can be staged

The packager goes from the last edit of a file to the first; `plan_patches` takes the patches one
after another and refuses one that touches a byte written before.  So a package is accepted just
when each context occurs once and they lie one behind another (`packaged_stageable_iff`).
-/

namespace AgzRustMcp

open String (utf8Len)
open Utf8Text Checked Splice

/-! ## Packages -/

/-- The edit as a replacement of a byte range. -/
def ResolvedEdit.toEdit (edit : ResolvedEdit) : Edit := ⟨edit.start, edit.stop, edit.replacement⟩

def packagedPatches (file : String) (content : Text) (edits : List ResolvedEdit) : List PatchInput :=
  (sortedTurns content edits).1.map fun turn => turn.patch file

/-- The edits for which a patch is built, from the first to the last. -/
def packagedEdits (content : Text) (edits : List ResolvedEdit) : List Edit :=
  ((sortedTurns content edits).1.map fun turn => turn.edit.toEdit).reverse

/-- Each context ends where the one before it starts, or earlier. -/
def ContextsApart (turns : List PatchTurn) : Prop :=
  turns.Pairwise fun turn next => next.start + utf8Len next.old ≤ turn.start

def afterTurns (content : Text) : List PatchTurn → Text
  | [] => content
  | turn :: turns => afterTurns turn.next turns

/-- The edits do not overlap, and go from the last to the first. -/
structure Descending (edits : List ResolvedEdit) : Prop where
  stop_le : edits.Pairwise fun left right => right.stop ≤ left.start
  start_lt : edits.Pairwise fun left right => right.start < left.start

section

variable {edit : ResolvedEdit} {edits : List ResolvedEdit} {content : Text}

lemma Descending.tail (h : Descending (edit :: edits)) : Descending edits :=
  ⟨(List.pairwise_cons.mp h.stop_le).2, (List.pairwise_cons.mp h.start_lt).2⟩

lemma ResolvedEdit.start_ne_of_not_overlaps {left right : ResolvedEdit}
    (hfile : left.file = right.file) (hleft : left.start ≤ left.stop)
    (hright : right.start ≤ right.stop) (h : left.overlaps right = false) : left.start ≠ right.start := by
  unfold ResolvedEdit.overlaps at h
  rw [if_neg (not_not.mpr hfile)] at h
  split_ifs at h with hempty hempty' <;>
    simp only [Bool.and_eq_false_iff, decide_eq_false_iff_not] at h <;> omega

lemma descending_sorted {path : String} (hfile : ∀ e ∈ edits, e.file = path) (hle : ∀ e ∈ edits, e.start ≤ e.stop)
    (hapart : edits.Pairwise fun left right => left.overlaps right = false) : Descending (sortedEdits edits) := by
  have hstop := pairwise_sorted hfile hle hapart
  have hne : (sortedEdits edits).Pairwise fun left right =>
      left.start ≠ right.start := by
    refine ((sortedEdits_perm edits).pairwise_iff fun {a b} h => Ne.symm h).mpr ?_
    exact hapart.imp_of_mem fun hl hr h => ResolvedEdit.start_ne_of_not_overlaps
      ((hfile _ hl).trans (hfile _ hr).symm) (hle _ hl) (hle _ hr) h
  refine ⟨hstop, (hstop.and hne).imp_of_mem ?_⟩
  rintro left right - hr ⟨hle', hne'⟩
  have := hle right ((sortedEdits_perm edits).mem_iff.mp hr)
  omega

/-! ## The patches against the text -/

lemma matchPatch_turn_iff {turn : PatchTurn} {file : String} {ranges ranges' : List (ℕ × ℕ)}
    {text : Text} (h : patchTurn content edit = some turn) :
    matchPatch file content ranges turn.old turn.new = .ok (text, ranges') ↔ turn.Separate ∧
      (∀ r ∈ ranges, ¬ (r.1 < turn.start + utf8Len turn.old ∧ turn.start < r.2)) ∧ text = turn.next ∧
      ranges' = ranges.map (shiftRange (turn.start + utf8Len turn.old)
        ((utf8Len turn.new : ℤ) - (utf8Len turn.old : ℤ))) ++ [(turn.start, turn.start + utf8Len turn.new)] := by
  have hcontent := (content_edit_of_patchTurn h).1
  obtain ⟨-, -, -, -, -, -, -, -, -, hne, hcount⟩ := patchTurn_spec h
  have honce := occursOnceAt_iff_of_matchCount hne hcount (hcontent ▸ occursAt_of_patchTurn h)
  have hseparate : turn.Separate ↔ OccursOnceAt content turn.old turn.start := by
    rw [honce, PatchTurn.Separate, hcontent]
  have hnext : ∀ pre suf, content = pre ++ turn.old ++ suf → utf8Len pre = turn.start →
      turn.next = pre ++ turn.new ++ suf := by
    intro pre suf hsplit hstart
    unfold PatchTurn.next
    rw [hcontent, hsplit, ← hstart, replaceRange_append]
  rw [matchPatch_eq_ok_iff, hseparate]
  constructor
  · rintro ⟨pre, suf, hsplit, hat, hranges, rfl, rfl⟩
    have hstart : utf8Len pre = turn.start :=
      ((hat _).mp (hcontent ▸ occursAt_of_patchTurn h)).symm
    rw [hstart] at hat hranges ⊢
    exact ⟨hat, hranges, (hnext pre suf hsplit hstart).symm, rfl⟩
  · rintro ⟨hat, hranges, rfl, rfl⟩
    obtain ⟨pre, suf, hsplit, hstart⟩ := (hat _).mpr rfl
    rw [← hstart] at hat hranges ⊢
    exact ⟨pre, suf, hsplit, hat, hranges, hnext pre suf hsplit hstart, rfl⟩

/-- No range starts before the last context, which reaches behind the starts to come. -/
structure RangesBehind (ranges : List (ℕ × ℕ)) (bound : ℕ) (edits : List ResolvedEdit) : Prop where
  le : ∀ r ∈ ranges, bound ≤ r.1
  last : ranges ≠ [] → ∃ r ∈ ranges, r.1 = bound ∧ ∀ e ∈ edits, e.start < r.2

lemma RangesBehind.turn {turn : PatchTurn} {ranges : List (ℕ × ℕ)} {bound : ℕ}
    (hranges : RangesBehind ranges bound (edit :: edits)) (h : patchTurn content edit = some turn)
    (hlt : ∀ e ∈ edits, e.start < edit.start) (hbound : turn.start + utf8Len turn.old ≤ bound) :
    RangesBehind (ranges.map (shiftRange (turn.start + utf8Len turn.old)
      ((utf8Len turn.new : ℤ) - (utf8Len turn.old : ℤ))) ++
        [(turn.start, turn.start + utf8Len turn.new)]) turn.start edits := by
  constructor
  · intro r hr
    rcases List.mem_append.mp hr with hr | hr
    · obtain ⟨r₀, hr₀, rfl⟩ := List.mem_map.mp hr
      have hle := hranges.le r₀ hr₀
      have hbehind : turn.start + utf8Len turn.old ≤ r₀.1 := hbound.trans hle
      unfold shiftRange
      rw [if_pos hbehind]
      unfold shift
      dsimp only
      split_ifs <;> omega
    · rw [List.mem_singleton.mp hr]
  · intro _
    refine ⟨_, List.mem_append_right _ (List.mem_singleton.mpr rfl), rfl, fun e he => ?_⟩
    obtain ⟨pre, before, middle, behind, suf, -, hstart, -, rfl, -, -⟩ := patchTurn_spec h
    have := hlt e he
    dsimp only
    rw [String.utf8Len_append] at hstart
    rw [String.utf8Len_append, String.utf8Len_append]
    omega

@[simp] lemma toList_oldString_patch (turn : PatchTurn) (file : String) :
    (turn.patch file).oldString.toList = turn.old := String.toList_ofList

@[simp] lemma toList_newString_patch (turn : PatchTurn) (file : String) :
    (turn.patch file).newString.toList = turn.new := String.toList_ofList

lemma matchPatches_turns_iff (file : String) {ranges : List (ℕ × ℕ)} {bound : ℕ}
    (hedits : Descending edits) (hranges : RangesBehind ranges bound edits)
    (hfirst : ranges = [] → utf8Len content ≤ bound) : (∃ result, matchPatches (content, ranges)
      ((fileTurns content edits).1.map fun turn => turn.patch file) = .ok result) ↔
    (∀ turn ∈ (fileTurns content edits).1, turn.Separate) ∧
      (∀ turn ∈ (fileTurns content edits).1, turn.start + utf8Len turn.old ≤ bound) ∧
      ContextsApart (fileTurns content edits).1 := by
  induction edits generalizing content ranges bound with
  | nil => simp [fileTurns, matchPatches, ContextsApart, pure, Except.pure]
  | cons edit edits ih =>
    have hlt := (List.pairwise_cons.mp hedits.start_lt).1
    unfold fileTurns
    cases hstep : patchTurn content edit with
    | none =>
      refine ih hedits.tail ⟨hranges.le, fun hne => ?_⟩ hfirst
      obtain ⟨r, hr, hbound, hreach⟩ := hranges.last hne
      exact ⟨r, hr, hbound, fun e he => hreach e (List.mem_cons_of_mem _ he)⟩
    | some turn =>
      dsimp only
      have hcontext : turn.start ≤ edit.start ∧ turn.start + utf8Len turn.old ≤ utf8Len content := by
        obtain ⟨pre, before, middle, behind, suf, rfl, hstart, -, rfl, -, -⟩ := patchTurn_spec hstep
        simp only [String.utf8Len_append] at hstart ⊢
        omega
      -- The ranges are met unless the context ends before them.
      have hmeet : (∀ r ∈ ranges, ¬ (r.1 < turn.start + utf8Len turn.old ∧ turn.start < r.2)) ↔
          turn.start + utf8Len turn.old ≤ bound := by
        constructor
        · intro hapart
          rcases eq_or_ne ranges [] with hnil | hne
          · exact hcontext.2.trans (hfirst hnil)
          · obtain ⟨r, hr, hbound, hreach⟩ := hranges.last hne
            have hedit := hreach edit List.mem_cons_self
            have hnot := hapart r hr
            omega
        · intro hbound r hr hmeets
          have hle := hranges.le r hr
          omega
      have hcons : (∃ result, matchPatches (content, ranges)
            ((turn :: (fileTurns turn.next edits).1).map fun turn => turn.patch file) = .ok result) ↔
          turn.Separate ∧ turn.start + utf8Len turn.old ≤ bound ∧
            ∃ result, matchPatches (turn.next, ranges.map (shiftRange
              (turn.start + utf8Len turn.old) ((utf8Len turn.new : ℤ) - (utf8Len turn.old : ℤ))) ++
                [(turn.start, turn.start + utf8Len turn.new)])
              ((fileTurns turn.next edits).1.map fun turn => turn.patch file) = .ok result := by
        constructor
        · rintro ⟨result, hresult⟩
          unfold matchPatches at hresult
          rw [List.map_cons, List.foldlM_cons, bind_eq_ok_iff] at hresult
          obtain ⟨⟨text, ranges'⟩, hmatch, hrest⟩ := hresult
          rw [toList_oldString_patch, toList_newString_patch] at hmatch
          obtain ⟨hseparate, hapart, rfl, rfl⟩ := (matchPatch_turn_iff hstep).mp hmatch
          exact ⟨hseparate, hmeet.mp hapart, result, hrest⟩
        · rintro ⟨hseparate, hbound, result, hrest⟩
          refine ⟨result, ?_⟩
          unfold matchPatches
          rw [List.map_cons, List.foldlM_cons, bind_eq_ok_iff]
          refine ⟨_, ?_, hrest⟩
          rw [toList_oldString_patch, toList_newString_patch]
          exact (matchPatch_turn_iff hstep).mpr ⟨hseparate, hmeet.mpr hbound, rfl, rfl⟩
      rw [hcons]
      constructor
      · rintro ⟨hseparate, hbound, hresult⟩
        obtain ⟨hall, hbefore, hapart⟩ := (ih hedits.tail (hranges.turn hstep hlt hbound)
          (fun hnil => by simp at hnil)).mp hresult
        refine ⟨?_, ?_, List.pairwise_cons.mpr ⟨hbefore, hapart⟩⟩
        · intro t ht
          rcases List.mem_cons.mp ht with rfl | ht
          · exact hseparate
          · exact hall t ht
        · intro t ht
          rcases List.mem_cons.mp ht with rfl | ht
          · exact hbound
          · have := hbefore t ht
            omega
      · rintro ⟨hall, hbefore, hapart⟩
        have hbound := hbefore turn List.mem_cons_self
        obtain ⟨hnext, hapart'⟩ := List.pairwise_cons.mp hapart
        exact ⟨hall turn List.mem_cons_self, hbound,
          (ih hedits.tail (hranges.turn hstep hlt hbound) (fun hnil => by simp at hnil)).mpr
            ⟨fun t ht => hall t (List.mem_cons_of_mem _ ht), hnext, hapart'⟩⟩

lemma ContextsApart.le_content (h : ContextsApart (fileTurns content edits).1) {turn : PatchTurn}
    (hturn : turn ∈ (fileTurns content edits).1) : turn.start + utf8Len turn.old ≤ utf8Len content := by
  induction edits generalizing content with
  | nil => simp [fileTurns] at hturn
  | cons edit edits ih =>
    unfold fileTurns at h hturn
    cases hstep : patchTurn content edit with
    | none =>
      rw [hstep] at h hturn
      exact ih h hturn
    | some first =>
      rw [hstep] at h hturn
      have hin : first.start + utf8Len first.old ≤ utf8Len content := by
        obtain ⟨pre, before, middle, behind, suf, rfl, -, -, rfl, -, -⟩ := patchTurn_spec hstep
        simp only [String.utf8Len_append]
        omega
      rcases List.mem_cons.mp hturn with rfl | hturn
      · exact hin
      · have hnext := (List.pairwise_cons.mp h).1 turn hturn
        omega

lemma text_of_matchPatches_turns {file : String} {ranges ranges' : List (ℕ × ℕ)} {text : Text}
    (h : matchPatches (content, ranges)
      ((fileTurns content edits).1.map fun turn => turn.patch file) = .ok (text, ranges')) :
    text = afterTurns content (fileTurns content edits).1 := by
  induction edits generalizing content ranges with
  | nil =>
    obtain ⟨rfl, -⟩ : content = text ∧ ranges = ranges' := by
      simpa [fileTurns, matchPatches, pure, Except.pure] using h
    rfl
  | cons edit edits ih =>
    unfold fileTurns at h ⊢
    cases hstep : patchTurn content edit with
    | none =>
      rw [hstep] at h
      exact ih h
    | some turn =>
      rw [hstep] at h
      dsimp only at h ⊢
      unfold matchPatches at h
      rw [List.map_cons, List.foldlM_cons, bind_eq_ok_iff] at h
      obtain ⟨⟨updated, ranges₁⟩, hmatch, hrest⟩ := h
      rw [toList_oldString_patch, toList_newString_patch] at hmatch
      obtain ⟨-, -, rfl, -⟩ := (matchPatch_turn_iff hstep).mp hmatch
      exact ih hrest

lemma inside_of_mem_fileTurns (hedits : Descending edits) {turn : PatchTurn}
    (h : turn ∈ (fileTurns content edits).1) : turn.edit.toEdit.Inside content := by
  obtain ⟨edit, -, hpatch, hkept⟩ :=
    exists_of_mem_fileTurns hedits.stop_le (fun _ _ => rfl) h
  rw [(content_edit_of_patchTurn hpatch).2]
  obtain ⟨pre, before, middle, behind, suf, hsplit, hstart, hstop, -, -, -⟩ := patchTurn_spec hpatch
  have htake : takeBytes turn.content edit.stop = pre ++ before ++ middle := by
    have hcontent : turn.content = (pre ++ before ++ middle) ++ (behind ++ suf) := by
      rw [hsplit]
      simp
    rw [hcontent, ← hstop, takeBytes_append_left]
  refine ⟨pre ++ before, middle, dropBytes content edit.stop, ?_, hstart, hstop⟩
  rw [← htake, hkept, takeBytes_append_dropBytes]

lemma sublist_edits_fileTurns (content : Text) (edits : List ResolvedEdit) :
    ((fileTurns content edits).1.map PatchTurn.edit).Sublist edits := by
  induction edits generalizing content with
  | nil => simp [fileTurns]
  | cons edit edits ih =>
    unfold fileTurns
    cases hstep : patchTurn content edit with
    | none => exact (ih content).cons edit
    | some turn =>
      dsimp only
      rw [List.map_cons, (content_edit_of_patchTurn hstep).2]
      exact (ih turn.next).cons₂ edit

lemma ascending_concat {edits : List Edit} {e : Edit} {pos : ℕ} (h : Ascending pos edits)
    (hpos : pos ≤ e.start) (hle : e.start ≤ e.stop) (hbefore : ∀ e' ∈ edits, e'.stop ≤ e.start) :
    Ascending pos (edits ++ [e]) := by
  induction edits generalizing pos with
  | nil => exact ⟨hpos, hle, trivial⟩
  | cons e' edits ih =>
    obtain ⟨hpos', hle', hrest⟩ := h
    exact ⟨hpos', hle', ih hrest (hbefore e' List.mem_cons_self)
      fun e'' he'' => hbefore e'' (List.mem_cons_of_mem _ he'')⟩

lemma afterTurns_eq (hedits : Descending edits) : afterTurns content (fileTurns content edits).1 =
        applyFrom content 0 (((fileTurns content edits).1.map fun turn => turn.edit.toEdit).reverse) ∧
      Ascending 0 (((fileTurns content edits).1.map fun turn => turn.edit.toEdit).reverse) := by
  induction edits generalizing content with
  | nil =>
    refine ⟨?_, trivial⟩
    simp only [fileTurns, afterTurns, List.map_nil, List.reverse_nil, applyFrom]
    simpa using (dropBytes_append_left [] content).symm
  | cons edit edits ih =>
    have hbefore := (List.pairwise_cons.mp hedits.stop_le).1
    unfold fileTurns
    cases hstep : patchTurn content edit with
    | none => exact ih hedits.tail
    | some turn =>
      dsimp only
      obtain ⟨hafter, hascending⟩ := @ih turn.next hedits.tail
      have hedit := (content_edit_of_patchTurn hstep).2
      obtain ⟨pre, before, middle, behind, suf, hcontent, hstart, hstop, -, -, -⟩ :=
        patchTurn_spec hstep
      have hsplit : content = (pre ++ before) ++ middle ++ (behind ++ suf) := by
        rw [hcontent]
        simp
      have hnext : turn.next = (pre ++ before) ++ edit.replacement ++ (behind ++ suf) := by
        rw [next_of_patchTurn hstep, hsplit, ← hstop, ← hstart, String.utf8Len_append (pre ++ before),
          replaceRange_append]
      -- The other edits end before this one, so they lie in the text before it.
      have hends : ∀ t ∈ (fileTurns turn.next edits).1, t.edit.stop ≤ edit.start := fun t ht =>
        hbefore _ ((sublist_edits_fileTurns turn.next edits).subset (List.mem_map_of_mem ht))
      have hinside : ∀ e ∈ (((fileTurns turn.next edits).1.map fun t => t.edit.toEdit).reverse),
          e.Inside (pre ++ before) := by
        intro e he
        obtain ⟨t, ht, rfl⟩ := List.mem_map.mp (List.mem_reverse.mp he)
        have hin := inside_of_mem_fileTurns hedits.tail ht
        rw [hnext, List.append_assoc (pre ++ before)] at hin
        exact hin.of_append (hstart ▸ hends t ht)
      have hlast : turn.edit.toEdit =
          ⟨utf8Len (pre ++ before), utf8Len (pre ++ before ++ middle), edit.replacement⟩ := by
        rw [hedit, hstart, hstop]
        rfl
      rw [afterTurns, List.map_cons, List.reverse_cons]
      constructor
      · rw [hafter, hlast]
        generalize ((fileTurns turn.next edits).1.map fun t => t.edit.toEdit).reverse = others at *
        rw [hnext, applyFrom_concat (pre ++ before) middle _ _ hinside hascending, ← hsplit]
      · refine ascending_concat hascending (Nat.zero_le _) ?_ ?_
        · rw [hlast, String.utf8Len_append (pre ++ before)]
          exact Nat.le_add_right _ _
        · intro e he
          obtain ⟨t, ht, rfl⟩ := List.mem_map.mp (List.mem_reverse.mp he)
          rw [hlast, hstart]
          exact hends t ht

end

/-! ## Staging a package -/

/-- The limits of a stage leave room for what the packaged edits make of a content. -/
structure Room (limits : CandidateLimits) (content final : Text) : Prop where
  files : saturatingAdd limits.currentFiles 0 ≤ limits.maxFiles
  bytes : (limits.currentBytes : ℤ) + ((utf8Len final : ℤ) - utf8Len content) ≤ limits.maxBytes
  nonneg : 0 ≤ (limits.currentBytes : ℤ) + ((utf8Len final : ℤ) - utf8Len content)

section

variable {tree : Tree} {path : RelPath} {file : String} {patches : List PatchInput}

lemma patchesAt_eq_self (hrel : normalizeRelative file = .ok path)
    (hpatches : ∀ patch ∈ patches, patch.file = file) : patchesAt path patches = patches := by
  refine List.filter_eq_self.mpr fun patch hpatch => ?_
  rw [hpatches patch hpatch, decide_eq_true_iff]
  exact hrel

lemma exists_foldlM_of_matchPatches (hrel : normalizeRelative file = .ok path)
    (hpatches : ∀ patch ∈ patches, patch.file = file ∧ patch.oldString ≠ "") {state : PlanState}
    {text : Text} {result : Text × List (ℕ × ℕ)} (htext : state.contents tree path = .ok (encodeUtf8 text))
    (h : matchPatches (text, (state.ranges.lookup path).getD []) patches = .ok result) :
    ∃ state', patches.foldlM (planPatch tree) state = .ok state' := by
  induction patches generalizing state text with
  | nil => exact ⟨state, rfl⟩
  | cons patch patches ih =>
    obtain ⟨hfile, hold⟩ := hpatches patch List.mem_cons_self
    unfold matchPatches at h
    rw [List.foldlM_cons, bind_eq_ok_iff] at h
    obtain ⟨⟨updated, ranges⟩, hmatch, hrest⟩ := h
    have hstep : planPatch tree state patch =
        .ok ((state.note path (encodeUtf8 text)).record path patch updated ranges) :=
      planPatch_eq_ok_iff.mpr ⟨path, text, updated, ranges, hfile ▸ hrel, hold, htext, hmatch, rfl⟩
    obtain ⟨state', hstate'⟩ := @ih (fun p hp => hpatches p (List.mem_cons_of_mem _ hp))
      ((state.note path (encodeUtf8 text)).record path patch updated ranges) updated
      (by rw [PlanState.contents_record, if_pos rfl])
      (by simpa [PlanState.record, Finmap.lookup_insert, matchPatches] using hrest)
    refine ⟨state', ?_⟩
    rw [List.foldlM_cons, hstep]
    exact hstate'

lemma plannedDelta_of_foldlM (hrel : normalizeRelative file = .ok path)
    (hpatches : ∀ patch ∈ patches, patch.file = file) {state : PlanState} {content final : Text}
    (hread : readCandidateFile tree path = .ok (encodeUtf8 content))
    (h : patches.foldlM (planPatch tree) PlanState.empty = .ok state)
    (hfinal : state.contents tree path = .ok (encodeUtf8 final)) :
    plannedDelta state [] = (utf8Len final : ℤ) - utf8Len content := by
  have hwf := PlanState.wellFormed_of_foldlM h
  have hpatched := patchedFiles_eq_map state.original hwf.nodup fun p hp => (hwf.mem_order p).mp hp
  rw [plannedDelta_eq_filesDelta hwf, hpatched, List.map_nil, List.append_nil]
  have hmem : ∀ p, p ∈ state.order ↔ ∃ patch ∈ patches, normalizeRelative patch.file = .ok p := by
    intro p
    have hempty : PlanState.empty.planned.lookup p = none := rfl
    rw [hwf.mem_order p, planned_ne_none_iff h p, hempty]
    simp
  rcases patches with - | ⟨patch, patches⟩
  · obtain rfl : PlanState.empty = state := by simpa [pure, Except.pure] using h
    have hsame : final = content := by
      have hcontents : PlanState.empty.contents tree path = readCandidateFile tree path := rfl
      rw [hcontents, hread] at hfinal
      exact (encodeUtf8_injective (Except.ok.inj hfinal)).symm
    rw [hsame, sub_self]
    rfl
  · have horder : state.order = [path] := by
      refine List.perm_singleton.mp ((List.perm_ext_iff_of_nodup hwf.nodup
        (List.nodup_singleton path)).mpr fun p => ?_)
      rw [hmem p, List.mem_singleton]
      constructor
      · rintro ⟨patch', hpatch', hp⟩
        rw [hpatches patch' hpatch', hrel] at hp
        exact (Except.ok.inj hp).symm
      · rintro rfl
        exact ⟨patch, List.mem_cons_self, hpatches patch List.mem_cons_self ▸ hrel⟩
    have hin : path ∈ state.order := by rw [horder]; exact List.mem_cons_self
    obtain ⟨original, horiginal, hread'⟩ := hwf.original path hin
    obtain rfl : encodeUtf8 content = original := Except.ok.inj (hread.symm.trans hread')
    obtain ⟨planned, hplanned⟩ := Option.ne_none_iff_exists'.mp ((hwf.mem_order path).mp hin)
    obtain rfl : planned = encodeUtf8 final := by
      simpa [PlanState.contents, hplanned] using hfinal
    rw [horder]
    simp [filesDelta, patchedFile, hplanned, horiginal, size_encodeUtf8]

end

/-- A package is staged as a whole just when every context occurs once, in order, and there is room. -/
theorem packaged_stageable_iff (tree : Tree) (path : RelPath) (file : String)
    (limits : CandidateLimits) (content : Text) (edits : List ResolvedEdit) (source : String)
    (hrel : normalizeRelative file = .ok path)
    (hread : readCandidateFile tree path = .ok (encodeUtf8 content))
    (hfile : ∀ edit ∈ edits, edit.file = source) (hle : ∀ edit ∈ edits, edit.start ≤ edit.stop)
    (hapart : edits.Pairwise fun left right => left.overlaps right = false) :
    (∃ plan, planPatches tree (packagedPatches file content edits) [] limits = .ok plan ∧
      (writtenAt plan.files path).getD (encodeUtf8 content) =
        encodeUtf8 (applyFrom content 0 (packagedEdits content edits))) ↔
    (∀ turn ∈ (sortedTurns content edits).1, turn.Separate) ∧ ContextsApart (sortedTurns content edits).1 ∧
      Room limits content (applyFrom content 0 (packagedEdits content edits)) := by
  have hdescending := descending_sorted hfile hle hapart
  have hnames : ∀ patch ∈ packagedPatches file content edits, patch.file = file ∧ patch.oldString ≠ "" := by
    intro patch hpatch
    obtain ⟨turn, hturn, rfl⟩ := List.mem_map.mp hpatch
    obtain ⟨edit, -, hstep, -⟩ :=
      exists_of_mem_fileTurns hdescending.stop_le (fun _ _ => rfl) hturn
    obtain ⟨-, -, -, -, -, -, -, -, -, hne, -⟩ := patchTurn_spec hstep
    refine ⟨rfl, fun hempty => hne ?_⟩
    rw [← toList_oldString_patch turn file, hempty]
    rfl
  have hat := patchesAt_eq_self hrel fun patch hpatch => (hnames patch hpatch).1
  have htext : ∀ {text ranges}, matchPatches (content, [])
      (packagedPatches file content edits) = .ok (text, ranges) →
      text = applyFrom content 0 (packagedEdits content edits) := by
    intro text ranges h
    rw [text_of_matchPatches_turns h]
    exact (afterTurns_eq hdescending).1
  have hmatches : (∃ result, matchPatches (content, []) (packagedPatches file content edits) =
      .ok result) ↔ (∀ turn ∈ (sortedTurns content edits).1, turn.Separate) ∧
        ContextsApart (sortedTurns content edits).1 := by
    rw [show packagedPatches file content edits = ((fileTurns content
      (sortedEdits edits)).1.map fun turn => turn.patch file) from rfl,
      matchPatches_turns_iff file hdescending ⟨by simp, by simp⟩ fun _ => le_rfl]
    constructor
    · rintro ⟨hseparate, -, hcontexts⟩
      exact ⟨hseparate, hcontexts⟩
    · rintro ⟨hseparate, hcontexts⟩
      exact ⟨hseparate, fun turn hturn => hcontexts.le_content hturn, hcontexts⟩
  have hempty : PlanState.empty.contents tree path = .ok (encodeUtf8 content) := hread
  have hroom : ∀ {state : PlanState},
      (packagedPatches file content edits).foldlM (planPatch tree) PlanState.empty = .ok state →
      plannedDelta state [] = (utf8Len (applyFrom content 0 (packagedEdits content edits)) : ℤ) -
        utf8Len content := by
    intro state hstate
    obtain ⟨final, ranges, hfinal, hcontents⟩ := matchPatches_of_foldlM hstate hempty
    rw [hat] at hfinal
    rw [← htext hfinal]
    exact plannedDelta_of_foldlM hrel (fun patch hpatch => (hnames patch hpatch).1) hread hstate
      hcontents
  constructor
  · rintro ⟨plan, hplan, -⟩
    obtain ⟨state, newPlanned, hstate, hnew, hfiles, hbytes, hnonneg, -⟩ :=
      planPatches_eq_ok_iff.mp hplan
    obtain rfl : [] = newPlanned := by simpa [pure, Except.pure] using hnew
    obtain ⟨final, ranges, hfinal, -⟩ := matchPatches_of_foldlM hstate hempty
    rw [hat] at hfinal
    rw [hroom hstate] at hbytes hnonneg
    obtain ⟨hseparate, hcontexts⟩ := hmatches.mp ⟨_, hfinal⟩
    exact ⟨hseparate, hcontexts, hfiles, hbytes, hnonneg⟩
  · rintro ⟨hseparate, hcontexts, hfiles, hbytes, hnonneg⟩
    obtain ⟨⟨final, ranges⟩, hfinal⟩ := hmatches.mpr ⟨hseparate, hcontexts⟩
    obtain ⟨state, hstate⟩ := exists_foldlM_of_matchPatches hrel hnames hempty hfinal
    rw [← hroom hstate] at hbytes hnonneg
    obtain ⟨plan, hplan, hnone⟩ : ∃ plan, planPatches tree (packagedPatches file content edits) []
        limits = .ok plan ∧ plan.newFiles = [] :=
      ⟨_, planPatches_eq_ok_iff.mpr ⟨state, [], hstate, rfl, hfiles, hbytes, hnonneg, rfl⟩, rfl⟩
    refine ⟨plan, hplan, ?_⟩
    rcases eq_or_ne (packagedPatches file content edits) [] with hnil | hne
    · rw [writtenAt_eq_none_iff.mpr (by simp [mem_targets_iff hplan, hnil, hnone]), Option.getD_none]
      rw [hnil] at hfinal
      obtain ⟨rfl, -⟩ : content = final ∧ [] = ranges := by
        simpa [matchPatches, pure, Except.pure] using hfinal
      rw [← htext (hnil ▸ hfinal)]
    · obtain ⟨text, made, ranges', hread', hmade, hwritten⟩ :=
        matchPatches_of_planPatches hplan (hat.symm ▸ hne)
      obtain rfl : content = text := encodeUtf8_injective (Except.ok.inj (hread.symm.trans hread'))
      rw [hat] at hmade
      rw [hwritten, Option.getD_some, htext hmade]

def twoLineEdit (start stop : ℕ) (replacement : String) : ResolvedEdit where
  group := 0
  edit := ⟨"lib.rs", ⟨⟨0, start⟩, ⟨0, stop⟩⟩, replacement⟩
  file := "/w/lib.rs"
  source := "a b\nc d\n".toList
  start := start
  stop := stop
  replacement := replacement.toList

/-- The candidate with that source. -/
def twoLineTree : Tree :=
  (∅ : Tree).insert [.unicode "lib.rs"] (.file (encodeUtf8 "a b\nc d\n".toList))

def twoLineLimits : CandidateLimits := ⟨1, 8, 10, 100⟩

/-- Edits of two lines are staged, both at once. -/
theorem packaged_stageable_two_lines :
    ∃ plan, planPatches twoLineTree
        (packagedPatches "lib.rs" "a b\nc d\n".toList [twoLineEdit 0 1 "x", twoLineEdit 6 7 "yz"]) []
        twoLineLimits = .ok plan ∧
      (writtenAt plan.files [.unicode "lib.rs"]).getD (encodeUtf8 "a b\nc d\n".toList) =
        encodeUtf8 "x b\nc yz\n".toList := by
  have hturns : (sortedTurns "a b\nc d\n".toList [twoLineEdit 0 1 "x", twoLineEdit 6 7 "yz"]).1 =
      [⟨"a b\nc d\n".toList, twoLineEdit 6 7 "yz", 4, "c d\n".toList, "c yz\n".toList⟩,
        ⟨"a b\nc yz\n".toList, twoLineEdit 0 1 "x", 0, "a b\n".toList, "x b\n".toList⟩] := by
    decide +kernel
  have hresult : applyFrom "a b\nc d\n".toList 0 (packagedEdits "a b\nc d\n".toList
      [twoLineEdit 0 1 "x", twoLineEdit 6 7 "yz"]) = "x b\nc yz\n".toList := by
    decide +kernel
  have hstaged := (packaged_stageable_iff twoLineTree [.unicode "lib.rs"] "lib.rs" twoLineLimits
    "a b\nc d\n".toList [twoLineEdit 0 1 "x", twoLineEdit 6 7 "yz"] "/w/lib.rs" (by decide +kernel)
    (by decide +kernel) (by decide) (by decide) (by decide)).mpr ⟨?_, ?_, ?_⟩
  · rwa [hresult] at hstaged
  · rw [hturns]
    have hfirst : OccursOnceAt "a b\nc d\n".toList "c d\n".toList 4 :=
      occursOnceAt_iff.mpr (by decide +kernel)
    have hsecond : OccursOnceAt "a b\nc yz\n".toList "a b\n".toList 0 :=
      occursOnceAt_iff.mpr (by decide +kernel)
    intro turn hturn j hj hne
    rcases List.mem_cons.mp hturn with rfl | hturn
    · exact absurd ((hfirst j).mp hj) hne
    · rw [List.mem_singleton.mp hturn] at hj hne
      exact absurd ((hsecond j).mp hj) hne
  · rw [hturns]
    unfold ContextsApart
    decide +kernel
  · rw [hresult]
    exact ⟨by decide, by decide, by decide⟩

/-- Two edits of one line have one context, and the second patch is refused. -/
theorem edits_of_one_line_refused :
    planPatches twoLineTree
        (packagedPatches "lib.rs" "a b\nc d\n".toList [twoLineEdit 0 1 "x", twoLineEdit 2 3 "y"]) []
        twoLineLimits = .error "overlapping edits in the same candidate file: lib.rs" ∧
    ¬ ∀ (tree : Tree) (path : RelPath) (file : String) (limits : CandidateLimits) (content : Text)
      (edits : List ResolvedEdit) (source : String), normalizeRelative file = .ok path →
      readCandidateFile tree path = .ok (encodeUtf8 content) →
      (∀ edit ∈ edits, edit.file = source) → (∀ edit ∈ edits, edit.start ≤ edit.stop) →
      (edits.Pairwise fun left right => left.overlaps right = false) →
      Room limits content (applyFrom content 0 (packagedEdits content edits)) →
      ∃ plan, planPatches tree (packagedPatches file content edits) [] limits = .ok plan := by
  have hrefused : planPatches twoLineTree
      (packagedPatches "lib.rs" "a b\nc d\n".toList [twoLineEdit 0 1 "x", twoLineEdit 2 3 "y"]) []
      twoLineLimits = .error "overlapping edits in the same candidate file: lib.rs" := by
    decide +kernel
  refine ⟨hrefused, fun h => ?_⟩
  have hroom : Room twoLineLimits "a b\nc d\n".toList (applyFrom "a b\nc d\n".toList 0
      (packagedEdits "a b\nc d\n".toList [twoLineEdit 0 1 "x", twoLineEdit 2 3 "y"])) := by
    have hresult : applyFrom "a b\nc d\n".toList 0 (packagedEdits "a b\nc d\n".toList
        [twoLineEdit 0 1 "x", twoLineEdit 2 3 "y"]) = "x y\nc d\n".toList := by
      decide +kernel
    rw [hresult]
    exact ⟨by decide, by decide, by decide⟩
  obtain ⟨plan, hplan⟩ := h twoLineTree [.unicode "lib.rs"] "lib.rs" twoLineLimits
    "a b\nc d\n".toList [twoLineEdit 0 1 "x", twoLineEdit 2 3 "y"] "/w/lib.rs" (by decide +kernel)
    (by decide +kernel) (by decide) (by decide) (by decide) hroom
  rw [hrefused] at hplan
  cases hplan

end AgzRustMcp
