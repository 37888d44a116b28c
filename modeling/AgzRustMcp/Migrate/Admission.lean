import AgzRustMcp.Migrate.Windows

/-!
# What a file without obligations has

When `compose_patches` reports nothing for a file, every edit was admitted and every window written,
so the edits lie one behind another.
-/

namespace AgzRustMcp.Compose

open String (utf8Len)
open Utf8Text Splice Sorting

/-! ## Admitted edits -/

structure Opens (original : Text) (edit : PlannedEdit) (cluster : Cluster) : Prop where
  valid : edit.ValidIn original
  context : uniqueContext original edit.start edit.stop = some (cluster.start, cluster.stop)
  edits : cluster.edits = [edit]

section

variable {file : String} {original : Text} {edits : List PlannedEdit} {state : Admitted} {clusters : List Cluster}

lemma admitEdit_of_obligations {edit : PlannedEdit} (h : (admitEdit file original state edit).obligations = []) :
    state.obligations = [] ∧ (∀ previous, state.previousEnd = some previous → previous ≤ edit.start) ∧
      ∃ cluster, Opens original edit cluster ∧ admitEdit file original state edit = { state with
            previousEnd := some edit.stop
            clusters := state.clusters ++ [cluster] } := by
  unfold admitEdit at h ⊢
  split at h
  · simp at h
  next hadmitted =>
  rw [if_neg hadmitted]
  rw [not_or, not_not] at hadmitted
  obtain ⟨hvalid, hbehind⟩ := hadmitted
  split at h
  · simp at h
  next start stop hcontext =>
  refine ⟨h, fun previous hprevious => ?_, ⟨start, stop, [edit]⟩, ⟨hvalid, hcontext, rfl⟩, ?_⟩
  · rwa [hprevious, Option.any_some, decide_eq_true_iff, not_lt] at hbehind
  · rfl

lemma admitted_of_obligations (h : (edits.foldl (admitEdit file original) state).obligations = []) :
    state.obligations = [] ∧ (∀ previous, state.previousEnd = some previous → ∀ edit ∈ edits, previous ≤ edit.start) ∧
      edits.Pairwise (fun e f => e.stop ≤ f.start) ∧
      ∃ opened, (edits.foldl (admitEdit file original) state).clusters = state.clusters ++ opened ∧
        List.Forall₂ (Opens original) edits opened := by
  induction edits generalizing state with
  | nil => exact ⟨h, by simp, .nil, [], by simp, .nil⟩
  | cons edit edits ih =>
    rw [List.foldl_cons] at h ⊢
    obtain ⟨hnone, hprevious, hpairwise, opened, hopened, hopens⟩ := ih h
    obtain ⟨hstate, hfirst, cluster, hcluster, hturn⟩ := admitEdit_of_obligations hnone
    rw [hturn] at hprevious hopened ⊢
    have hlater : ∀ e ∈ edits, edit.stop ≤ e.start := hprevious edit.stop rfl
    refine ⟨hstate, fun previous hsome e he => ?_, List.pairwise_cons.mpr ⟨hlater, hpairwise⟩,
      cluster :: opened, ?_, .cons hcluster hopens⟩
    · rcases List.mem_cons.mp he with rfl | he
      · exact hfirst previous hsome
      · exact (hfirst previous hsome).trans (hcluster.valid.1.trans (hlater e he))
    · rw [hopened, List.append_assoc, List.singleton_append]

lemma Opens.framed {edit : PlannedEdit} {cluster : Cluster} (h : Opens original edit cluster) :
    cluster.Framed original := by
  obtain ⟨text, hslice, hne, honce, hstart, hstop, hmem⟩ :=
    uniqueContext_spec h.valid.1 h.valid.2.1 h.context
  refine ⟨hmem, ⟨text, hslice, hne, honce⟩, fun e he => ?_⟩
  rw [h.edits, List.mem_singleton] at he
  subst he
  exact ⟨h.valid, hstart, hstop⟩

lemma exists_opens (h : List.Forall₂ (Opens original) edits clusters) :
    ∀ c ∈ clusters, ∃ edit, Opens original edit c := by
  induction h with
  | nil => simp
  | cons hopens _ ih =>
    intro c hc
    rcases List.mem_cons.mp hc with rfl | hc
    · exact ⟨_, hopens⟩
    · exact ih c hc

lemma flatMap_edits_of_opens (h : List.Forall₂ (Opens original) edits clusters) :
    clusters.flatMap Cluster.edits = edits := by
  induction h with
  | nil => rfl
  | cons hopens _ ih => rw [List.flatMap_cons, hopens.edits, ih, List.singleton_append]

/-! ## The order of the edits -/

abbrev insertionAt (place : ℕ) : PlannedEdit → Bool :=
  emptyAt PlannedEdit.start PlannedEdit.stop place

lemma filter_flatMap_edits {p : PlannedEdit → Bool} (h : ∀ c ∈ clusters, ∃ edit, c.edits = [edit]) :
    (clusters.flatMap Cluster.edits).filter p = (clusters.filter fun c => c.edits.any p).flatMap Cluster.edits := by
  induction clusters with
  | nil => rfl
  | cons c clusters ih =>
    obtain ⟨edit, hedit⟩ := h c List.mem_cons_self
    rw [List.flatMap_cons, List.filter_append, ih fun d hd => h d (List.mem_cons_of_mem _ hd), hedit]
    by_cases hp : p edit = true
    · simp [hedit, hp]
    · simp [hedit, hp]

lemma filter_sortedClusters (h : List.Forall₂ (Opens original) edits clusters) (place : ℕ) :
    ((sortedClusters clusters).flatMap Cluster.edits).filter (insertionAt place) =
      edits.filter (insertionAt place) := by
  have hopens := exists_opens h
  have hsingle : ∀ c ∈ clusters, ∃ edit, c.edits = [edit] := by
    intro c hc
    obtain ⟨edit, hedit⟩ := hopens c hc
    exact ⟨edit, hedit.edits⟩
  have hsorted : ∀ c ∈ sortedClusters clusters, ∃ edit, c.edits = [edit] :=
    fun c hc => hsingle c ((List.perm_insertionSort _ _).mem_iff.mp hc)
  have hcontext : ∀ c ∈ clusters.filter (fun c => c.edits.any (insertionAt place)),
      uniqueContext original place place = some (c.start, c.stop) := by
    intro c hc
    obtain ⟨hmem, hany⟩ := List.mem_filter.mp hc
    obtain ⟨edit, hedit⟩ := hopens c hmem
    simp only [hedit.edits, List.any_cons, List.any_nil, Bool.or_false, emptyAt, Bool.and_eq_true,
      decide_eq_true_eq] at hany
    have hcontext := hedit.context
    rwa [hany.1, hany.2] at hcontext
  have hkept : (sortedClusters clusters).filter (fun c => c.edits.any (insertionAt place)) =
      clusters.filter (fun c => c.edits.any (insertionAt place)) := by
    refine filter_insertionSort _ (List.pairwise_of_forall_mem_list fun c hc d hd => ?_)
    have hsame := Option.some.inj ((hcontext c hc).symm.trans (hcontext d hd))
    exact (Prod.mk.inj hsame).1.le
  rw [filter_flatMap_edits hsorted, hkept, ← filter_flatMap_edits hsingle, flatMap_edits_of_opens h]

/-- The order inside a window compares all edits. -/
instance : Std.Total fun left right : PlannedEdit => left.start ≤ right.start :=
  ⟨fun left right => le_total left.start right.start⟩

/-- The order inside a window is transitive. -/
instance : IsTrans PlannedEdit fun left right => left.start ≤ right.start :=
  ⟨fun _ _ _ hab hbc => hab.trans hbc⟩

lemma filter_sortedEdits (cluster : Cluster) (place : ℕ) :
    cluster.sortedEdits.filter (insertionAt place) = cluster.edits.filter (insertionAt place) := by
  refine filter_insertionSort _ (List.pairwise_of_forall_mem_list fun e he f hf => ?_)
  obtain ⟨-, he⟩ := List.mem_filter.mp he
  obtain ⟨-, hf⟩ := List.mem_filter.mp hf
  simp only [emptyAt, Bool.and_eq_true, decide_eq_true_eq] at he hf
  omega

/-! ## Written windows -/

lemma slice?_of_boundaries {start stop : ℕ} (hstart : isBoundary original start = true)
    (hstop : isBoundary original stop = true) (hle : start ≤ stop) :
    slice? original start stop = some (sliceOrEmpty original start stop) := by
  have hslice : slice? original start stop =
      some (takeBytes (dropBytes original start) (stop - start)) := if_pos ⟨hle, hstart, hstop⟩
  rw [sliceOrEmpty, hslice, Option.getD_some]

lemma applyFrom_eq_slice {start stop : ℕ} (hstart : isBoundary original start = true)
    (hstop : isBoundary original stop = true) (hle : start ≤ stop) {later : List Edit}
    (hlater : ∀ e ∈ later, stop ≤ e.start) :
    applyFrom original start later = sliceOrEmpty original start stop ++ applyFrom original stop later := by
  have hslice := slice?_of_boundaries hstart hstop hle
  generalize sliceOrEmpty original start stop = kept at hslice ⊢
  obtain ⟨pre, suf, rfl, rfl, rfl⟩ := slice?_eq_some_iff.mp hslice
  exact applyFrom_of_le pre kept suf hlater

lemma writeEdits_eq_some {stop cursor : ℕ} {updated : Text}
    (hcursor : isBoundary original cursor = true) (hstop : isBoundary original stop = true)
    (hle : cursor ≤ stop) (hvalid : ∀ edit ∈ edits, edit.ValidIn original)
    (h : writeEdits original stop cursor edits = some updated) :
    (∀ edit ∈ edits, cursor ≤ edit.start) ∧ edits.Pairwise (fun e f => e.stop ≤ f.start) ∧
      ∀ later : List Edit, (∀ e ∈ later, stop ≤ e.start) →
        applyFrom original cursor (edits.map PlannedEdit.toEdit ++ later) =
          updated ++ applyFrom original stop later := by
  induction edits generalizing cursor updated with
  | nil =>
    obtain rfl : sliceOrEmpty original cursor stop = updated := Option.some.inj h
    exact ⟨by simp, .nil, fun later hlater => applyFrom_eq_slice hcursor hstop hle hlater⟩
  | cons edit edits ih =>
    unfold writeEdits at h
    split at h
    · simp at h
    next hfits =>
    rw [not_or, not_lt, not_lt] at hfits
    obtain ⟨hfrom, hto⟩ := hfits
    obtain ⟨rest, hrest, rfl⟩ := Option.map_eq_some_iff.mp h
    obtain ⟨hvalid', -, hbstart, hbstop⟩ := hvalid edit List.mem_cons_self
    obtain ⟨hlater, hpairwise, happly⟩ := ih hbstop hto
      (fun e he => hvalid e (List.mem_cons_of_mem _ he)) hrest
    refine ⟨fun e he => ?_, List.pairwise_cons.mpr ⟨hlater, hpairwise⟩, fun later hbehind => ?_⟩
    · rcases List.mem_cons.mp he with rfl | he
      · exact hfrom
      · exact hfrom.trans (hvalid'.trans (hlater e he))
    · have hslice := slice?_of_boundaries hcursor hbstart hfrom
      unfold slice? at hslice
      rw [if_pos ⟨hfrom, hcursor, hbstart⟩, Option.some.injEq] at hslice
      rw [List.map_cons, List.cons_append, applyFrom]
      simp only [PlannedEdit.toEdit] at happly ⊢
      rw [happly later hbehind, ← hslice, List.append_assoc, List.append_assoc, List.append_assoc]

/-- The patch of a window that was written. -/
structure Patched (file : String) (original : Text) (cluster : Cluster) (patch : PatchInput) : Prop where
  file_eq : patch.file = file
  oldString : slice? original cluster.start cluster.stop = some patch.oldString.toList
  newString : writeEdits original cluster.stop cluster.start cluster.sortedEdits = some patch.newString.toList

lemma exists_patched {patches : List PatchInput} (h : List.Forall₂ (Patched file original) clusters patches) :
    ∀ c ∈ clusters, ∃ patch, Patched file original c patch := by
  induction h with
  | nil => simp
  | cons hpatched _ ih =>
    intro c hc
    rcases List.mem_cons.mp hc with rfl | hc
    · exact ⟨_, hpatched⟩
    · exact ih c hc

lemma patched_of_obligations (h : (patchClusters file original clusters).2 = []) :
    List.Forall₂ (Patched file original) clusters (patchClusters file original clusters).1 := by
  induction clusters with
  | nil => exact .nil
  | cons cluster clusters ih =>
    unfold patchClusters at h ⊢
    dsimp only at h ⊢
    cases hpatch : cluster.patch file original with
    | error obligation =>
      rw [hpatch] at h
      simp at h
    | ok patch =>
      rw [hpatch] at h
      dsimp only at h ⊢
      refine .cons ?_ (ih h)
      unfold Cluster.patch at hpatch
      split at hpatch
      · simp at hpatch
      next updated hwritten =>
      split at hpatch
      · simp at hpatch
      next oldString hslice =>
      obtain rfl := Except.ok.inj hpatch
      exact ⟨rfl, by simpa using hslice, by simpa using hwritten⟩

end

section

variable {file : String} {original : Text} {edits : List PlannedEdit}

/-- What holds of a file that `compose_patches` reports nothing about. -/
structure Composed (file : String) (original : Text) (edits : List PlannedEdit) : Prop where
  admitted : (admitEdits file original (edits.insertionSort PlannedEdit.before)).obligations = []
  written : (patchClusters file original (windows file original edits)).2 = []

lemma Composed.exists_opened (h : Composed file original edits) :
    ∃ opened, List.Forall₂ (Opens original) (edits.insertionSort PlannedEdit.before) opened ∧
      (edits.insertionSort PlannedEdit.before).Pairwise (fun e f => e.stop ≤ f.start) ∧
      (∀ c ∈ opened, c.Framed original) ∧
      windows file original edits = growWindows original (max opened.length 1 + 1) opened := by
  obtain ⟨-, -, hbehind, opened, hopened, hopens⟩ := admitted_of_obligations h.admitted
  rw [List.nil_append] at hopened
  have hclusters : (admitEdits file original (edits.insertionSort PlannedEdit.before)).clusters = opened := hopened
  refine ⟨opened, hopens, hbehind, fun c hc => ?_, ?_⟩
  · obtain ⟨edit, hedit⟩ := exists_opens hopens c hc
    exact hedit.framed
  · unfold windows
    rw [hclusters]
    rfl

lemma Cluster.Framed.pairwise_sortedEdits {cluster : Cluster} {patch : PatchInput}
    (hframed : cluster.Framed original) (hpatch : Patched file original cluster patch) :
    cluster.sortedEdits.Pairwise fun e f => e.stop ≤ f.start := by
  obtain ⟨hlt, hstop, -⟩ := hframed.bounds
  obtain ⟨text, hslice, -⟩ := hframed.once
  obtain ⟨pre, suf, htext, hstart, -⟩ := slice?_eq_some_iff.mp hslice
  refine (writeEdits_eq_some (isBoundary_iff.mpr ⟨pre, text ++ suf, ?_, hstart⟩) hstop hlt.le
    (fun e he => ?_) hpatch.newString).2.1
  · rw [htext, List.append_assoc]
  · exact (hframed.inside e ((List.perm_insertionSort _ _).mem_iff.mp he)).1

/-- The windows are framed in order, and hold the edits of the file. -/
theorem Composed.windows_spec (h : Composed file original edits) :
    (∀ c ∈ windows file original edits, c.Framed original) ∧
      (windows file original edits).Pairwise (fun c d => c.stop ≤ d.start) ∧
      (windows file original edits).flatMap Cluster.sortedEdits = edits.insertionSort PlannedEdit.before := by
  obtain ⟨opened, hopens, hbehind, hframed, hwindows⟩ := h.exists_opened
  have hpatched := exists_patched (patched_of_obligations h.written)
  obtain ⟨hgrown, hapart, hedits⟩ := growWindows_spec hframed (max opened.length 1)
  rw [← hwindows] at hgrown hapart hedits
  generalize windows file original edits = grown at *
  refine ⟨hgrown, hapart, ?_⟩
  have hinside : ∀ c ∈ grown, ∀ edit ∈ c.sortedEdits, edit.ValidIn original ∧
      c.start ≤ edit.start ∧ edit.stop ≤ c.stop :=
    fun c hc edit hedit => (hgrown c hc).inside edit ((List.perm_insertionSort _ _).mem_iff.mp hedit)
  refine @eq_of_perm_of_filter _ PlannedEdit.start PlannedEdit.stop _ _ ?_ ?_ ?_ hbehind ?_
  · intro edit hedit
    obtain ⟨c, hc, hmem⟩ := List.mem_flatMap.mp hedit
    exact (hinside c hc edit hmem).1.1
  · have hsort : (grown.flatMap Cluster.sortedEdits).Perm (grown.flatMap Cluster.edits) :=
      List.Perm.flatMap_left grown fun c _ => List.perm_insertionSort _ _
    have hopened : ((sortedClusters opened).flatMap Cluster.edits).Perm
        (opened.flatMap Cluster.edits) :=
      (List.perm_insertionSort _ _).flatMap_right _
    rw [flatMap_edits_of_opens hopens, ← hedits] at hopened
    exact hsort.trans hopened
  · refine List.pairwise_flatMap.mpr ⟨fun c hc => ?_, hapart.imp_of_mem fun {c d} hc hd hle => ?_⟩
    · obtain ⟨patch, hpatch⟩ := hpatched c hc
      exact (hgrown c hc).pairwise_sortedEdits hpatch
    · intro e he f hf
      exact (hinside c hc e he).2.2.trans (hle.trans (hinside d hd f hf).2.1)
  · intro place
    rw [List.filter_flatMap]
    simp only [filter_sortedEdits]
    rw [← List.filter_flatMap, hedits]
    exact filter_sortedClusters hopens place

end

end AgzRustMcp.Compose
