import AgzRustMcp.Migrate.Admission
import AgzRustMcp.Change.Simultaneous

/-!
# Staging the patches of a migration

The windows of `compose_patches` are unique in the original text, but `plan_patches` looks for them
in the text that the patches before have left.  Its loop goes through just when every window still
occurs once there, and then it makes all edits (`matchPatches_windows_iff`).
-/

namespace AgzRustMcp.Compose

open String (utf8Len)
open Utf8Text Splice Checked

/-! ## One file -/

/-- The edits of windows, as those of the text. -/
def madeEdits (clusters : List Cluster) : List Edit :=
  (clusters.flatMap Cluster.sortedEdits).map PlannedEdit.toEdit

/-- Every window occurs once with the edits before it made. -/
def StaysUnique (original : Text) (done : List Edit) (clusters : List Cluster) : Prop :=
  ∀ before cluster behind, clusters = before ++ cluster :: behind →
    ∃ text i, slice? original cluster.start cluster.stop = some text ∧
      OccursOnceAt (applyFrom original 0 (done ++ madeEdits before)) text i

section

variable {file : String} {original made : Text} {done : List Edit} {cluster : Cluster}
  {clusters : List Cluster} {patch : PatchInput} {patches : List PatchInput} {ranges : List (ℕ × ℕ)} {place : ℕ}

lemma staysUnique_cons : StaysUnique original done (cluster :: clusters) ↔
      (∃ text i, slice? original cluster.start cluster.stop = some text ∧
        OccursOnceAt (applyFrom original 0 done) text i) ∧
      StaysUnique original (done ++ madeEdits [cluster]) clusters := by
  constructor
  · intro h
    refine ⟨?_, fun before c behind hsplit => ?_⟩
    · obtain ⟨text, i, hslice, honce⟩ := h [] cluster clusters rfl
      rw [show madeEdits [] = [] from rfl, List.append_nil] at honce
      exact ⟨text, i, hslice, honce⟩
    · obtain ⟨text, i, hslice, honce⟩ := h (cluster :: before) c behind (by rw [hsplit]; rfl)
      refine ⟨text, i, hslice, ?_⟩
      rw [List.append_assoc]
      simpa [madeEdits] using honce
  · rintro ⟨⟨text, i, hslice, honce⟩, hrest⟩ before c behind hsplit
    cases before with
    | nil =>
      obtain ⟨rfl, rfl⟩ := List.cons.inj hsplit
      rw [show madeEdits [] = [] from rfl, List.append_nil]
      exact ⟨text, i, hslice, honce⟩
    | cons d before =>
      obtain ⟨rfl, rfl⟩ := List.cons.inj hsplit
      obtain ⟨text, i, hslice, honce⟩ := hrest before c behind rfl
      refine ⟨text, i, hslice, ?_⟩
      rw [List.append_assoc] at honce
      simpa [madeEdits] using honce

/-- The edits so far, with the kept ranges in what they made. -/
structure MadeUpTo (original : Text) (done : List Edit) (place : ℕ) (made : Text) (ranges : List (ℕ × ℕ)) : Prop where
  boundary : isBoundary original place = true
  apply : ∀ later : List Edit, (∀ e ∈ later, place ≤ e.start) →
    applyFrom original 0 (done ++ later) = made ++ applyFrom original place later
  ranges : ∀ r ∈ ranges, r.1 ≤ r.2 ∧ r.2 ≤ utf8Len made

lemma madeUpTo_nil (original : Text) : MadeUpTo original [] 0 [] [] where
  boundary := isBoundary_iff.mpr ⟨[], original, rfl, rfl⟩
  apply := fun _ _ => rfl
  ranges := by simp

lemma MadeUpTo.split (h : MadeUpTo original done place made ranges) (hframed : cluster.Framed original)
    (hle : place ≤ cluster.start) {text : Text} (htext : slice? original cluster.start cluster.stop = some text) :
    applyFrom original 0 done = made ++ sliceOrEmpty original place cluster.start ++ text ++
      applyFrom original cluster.stop [] := by
  obtain ⟨pre, suf, hsplit, hstart, hstop⟩ := slice?_eq_some_iff.mp htext
  have hbstart : isBoundary original cluster.start = true :=
    isBoundary_iff.mpr ⟨pre, text ++ suf, by rw [hsplit, List.append_assoc], hstart⟩
  have hbehind := h.apply [] (by simp)
  rw [List.append_nil, applyFrom_eq_slice h.boundary hbstart hle (by simp),
    applyFrom_eq_slice hbstart hframed.bounds.2.1 hframed.bounds.1.le (by simp)] at hbehind
  have htext' : sliceOrEmpty original cluster.start cluster.stop = text := by
    rw [sliceOrEmpty, htext, Option.getD_some]
  rw [hbehind, htext']
  simp only [List.append_assoc]

lemma MadeUpTo.window (h : MadeUpTo original done place made ranges)
    (hframed : cluster.Framed original) (hle : place ≤ cluster.start)
    (hpatch : Patched file original cluster patch) : MadeUpTo original (done ++ madeEdits [cluster]) cluster.stop
      (made ++ sliceOrEmpty original place cluster.start ++ patch.newString.toList)
      (ranges ++ [(utf8Len (made ++ sliceOrEmpty original place cluster.start),
        utf8Len (made ++ sliceOrEmpty original place cluster.start) + utf8Len patch.newString.toList)]) := by
  obtain ⟨pre, suf, hsplit, hstart, hstop⟩ := slice?_eq_some_iff.mp hpatch.oldString
  have hbstart : isBoundary original cluster.start = true :=
    isBoundary_iff.mpr ⟨pre, patch.oldString.toList ++ suf, by rw [← List.append_assoc, hsplit], hstart⟩
  have hinside : ∀ edit ∈ cluster.sortedEdits, edit.ValidIn original ∧
      cluster.start ≤ edit.start ∧ edit.stop ≤ cluster.stop :=
    fun edit hedit => hframed.inside edit ((List.perm_insertionSort _ _).mem_iff.mp hedit)
  obtain ⟨-, -, happly⟩ := writeEdits_eq_some hbstart hframed.bounds.2.1 hframed.bounds.1.le
    (fun edit hedit => (hinside edit hedit).1) hpatch.newString
  have hmade : madeEdits [cluster] = cluster.sortedEdits.map PlannedEdit.toEdit := by
    simp [madeEdits]
  refine ⟨hframed.bounds.2.1, fun later hlater => ?_, fun r hr => ?_⟩
  · have hbehind : ∀ e ∈ cluster.sortedEdits.map PlannedEdit.toEdit ++ later, cluster.start ≤ e.start := by
      intro e he
      rcases List.mem_append.mp he with he | he
      · obtain ⟨edit, hedit, rfl⟩ := List.mem_map.mp he
        exact (hinside edit hedit).2.1
      · exact hframed.bounds.1.le.trans (hlater e he)
    rw [List.append_assoc, hmade, h.apply _ fun e he => hle.trans (hbehind e he),
      applyFrom_eq_slice h.boundary hbstart hle hbehind, happly later hlater]
    simp only [List.append_assoc]
  · rcases List.mem_append.mp hr with hr | hr
    · obtain ⟨hpos, hlen⟩ := h.ranges r hr
      refine ⟨hpos, hlen.trans ?_⟩
      rw [List.append_assoc, String.utf8Len_append]
      exact Nat.le_add_right _ _
    · obtain rfl := List.mem_singleton.mp hr
      refine ⟨Nat.le_add_right _ _, ?_⟩
      rw [String.utf8Len_append _ patch.newString.toList]

lemma MadeUpTo.matchPatch_iff (h : MadeUpTo original done place made ranges)
    (hframed : cluster.Framed original) (hle : place ≤ cluster.start)
    (hpatch : Patched file original cluster patch) (result : Text × List (ℕ × ℕ)) :
    matchPatch patch.file (applyFrom original 0 done) ranges patch.oldString.toList
        patch.newString.toList = .ok result ↔ (∃ text i, slice? original cluster.start cluster.stop = some text ∧
        OccursOnceAt (applyFrom original 0 done) text i) ∧
      result = (applyFrom original 0 (done ++ madeEdits [cluster]),
        ranges ++ [(utf8Len (made ++ sliceOrEmpty original place cluster.start),
          utf8Len (made ++ sliceOrEmpty original place cluster.start) + utf8Len patch.newString.toList)]) := by
  have hnext := (h.window hframed hle hpatch).apply [] (by simp)
  rw [List.append_nil] at hnext
  have hhere := h.split hframed hle hpatch.oldString
  have hranges := (h.window hframed hle hpatch).ranges
  obtain ⟨text, hslice, hne, -⟩ := hframed.once
  obtain rfl : text = patch.oldString.toList := Option.some.inj (hslice.symm.trans hpatch.oldString)
  have hpos : utf8Len patch.oldString.toList ≠ 0 := fun hzero => hne (String.utf8Len_eq_zero.mp hzero)
  have hbound : ∀ r ∈ ranges, r.1 ≤ r.2 ∧ r.2 ≤ utf8Len (made ++ sliceOrEmpty original place cluster.start) := by
    intro r hr
    obtain ⟨hle, hlen⟩ := h.ranges r hr
    rw [String.utf8Len_append]
    exact ⟨hle, hlen.trans (Nat.le_add_right _ _)⟩
  -- The window stands behind what is made, so no range moves and none meets it.
  have hkept : ∀ delta : ℤ, ranges.map (shiftRange (utf8Len
      (made ++ sliceOrEmpty original place cluster.start) + utf8Len patch.oldString.toList) delta) = ranges := by
    intro delta
    refine (List.map_congr_left fun r hr => ?_).trans (List.map_id ranges)
    have := hbound r hr
    exact if_neg (by omega)
  obtain ⟨updated, ranges'⟩ := result
  rw [matchPatch_eq_ok_iff, Prod.mk.injEq, hhere, hnext]
  generalize made ++ sliceOrEmpty original place cluster.start = front at *
  constructor
  · rintro ⟨pre, suf, hsplit, honce, -, rfl, rfl⟩
    have hplace := (honce (utf8Len front)).mp ⟨front, _, rfl, rfl⟩
    rw [← hplace] at honce ⊢
    rw [List.append_assoc, List.append_assoc] at hsplit
    obtain ⟨rfl, hrest⟩ := append_inj_of_utf8Len hsplit hplace
    obtain rfl := List.append_cancel_left hrest
    exact ⟨⟨_, _, hslice, honce⟩, rfl, by rw [hkept]⟩
  · rintro ⟨⟨text, i, htext, honce⟩, rfl, rfl⟩
    obtain rfl := Option.some.inj (hslice.symm.trans htext)
    obtain rfl : utf8Len front = i := (honce _).mp ⟨front, _, rfl, rfl⟩
    refine ⟨front, _, rfl, honce, fun r hr => ?_, rfl, by rw [hkept]⟩
    have := hbound r hr
    omega

lemma MadeUpTo.matchPatches_iff (h : MadeUpTo original done place made ranges)
    (hframed : ∀ c ∈ clusters, c.Framed original ∧ place ≤ c.start)
    (hapart : clusters.Pairwise fun c d => c.stop ≤ d.start)
    (hpatches : List.Forall₂ (Patched file original) clusters patches) :
    ((∃ result, matchPatches (applyFrom original 0 done, ranges) patches = .ok result) ↔
      StaysUnique original done clusters) ∧
    ∀ text ranges', matchPatches (applyFrom original 0 done, ranges) patches = .ok (text, ranges') →
      text = applyFrom original 0 (done ++ madeEdits clusters) := by
  induction hpatches generalizing done place made ranges with
  | nil =>
    refine ⟨⟨fun _ before c behind hsplit => by simp at hsplit, fun _ => ⟨_, rfl⟩⟩, ?_⟩
    intro text ranges' hmatch
    obtain ⟨rfl, -⟩ : applyFrom original 0 done = text ∧ ranges = ranges' := by
      simpa [matchPatches, pure, Except.pure] using hmatch
    rw [show madeEdits [] = [] from rfl, List.append_nil]
  | @cons cluster patch clusters patches hpatch _ ih =>
    obtain ⟨hfirst, hle⟩ := hframed cluster List.mem_cons_self
    obtain ⟨hbehind, hrest⟩ := List.pairwise_cons.mp hapart
    have hturn := h.matchPatch_iff hfirst hle hpatch
    obtain ⟨hloop, htext⟩ := ih (h.window hfirst hle hpatch)
      (fun c hc => ⟨(hframed c (List.mem_cons_of_mem _ hc)).1, hbehind c hc⟩) hrest
    have hmade : done ++ madeEdits (cluster :: clusters) = done ++ madeEdits [cluster] ++ madeEdits clusters := by
      simp [madeEdits]
    rw [staysUnique_cons, ← hloop, hmade]
    unfold matchPatches at hloop htext ⊢
    simp only [List.foldlM_cons, bind_eq_ok_iff]
    refine ⟨⟨?_, ?_⟩, ?_⟩
    · rintro ⟨result, mid, hmid, hresult⟩
      obtain ⟨honce, rfl⟩ := (hturn mid).mp hmid
      exact ⟨honce, result, hresult⟩
    · rintro ⟨honce, result, hresult⟩
      exact ⟨result, _, (hturn _).mpr ⟨honce, rfl⟩, hresult⟩
    · rintro text ranges' ⟨mid, hmid, hresult⟩
      obtain ⟨-, rfl⟩ := (hturn mid).mp hmid
      exact htext text ranges' hresult

end

section

variable {file : String} {original : Text} {edits : List PlannedEdit}

def filePatches (file : String) (original : Text) (edits : List PlannedEdit) : List PatchInput :=
  (patchClusters file original (windows file original edits)).1

/-- The text of a file with all its edits made at once. -/
def editedText (original : Text) (edits : List PlannedEdit) : Text :=
  applyFrom original 0 ((edits.insertionSort PlannedEdit.before).map PlannedEdit.toEdit)

/-- The patches of a composed file go through just when its windows stay unique. -/
theorem Composed.matchPatches_iff (h : Composed file original edits) :
    ((∃ result, matchPatches (original, []) (filePatches file original edits) = .ok result) ↔
      StaysUnique original [] (windows file original edits)) ∧
    ∀ text ranges, matchPatches (original, []) (filePatches file original edits) = .ok (text, ranges) →
      text = editedText original edits := by
  obtain ⟨hframed, hapart, hedits⟩ := h.windows_spec
  have hloop := (madeUpTo_nil original).matchPatches_iff
    (fun c hc => ⟨hframed c hc, Nat.zero_le _⟩) hapart (patched_of_obligations h.written)
  have horiginal : applyFrom original 0 [] = original := by
    rw [applyFrom]
    simpa using dropBytes_append_left [] original
  rw [horiginal, List.nil_append] at hloop
  have hall : applyFrom original 0 (madeEdits (windows file original edits)) = editedText original edits := by
    rw [madeEdits, hedits, editedText]
  rw [hall] at hloop
  exact hloop

end

end AgzRustMcp.Compose
