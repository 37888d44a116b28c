import AgzRustMcp.Diagnostics.Packager

/-!
# Which contexts occur once

`unique_context` counts matches that do not overlap, so a context that is counted once may occur a
second time inside the match.  `patchTurn_performs_iff` says that this is the only way in which an
emitted patch can miss.
-/

namespace AgzRustMcp

open String (utf8Len)
open Utf8Text

section

variable {content : Text} {edit : ResolvedEdit} {turn : PatchTurn}

lemma patchTurn_spec (h : patchTurn content edit = some turn) :
    ∃ pre before middle behind suf, content = pre ++ (before ++ middle ++ behind) ++ suf ∧
      utf8Len (pre ++ before) = edit.start ∧ utf8Len (pre ++ before ++ middle) = edit.stop ∧
      turn = ⟨content, edit, utf8Len pre, before ++ middle ++ behind, before ++ edit.replacement ++ behind⟩ ∧
      turn.old ≠ [] ∧ matchCount content turn.old = 1 := by
  unfold patchTurn at h
  split at h
  · simp at h
  next contextStart contextEnd context hcontext =>
  obtain ⟨pre, before, middle, behind, suf, hcontent, rfl, hne, rfl, -, hstart, hstop, hcount⟩ :=
    uniqueContext_spec hcontext
  have hlead : edit.start - utf8Len pre = utf8Len before := by
    rw [← hstart, String.utf8Len_append, Nat.add_sub_cancel_left]
  have hsuffix : edit.stop - utf8Len pre = utf8Len (before ++ middle) := by
    rw [← hstop, List.append_assoc, String.utf8Len_append, Nat.add_sub_cancel_left]
  have htake : takeBytes (before ++ middle ++ behind) (utf8Len before) = before := by
    rw [List.append_assoc, takeBytes_append_left]
  rw [hlead, hsuffix] at h
  dsimp only at h
  rw [htake, dropBytes_append_left] at h
  obtain rfl := Option.some.inj h
  exact ⟨pre, before, middle, behind, suf, hcontent, hstart, hstop, rfl, hne, hcount⟩

lemma next_of_patchTurn (h : patchTurn content edit = some turn) :
    turn.next = replaceRange content edit.start edit.stop edit.replacement := by
  obtain ⟨pre, before, middle, behind, suf, rfl, hstart, hstop, rfl, -, -⟩ := patchTurn_spec h
  have hedit : pre ++ (before ++ middle ++ behind) ++ suf = (pre ++ before) ++ middle ++ (behind ++ suf) := by simp
  unfold PatchTurn.next
  dsimp only
  rw [replaceRange_append, hedit, ← hstop, ← hstart, String.utf8Len_append (pre ++ before), replaceRange_append]
  simp

lemma occursAt_of_patchTurn (h : patchTurn content edit = some turn) : OccursAt turn.content turn.old turn.start := by
  obtain ⟨pre, before, middle, behind, suf, rfl, -, -, rfl, -, -⟩ := patchTurn_spec h
  exact ⟨pre, suf, rfl, rfl⟩

lemma content_edit_of_patchTurn (h : patchTurn content edit = some turn) :
    turn.content = content ∧ turn.edit = edit := by
  obtain ⟨pre, before, middle, behind, suf, -, -, -, rfl, -, -⟩ := patchTurn_spec h
  exact ⟨rfl, rfl⟩

end

/-! ## The edits from the last to the first -/

lemma ResolvedEdit.overlaps_comm (left right : ResolvedEdit) : left.overlaps right = right.overlaps left := by
  unfold ResolvedEdit.overlaps
  by_cases hfile : left.file = right.file
  · rw [if_neg (not_not.mpr hfile), if_neg (not_not.mpr hfile.symm)]
    split_ifs with hleft hright hright <;> rw [Bool.eq_iff_iff] <;>
      simp only [Bool.and_eq_true, decide_eq_true_eq] <;> omega
  · rw [if_pos hfile, if_pos (Ne.symm hfile)]

lemma ResolvedEdit.stop_le_of_not_overlaps {left right : ResolvedEdit} (hfile : left.file = right.file)
    (hleft : left.start ≤ left.stop) (hright : right.start ≤ right.stop)
    (hstart : right.start ≤ left.start) (h : left.overlaps right = false) : right.stop ≤ left.start := by
  unfold ResolvedEdit.overlaps at h
  rw [if_neg (not_not.mpr hfile)] at h
  split_ifs at h with hempty hempty' <;>
    simp only [Bool.and_eq_false_iff, decide_eq_false_iff_not] at h <;> omega

lemma sortedEdits_perm (edits : List ResolvedEdit) : (sortedEdits edits).Perm edits :=
  List.perm_insertionSort _ _

lemma pairwise_sortedEdits (edits : List ResolvedEdit) :
    (sortedEdits edits).Pairwise fun left right => right.start ≤ left.start := by
  have htotal : Std.Total fun left right : ResolvedEdit => left.later right = true := ⟨by
    intro a b
    simp only [ResolvedEdit.later, Bool.or_eq_true, Bool.and_eq_true, decide_eq_true_eq]
    omega⟩
  have htrans : IsTrans ResolvedEdit fun left right => left.later right = true := ⟨by
    intro a b c hab hbc
    simp only [ResolvedEdit.later, Bool.or_eq_true, Bool.and_eq_true, decide_eq_true_eq] at *
    omega⟩
  refine (List.pairwise_insertionSort _ edits).imp fun {left right} h => ?_
  simp only [ResolvedEdit.later, Bool.or_eq_true, Bool.and_eq_true, decide_eq_true_eq] at h
  omega

lemma pairwise_sorted {edits : List ResolvedEdit} {path : String} (hfile : ∀ e ∈ edits, e.file = path)
    (hle : ∀ e ∈ edits, e.start ≤ e.stop) (hapart : edits.Pairwise fun left right => left.overlaps right = false) :
    (sortedEdits edits).Pairwise fun left right => right.stop ≤ left.start := by
  have hapart' : (sortedEdits edits).Pairwise fun left right => left.overlaps right = false :=
    ((sortedEdits_perm edits).pairwise_iff fun {a b} h =>
      (ResolvedEdit.overlaps_comm b a).trans h).mpr hapart
  refine ((pairwise_sortedEdits edits).and hapart').imp_of_mem ?_
  rintro left right hl hr ⟨hlater, hnot⟩
  have hl' := (sortedEdits_perm edits).mem_iff.mp hl
  have hr' := (sortedEdits_perm edits).mem_iff.mp hr
  exact ResolvedEdit.stop_le_of_not_overlaps ((hfile _ hl').trans (hfile _ hr').symm) (hle _ hl')
    (hle _ hr') hlater hnot

lemma takeBytes_append_of_le {pre : Text} (suf : Text) {n : ℕ} (h : n ≤ utf8Len pre) :
    takeBytes (pre ++ suf) n = takeBytes pre n := by
  induction pre generalizing n with
  | nil =>
    obtain rfl : n = 0 := by simpa using h
    cases suf with
    | nil => rfl
    | cons c cs =>
      have hpos := c.utf8Size_pos
      simp only [List.nil_append, takeBytes]
      rw [if_neg (by omega)]
  | cons c pre ih =>
    rw [String.utf8Len_cons] at h
    simp only [List.cons_append, takeBytes]
    split_ifs with hc
    · rw [ih (by omega)]
    · rfl

lemma takeBytes_next {content : Text} {edit : ResolvedEdit} {turn : PatchTurn} {n : ℕ}
    (h : patchTurn content edit = some turn) (hn : n ≤ edit.start) : takeBytes turn.next n = takeBytes content n := by
  rw [next_of_patchTurn h]
  obtain ⟨pre, before, middle, behind, suf, rfl, hstart, hstop, -, -, -⟩ := patchTurn_spec h
  have hedit : pre ++ (before ++ middle ++ behind) ++ suf = (pre ++ before) ++ (middle ++ (behind ++ suf)) := by simp
  rw [← hstart] at hn
  unfold replaceRange
  rw [← hstart, hedit, takeBytes_append_left, List.append_assoc (pre ++ before),
    takeBytes_append_of_le _ hn, takeBytes_append_of_le _ hn]

/-! ## What a patch does -/

/-- Its old string occurs once, at the context, and replacing it makes the edit. -/
structure PatchTurn.Performs (original : Text) (turn : PatchTurn) : Prop where
  once : OccursOnceAt turn.content turn.old turn.start
  edited : turn.next = replaceRange turn.content turn.edit.start turn.edit.stop turn.edit.replacement
  kept : takeBytes turn.content turn.edit.stop = takeBytes original turn.edit.stop

/-- No other occurrence of the context overlaps the one that is replaced. -/
def PatchTurn.Separate (turn : PatchTurn) : Prop :=
  ∀ j, OccursAt turn.content turn.old j → j ≠ turn.start →
    ¬ (j < turn.start + utf8Len turn.old ∧ turn.start < j + utf8Len turn.old)

lemma exists_of_mem_fileTurns {original content : Text} {edits : List ResolvedEdit}
    (hsorted : edits.Pairwise fun left right => right.stop ≤ left.start)
    (hkept : ∀ edit ∈ edits, takeBytes content edit.stop = takeBytes original edit.stop)
    {turn : PatchTurn} (hturn : turn ∈ (fileTurns content edits).1) :
    ∃ edit ∈ edits, patchTurn turn.content edit = some turn ∧
      takeBytes turn.content edit.stop = takeBytes original edit.stop := by
  induction edits generalizing content with
  | nil => simp [fileTurns] at hturn
  | cons edit edits ih =>
    obtain ⟨hfirst, hrest⟩ := List.pairwise_cons.mp hsorted
    have hkept' : ∀ e ∈ edits, takeBytes content e.stop = takeBytes original e.stop :=
      fun e he => hkept e (List.mem_cons_of_mem _ he)
    unfold fileTurns at hturn
    cases hstep : patchTurn content edit with
    | none =>
      rw [hstep] at hturn
      obtain ⟨e, he, hpatch⟩ := ih hrest hkept' hturn
      exact ⟨e, List.mem_cons_of_mem _ he, hpatch⟩
    | some first =>
      rw [hstep] at hturn
      rcases List.mem_cons.mp hturn with rfl | hturn
      · have hcontent := (content_edit_of_patchTurn hstep).1
        refine ⟨edit, List.mem_cons_self, ?_, ?_⟩
        · rw [hcontent]
          exact hstep
        · rw [hcontent]
          exact hkept edit List.mem_cons_self
      · obtain ⟨e, he, hpatch⟩ := ih hrest (fun e he => by
          rw [takeBytes_next hstep (hfirst e he), hkept' e he]) hturn
        exact ⟨e, List.mem_cons_of_mem _ he, hpatch⟩

/-- A patch does what is asked just when no other occurrence overlaps its context. -/
theorem patchTurn_performs_iff (content : Text) (edits : List ResolvedEdit) (path : String)
    (hfile : ∀ edit ∈ edits, edit.file = path) (hle : ∀ edit ∈ edits, edit.start ≤ edit.stop)
    (hapart : edits.Pairwise fun left right => left.overlaps right = false) :
    ∀ turn ∈ (sortedTurns content edits).1, turn.Performs content ↔ turn.Separate := by
  intro turn hturn
  obtain ⟨edit, -, hpatch, hkept⟩ :=
    exists_of_mem_fileTurns (pairwise_sorted hfile hle hapart) (fun _ _ => rfl) hturn
  have hedit := (content_edit_of_patchTurn hpatch).2
  obtain ⟨pre, before, middle, behind, suf, -, -, -, -, hne, hcount⟩ := patchTurn_spec hpatch
  have hiff := occursOnceAt_iff_of_matchCount hne hcount (occursAt_of_patchTurn hpatch)
  constructor
  · intro hperforms
    exact hiff.mp hperforms.once
  · intro hseparate
    refine ⟨hiff.mpr hseparate, ?_, ?_⟩
    · rw [hedit]
      exact next_of_patchTurn hpatch
    · rw [hedit]
      exact hkept

/-- An edit in a source with three equal lines. -/
def repeatedLineEdit (start stop : ℕ) : ResolvedEdit where
  group := 0
  edit := ⟨"src/lib.rs", ⟨⟨0, 0⟩, ⟨0, 1⟩⟩, "b"⟩
  file := "/w/src/lib.rs"
  source := "a\na\na\n".toList
  start := start
  stop := stop
  replacement := "b".toList

def plainLineEdit : ResolvedEdit := { repeatedLineEdit 0 1 with source := "a\nc\n".toList }

/-- The patch of an edit of a line that occurs once. -/
theorem patchTurn_performs_plain_line :
    (sortedTurns "a\nc\n".toList [plainLineEdit]).1.length = 1 ∧
      ∀ turn ∈ (sortedTurns "a\nc\n".toList [plainLineEdit]).1, turn.Performs "a\nc\n".toList := by
  refine ⟨by decide +kernel, fun turn hturn => ?_⟩
  have hone : (sortedTurns "a\nc\n".toList [plainLineEdit]).1 =
      [⟨"a\nc\n".toList, plainLineEdit, 0, "a\n".toList, "b\n".toList⟩] := by decide +kernel
  refine (patchTurn_performs_iff "a\nc\n".toList [plainLineEdit] "/w/src/lib.rs" (by decide)
    (by decide) (by decide) turn hturn).mpr ?_
  rw [hone, List.mem_singleton] at hturn
  subst hturn
  have honce : OccursOnceAt "a\nc\n".toList "a\n".toList 0 := occursOnceAt_iff.mpr (by decide)
  intro j hj hne
  exact absurd ((honce j).mp hj) hne

/-- In equal lines the context occurs twice, with an overlap. -/
theorem context_occurs_twice :
    (sortedTurns "a\na\na\n".toList [repeatedLineEdit 0 1]).1 =
        [⟨"a\na\na\n".toList, repeatedLineEdit 0 1, 0, "a\na\n".toList, "b\na\n".toList⟩] ∧
      OccursAt "a\na\na\n".toList "a\na\n".toList 0 ∧
      OccursAt "a\na\na\n".toList "a\na\n".toList 2 ∧
    ¬ ∀ (content : Text) (edits : List ResolvedEdit) (path : String),
      (∀ edit ∈ edits, edit.file = path) → (∀ edit ∈ edits, edit.start ≤ edit.stop) →
      (edits.Pairwise fun left right => left.overlaps right = false) →
      ∀ turn ∈ (sortedTurns content edits).1, turn.Performs content := by
  have hone : (sortedTurns "a\na\na\n".toList [repeatedLineEdit 0 1]).1 =
      [⟨"a\na\na\n".toList, repeatedLineEdit 0 1, 0, "a\na\n".toList, "b\na\n".toList⟩] := by
    decide +kernel
  have hsecond : OccursAt "a\na\na\n".toList "a\na\n".toList 2 :=
    ⟨"a\n".toList, [], by decide, by decide⟩
  refine ⟨hone, ⟨[], "a\n".toList, by decide, by decide⟩, hsecond, fun h => ?_⟩
  have hperforms := h "a\na\na\n".toList [repeatedLineEdit 0 1] "/w/src/lib.rs" (by decide)
    (by decide) (by decide) _ (by rw [hone]; exact List.mem_cons_self)
  exact absurd ((hperforms.once 2).mp hsecond) (by decide)

end AgzRustMcp
