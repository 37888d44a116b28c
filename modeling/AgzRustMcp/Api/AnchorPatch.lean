import AgzRustMcp.Foundation.Matches
import AgzRustMcp.Foundation.Utf8Tail
import AgzRustMcp.Foundation.Sha256
import AgzRustMcp.Change.Plan

/-!
# The patch of a probe anchor

`append_unique` of `tools/api.rs` doubles the ending that a probe patches until a text library
counts one match of it, and that library does not count matches that overlap.  `plan_patches` does:
`planPatches_anchor_iff` says when it accepts the patch.
-/

namespace AgzRustMcp.Api

open String (utf8Len)
open Utf8Text Checked

def maxHarnessBytes : ℕ := 262144

/-- The first character boundary within so many bytes from an offset on. -/
def boundaryFrom (text : Text) : ℕ → ℕ → ℕ
  | 0, index => index
  | gap + 1, index => if isBoundary text index then index else boundaryFrom text gap (index + 1)

/-- `floor_char_boundary`, which goes up. -/
def floorCharBoundary (text : Text) (index : ℕ) : ℕ := boundaryFrom text (utf8Len text - index) index

/-- The loop of `append_unique`; `none` stands for a loop that goes on. -/
def appendUniqueFrom (content appended : Text) : ℕ → ℕ → Option (Option (Text × Text))
  | 0, _ => none
  | turns + 1, size =>
    let start := floorCharBoundary content (utf8Len content - size)
    let suffix := dropBytes content start
    let occurrences := if suffix = [] then 0 else matchCount content suffix
    if start = 0 ∨ occurrences = 1 then
      if suffix = [] then some (some ([], appended)) else some (some (suffix, suffix ++ appended))
    else if size ≥ utf8Len content then some none
    else appendUniqueFrom content appended turns (min (size * 2) (utf8Len content))

def appendUnique (content appended : Text) : Option (Option (Text × Text)) :=
  appendUniqueFrom content appended (utf8Len content + 1) 64

structure ProbeRefusal where
  status : String
  reason : String
  deriving DecidableEq

/-- The fields of `ProbePlan` that come from the patch of the anchor. -/
structure AnchorPatch where
  anchorPatchOld : Text
  anchorPatchNew : Text
  patchedSha256 : String
  patchedBytes : ℕ
  deriving DecidableEq

/-- The part of `build_probe_plan` about the patch of the anchor. -/
def anchorPatch (sha : ByteArray → String) (content appended : Text) : Except ProbeRefusal AnchorPatch :=
  match (appendUnique content appended).join with
  | none => .error ⟨"UNSUPPORTED_CONTEXT", "the anchor file could not be patched unambiguously"⟩
  | some (old, new) =>
    if utf8Len new > maxHarnessBytes then
      .error ⟨"INVALID", "the patched anchor file exceeds the bounded harness size"⟩
    else .ok ⟨old, new, sha (encodeUtf8 new), utf8Len new⟩

/-! ## Boundaries and endings -/

section

variable {text content appended : Text}

lemma boundaryFrom_spec {gap index : ℕ} (hend : isBoundary text (index + gap) = true) :
    index ≤ boundaryFrom text gap index ∧ isBoundary text (boundaryFrom text gap index) = true ∧
      ∀ j, index ≤ j → isBoundary text j = true → boundaryFrom text gap index ≤ j := by
  induction gap generalizing index with
  | zero => exact ⟨le_rfl, hend, fun j hj _ => hj⟩
  | succ gap ih =>
    rw [boundaryFrom]
    split_ifs with hboundary
    · exact ⟨le_rfl, hboundary, fun j hj _ => hj⟩
    · have hnext : isBoundary text (index + 1 + gap) = true := by rwa [Nat.add_right_comm]
      obtain ⟨hle, hfound, hleast⟩ := ih hnext
      refine ⟨by omega, hfound, fun j hj hjb => hleast j ?_ hjb⟩
      rcases Nat.eq_or_lt_of_le hj with rfl | hlt
      · exact absurd hjb hboundary
      · exact hlt

lemma dropBytes_floorCharBoundary (text : Text) (size : ℕ) :
    dropBytes text (floorCharBoundary text (utf8Len text - size)) = tailOf size text := by
  have hend : isBoundary text (utf8Len text - size + (utf8Len text - (utf8Len text - size))) = true := by
    rw [Nat.add_sub_cancel' (Nat.sub_le _ _)]
    exact isBoundary_iff.mpr ⟨text, [], by simp, rfl⟩
  obtain ⟨hle, hfound, hleast⟩ := boundaryFrom_spec hend
  rw [← floorCharBoundary] at hle hfound hleast
  obtain ⟨pre, suf, htext, hpre⟩ := isBoundary_iff.mp hfound
  obtain ⟨hsuffix, hmax, hlongest⟩ := isTail_tailOf size text
  obtain ⟨front, hfront⟩ := hsuffix
  have hlen : utf8Len text = utf8Len pre + utf8Len suf := by rw [htext, String.utf8Len_append]
  have hlen' : utf8Len text = utf8Len front + utf8Len (tailOf size text) := by
    rw [← String.utf8Len_append, hfront]
  have hlower : utf8Len pre ≤ utf8Len front :=
    hpre ▸ hleast (utf8Len front) (by omega) (isBoundary_iff.mpr ⟨front, _, hfront.symm, rfl⟩)
  have hupper : utf8Len suf ≤ utf8Len (tailOf size text) :=
    hlongest suf ⟨pre, htext.symm⟩ (by rw [← hpre] at hle; omega)
  obtain ⟨-, hsame⟩ := append_inj_of_utf8Len (htext.symm.trans hfront.symm) (by omega)
  rw [← hpre, htext, dropBytes_append_left, ← htext, hsame]

/-- The endings that the search tries: the last 64 bytes, 128 bytes, and so on. -/
def ending (content : Text) (k : ℕ) : Text := tailOf (64 * 2 ^ k) content

lemma tailOf_min (content : Text) (size : ℕ) : tailOf (min size (utf8Len content)) content = tailOf size content := by
  rcases Nat.le_total size (utf8Len content) with hle | hle
  · rw [min_eq_left hle]
  · rw [min_eq_right hle, tailOf_of_le le_rfl, tailOf_of_le hle]

structure FirstCountedOnce (content : Text) (k : ℕ) : Prop where
  once : matchCount content (ending content k) = 1
  first : ∀ j < k, matchCount content (ending content j) ≠ 1

lemma FirstCountedOnce.unique {k k' : ℕ} (h : FirstCountedOnce content k) (h' : FirstCountedOnce content k') :
    k = k' := by
  rcases Nat.lt_trichotomy k k' with hlt | rfl | hlt
  · exact absurd h.once (h'.first k hlt)
  · rfl
  · exact absurd h'.once (h.first k' hlt)

lemma occursOnceAt_self (content : Text) : OccursOnceAt content content 0 := by
  intro j
  constructor
  · rintro ⟨pre, suf, heq, rfl⟩
    have hlen := congrArg utf8Len heq
    rw [String.utf8Len_append, String.utf8Len_append] at hlen
    omega
  · rintro rfl
    exact ⟨[], [], by simp, rfl⟩

lemma ending_suffix (content : Text) (k : ℕ) : ending content k <:+ content := (isTail_tailOf _ content).suffix

lemma FirstCountedOnce.ending_ne_nil {k : ℕ} (h : FirstCountedOnce content k) (hne : content ≠ []) :
    ending content k ≠ [] := by
  intro hnil
  have hcount := h.once
  rw [hnil, matchCount, if_pos rfl, Nat.add_eq_right, List.length_eq_zero_iff] at hcount
  exact hne hcount

lemma appendUniqueFrom_spec (hne : content ≠ []) {turns size k : ℕ} (hpos : 0 < size)
    (hsize : min size (utf8Len content) = min (64 * 2 ^ k) (utf8Len content))
    (hturns : utf8Len content - size < turns) (hfirst : ∀ j < k, matchCount content (ending content j) ≠ 1) :
    ∃ k', FirstCountedOnce content k' ∧ appendUniqueFrom content appended turns size =
      some (some (ending content k', ending content k' ++ appended)) := by
  induction turns generalizing size k with
  | zero => exact absurd hturns (Nat.not_lt_zero _)
  | succ turns ih =>
    have hwhole : matchCount content content = 1 := (occursOnceAt_self content).matchCount_eq_one hne
    have hsuffix : dropBytes content (floorCharBoundary content (utf8Len content - size)) = ending content k := by
      rw [dropBytes_floorCharBoundary, ending, ← tailOf_min content size, hsize, tailOf_min]
    have hstart : floorCharBoundary content (utf8Len content - size) = 0 → ending content k = content := by
      intro hzero
      rw [← hsuffix, hzero]
      simpa using dropBytes_append_left [] content
    rw [appendUniqueFrom, hsuffix]
    by_cases hcount : matchCount content (ending content k) = 1
    · have hfound : FirstCountedOnce content k := ⟨hcount, hfirst⟩
      have hnil := hfound.ending_ne_nil hne
      refine ⟨k, hfound, ?_⟩
      rw [if_neg hnil, if_pos (Or.inr hcount), if_neg hnil]
    · have hstart : floorCharBoundary content (utf8Len content - size) ≠ 0 := by
        intro hzero
        rw [hstart hzero] at hcount
        exact hcount hwhole
      have hshort : size < utf8Len content := by
        by_contra hle
        have hall : ending content k = content := by
          rw [ending, ← tailOf_min, ← hsize, tailOf_min, tailOf_of_le (not_lt.mp hle)]
        rw [hall] at hcount
        exact hcount hwhole
      have hzero : ¬ (floorCharBoundary content (utf8Len content - size) = 0 ∨
          (if ending content k = [] then 0 else matchCount content (ending content k)) = 1) := by
        rintro (hzero | hone)
        · exact hstart hzero
        · split_ifs at hone
          exact hcount hone
      rw [if_neg hzero, if_neg (not_le.mpr hshort)]
      refine ih (k := k + 1) (by omega) ?_ (by omega) fun j hj => ?_
      · rw [pow_succ]
        omega
      · rcases Nat.lt_succ_iff_lt_or_eq.mp hj with hlt | rfl
        · exact hfirst j hlt
        · exact hcount

/-- `append_unique` ends on every text that is not empty. -/
theorem appendUnique_spec (hne : content ≠ []) (appended : Text) : ∃ k, FirstCountedOnce content k ∧
      appendUnique content appended = some (some (ending content k, ending content k ++ appended)) :=
  appendUniqueFrom_spec hne (by omega) (by simp) (by omega) fun j hj => absurd hj (Nat.not_lt_zero j)

end

section

variable {tree : Tree} {file : String} {relative : RelPath} {limits : CandidateLimits} {content appended : Text}

/-- The anchor file of a candidate that has room for what is appended. -/
structure Anchored (tree : Tree) (file : String) (relative : RelPath) (limits : CandidateLimits)
    (content appended : Text) : Prop where
  normal : normalizeRelative file = .ok relative
  contents : readCandidateFile tree relative = .ok (encodeUtf8 content)
  files : saturatingAdd limits.currentFiles 0 ≤ limits.maxFiles
  bytes : limits.currentBytes + utf8Len appended ≤ limits.maxBytes

/-- The patch is accepted, and the plan is the content followed by the appended text. -/
def PlansAppended (tree : Tree) (file : String) (relative : RelPath) (limits : CandidateLimits)
    (content appended old new : Text) : Prop :=
  ∃ plan, planPatches tree [⟨file, String.ofList old, String.ofList new⟩] [] limits = .ok plan ∧
    plan.files = [⟨relative, encodeUtf8 (content ++ appended), true, utf8Len content⟩]

lemma plansAppended_iff (h : Anchored tree file relative limits content appended) {old : Text} (hold : old ≠ [])
    (hsuffix : old <:+ content) : PlansAppended tree file relative limits content appended old (old ++ appended) ↔
      ∃ i, OccursOnceAt content old i := by
  have hcontents : PlanState.empty.contents tree relative = .ok (encodeUtf8 content) := h.contents
  constructor
  · rintro ⟨plan, hplan, -⟩
    obtain ⟨state, newPlanned, hstate, -⟩ := planPatches_eq_ok_iff.mp hplan
    rw [List.foldlM_cons, bind_eq_ok_iff] at hstate
    obtain ⟨mid, hstep, -⟩ := hstate
    obtain ⟨path, text, updated, ranges, hpath, -, hread, hmatch, -⟩ := planPatch_eq_ok_iff.mp hstep
    obtain rfl : relative = path := Except.ok.inj (h.normal.symm.trans hpath)
    obtain rfl : content = text := encodeUtf8_injective (Except.ok.inj (hcontents.symm.trans hread))
    obtain ⟨pre, suf, -, honce, -⟩ := matchPatch_eq_ok_iff.mp hmatch
    exact ⟨_, by simpa using honce⟩
  · rintro ⟨i, honce⟩
    obtain ⟨pre, hpre⟩ := hsuffix
    have hat : OccursOnceAt content old (utf8Len pre) := by
      obtain rfl : utf8Len pre = i := (honce _).mp ⟨pre, [], by simp [hpre], rfl⟩
      exact honce
    obtain ⟨ranges, hmatch⟩ : ∃ ranges,
        matchPatch file content [] old (old ++ appended) = .ok (content ++ appended, ranges) :=
      ⟨_, matchPatch_eq_ok_iff.mpr ⟨pre, [], by simp [hpre], hat, by simp, by simp [← hpre], rfl⟩⟩
    let patch : PatchInput := ⟨file, String.ofList old, String.ofList (old ++ appended)⟩
    let state := (PlanState.empty.note relative (encodeUtf8 content)).record relative patch
      (content ++ appended) ranges
    have hstep : planPatch tree .empty patch = .ok state := by
      refine planPatch_eq_ok_iff.mpr ⟨relative, content, _, ranges, h.normal, ?_, hcontents, ?_, rfl⟩
      · intro hempty
        exact hold (by simpa [patch] using congrArg String.toList hempty)
      · simpa [patch, PlanState.empty] using hmatch
    have hstate : [patch].foldlM (planPatch tree) .empty = .ok state := by
      rw [List.foldlM_cons, hstep]
      rfl
    have hfiles : patchedFiles state.original state.planned state.order =
        [⟨relative, encodeUtf8 (content ++ appended), true, utf8Len content⟩] := by
      simp [state, PlanState.note, PlanState.record, PlanState.empty, patchedFiles]
    have hdelta : plannedDelta state [] = utf8Len appended := by
      rw [plannedDelta_eq_filesDelta (PlanState.wellFormed_of_foldlM hstate), hfiles]
      simp [filesDelta]
    have hbytes := h.bytes
    refine ⟨⟨_, _, _⟩, planPatches_eq_ok_iff.mpr ⟨state, [], hstate, rfl, h.files, ?_, ?_, rfl⟩, ?_⟩
    · rw [hdelta]
      omega
    · rw [hdelta]
      omega
    · simp [hfiles]

/-! ## Stageable probe patches -/

/-- The patch of the anchor is accepted and recorded with the appended text. -/
def ProbeStageable (sha : ByteArray → String) (tree : Tree) (file : String) (relative : RelPath)
    (limits : CandidateLimits) (content appended : Text) : Prop :=
  ∃ old new, appendUnique content appended = some (some (old, new)) ∧
    PlansAppended tree file relative limits content appended old new ∧
    ∀ patch, anchorPatch sha content appended = .ok patch →
      patch.patchedSha256 = sha (encodeUtf8 (content ++ appended)) ∧
        patch.patchedBytes = (encodeUtf8 (content ++ appended)).size

/-- The probe patch is stageable exactly when the first ending that is counted once is not
overlapped by another match, and is the whole file unless it is refused for its size. -/
theorem probe_stageable_iff (sha : ByteArray → String) (tree : Tree) (file : String) (relative : RelPath)
    (limits : CandidateLimits) (content appended : Text) (hne : content ≠ [])
    (h : Anchored tree file relative limits content appended) :
    ProbeStageable sha tree file relative limits content appended ↔
      ∀ k, FirstCountedOnce content k → (∃ i, OccursOnceAt content (ending content k) i) ∧
        (ending content k = content ∨ maxHarnessBytes < utf8Len (ending content k) + utf8Len appended) := by
  obtain ⟨k, hk, happend⟩ := appendUnique_spec hne appended
  have hplans := plansAppended_iff h (hk.ending_ne_nil hne) (ending_suffix content k)
  have hrecorded : (∀ patch, anchorPatch sha content appended = .ok patch →
      patch.patchedSha256 = sha (encodeUtf8 (content ++ appended)) ∧
        patch.patchedBytes = (encodeUtf8 (content ++ appended)).size) ↔
      (ending content k = content ∨ maxHarnessBytes < utf8Len (ending content k) + utf8Len appended) := by
    unfold anchorPatch
    rw [happend]
    simp only [Option.join_some, String.utf8Len_append]
    by_cases hlarge : maxHarnessBytes < utf8Len (ending content k) + utf8Len appended
    · rw [if_pos hlarge]
      simp [hlarge]
    · rw [if_neg hlarge]
      constructor
      · intro hpatch
        obtain ⟨-, hbytes⟩ := hpatch _ rfl
        obtain ⟨pre, hpre⟩ := ending_suffix content k
        have hlen := congrArg utf8Len hpre
        rw [String.utf8Len_append] at hlen
        rw [size_encodeUtf8, String.utf8Len_append] at hbytes
        have hnil : pre = [] := String.utf8Len_eq_zero.mp (by dsimp only at hbytes; omega)
        rw [hnil, List.nil_append] at hpre
        exact Or.inl hpre
      · rintro (hwhole | hlarge')
        · intro patch hpatch
          obtain rfl := Except.ok.inj hpatch
          rw [hwhole]
          exact ⟨rfl, by simp⟩
        · exact absurd hlarge' hlarge
  constructor
  · rintro ⟨old, new, hsome, haccepted, hpatch⟩ k' hk'
    obtain rfl := hk.unique hk'
    obtain ⟨rfl, rfl⟩ := Prod.mk.inj (Option.some.inj (Option.some.inj (happend.symm.trans hsome)))
    exact ⟨hplans.mp haccepted, hrecorded.mp hpatch⟩
  · intro hcondition
    obtain ⟨honce, hwhole⟩ := hcondition k hk
    exact ⟨_, _, happend, hplans.mpr honce, hrecorded.mpr hwhole⟩

end

def anchorTree (content : Text) : Tree := (∅ : Tree).insert [.unicode "lib.rs"] (.file (encodeUtf8 content))

/-- Limits with room for a probe. -/
def anchorLimits : CandidateLimits := ⟨1, 200, 10, 1000⟩

/-- The patch of a short anchor is stageable. -/
theorem probe_stageable_short :
    ProbeStageable Sha256.sha256Hex (anchorTree "pub mod a;\n".toList) "lib.rs" [.unicode "lib.rs"] anchorLimits
      "pub mod a;\n".toList "\nmod probe;\n".toList := by
  refine (probe_stageable_iff Sha256.sha256Hex (anchorTree "pub mod a;\n".toList) "lib.rs" [.unicode "lib.rs"]
    anchorLimits "pub mod a;\n".toList "\nmod probe;\n".toList (by decide) ?_).mpr fun k _ => ?_
  · exact ⟨by decide +kernel, by decide +kernel, by decide, by decide⟩
  · have hwhole : ending "pub mod a;\n".toList k = "pub mod a;\n".toList := by
      refine tailOf_of_le ?_
      have := Nat.one_le_two_pow (n := k)
      have hlen : utf8Len "pub mod a;\n".toList = 11 := by decide
      omega
    rw [hwhole]
    exact ⟨⟨0, occursOnceAt_self _⟩, Or.inl rfl⟩

/-- A file that ends with a line of dashes. -/
def ruledContent : Text := "pub mod a;\n//".toList ++ List.replicate 100 '-'

/-- An ending of dashes is counted once and stands there many times. -/
theorem ruled_anchor_is_refused :
    ¬ ∀ (sha : ByteArray → String) (tree : Tree) (file : String) (relative : RelPath) (limits : CandidateLimits)
      (content appended : Text), content ≠ [] → Anchored tree file relative limits content appended →
      ProbeStageable sha tree file relative limits content appended := by
  intro hclaim
  obtain ⟨old, new, hsome, ⟨plan, hplan, -⟩, -⟩ := hclaim Sha256.sha256Hex (anchorTree ruledContent) "lib.rs"
    [.unicode "lib.rs"] anchorLimits ruledContent "\nmod probe;\n".toList (by decide)
    ⟨by decide +kernel, by decide +kernel, by decide, by decide⟩
  have hpatch : appendUnique ruledContent "\nmod probe;\n".toList =
      some (some (List.replicate 64 '-', List.replicate 64 '-' ++ "\nmod probe;\n".toList)) := by
    decide +kernel
  have hrefused : planPatches (anchorTree ruledContent) [⟨"lib.rs", String.ofList (List.replicate 64 '-'),
      String.ofList (List.replicate 64 '-' ++ "\nmod probe;\n".toList)⟩] [] anchorLimits =
      .error "oldString occurs more than once in the candidate file: lib.rs" := by
    decide +kernel
  obtain ⟨rfl, rfl⟩ := Prod.mk.inj (Option.some.inj (Option.some.inj (hpatch.symm.trans hsome)))
  rw [hrefused] at hplan
  cases hplan

end AgzRustMcp.Api
