import AgzRustMcp.Change.PatchDigest
import AgzRustMcp.Change.Simultaneous

/-!
# What the hash of a repair candidate determines

`candidate_hash` sorts the patches of a candidate before it hashes them, but `plan_patches` goes
through them in the order of the list.  The fields are also printed as in the patch log.
`candidateHash_sound_iff` says which accepted candidates share their hash with no candidate that is
staged differently.
-/

namespace AgzRustMcp

open Utf8Text Checked Delimited

/-! ## The hash -/

/-- The order of the triples that `candidate_hash` sorts. -/
def PatchInput.before (left right : PatchInput) : Bool :=
  decide (left.file < right.file) || decide (left.file = right.file) &&
    (decide (left.oldString < right.oldString) || decide (left.oldString = right.oldString) &&
      decide (left.newString ≤ right.newString))

def candidateHash (sha : ByteArray → String) (patches : List PatchInput) : String :=
  let canonical := patches.mergeSort PatchInput.before
  let patchText (patch : PatchInput) : String :=
    patch.file ++ "\x00" ++ patch.oldString ++ "\x00" ++ patch.newString ++ "\x00"
  sha ("agz-rust-mcp-repair-candidate\x00" ++ String.join (canonical.map patchText)).toByteArray

def candidateFields (patch : PatchInput) : List Text :=
  [patch.file.toList, patch.oldString.toList, patch.newString.toList]

def candidateText (patches : List PatchInput) : Text :=
  terminated nul ("agz-rust-mcp-repair-candidate".toList ::
    (patches.mergeSort PatchInput.before).flatMap candidateFields)

/-- Both candidates are refused, or both are accepted and write the same bytes. -/
def StagedAlike (tree : Tree) (limits : CandidateLimits) (patches other : List PatchInput) : Prop :=
  match planPatches tree patches [] limits, planPatches tree other [] limits with
  | .ok plan, .ok plan' => ∀ path, writtenAt plan.files path = writtenAt plan'.files path
  | .error _, .error _ => True
  | _, _ => False

lemma candidateHash_eq (sha : ByteArray → String) (patches : List PatchInput) :
    candidateHash sha patches = sha (encodeUtf8 (candidateText patches)) := by
  have hfields : ∀ canonical : List PatchInput, (canonical.map fun patch =>
      patch.file ++ "\x00" ++ patch.oldString ++ "\x00" ++ patch.newString ++ "\x00").flatMap
        String.toList = terminated nul (canonical.flatMap candidateFields) := by
    intro canonical
    induction canonical with
    | nil => rfl
    | cons patch canonical ih =>
      simp only [List.map_cons, List.flatMap_cons, terminated_append, ih]
      simp [candidateFields, nul]
  unfold candidateHash encodeUtf8
  dsimp only
  congr 2
  rw [← String.toList_inj]
  simp only [String.toList_append, String.toList_join, hfields, String.toList_ofList]
  simp [candidateText, nul]

/-! ## Orders of the patches -/

lemma PatchInput.before_antisymm {a b : PatchInput} (h : a.before b = true) (h' : b.before a = true) : a = b := by
  simp only [PatchInput.before, Bool.or_eq_true, Bool.and_eq_true, decide_eq_true_eq] at h h'
  cases a
  cases b
  grind

lemma PatchInput.before_trans (a b c : PatchInput) (h : a.before b = true)
    (h' : b.before c = true) : a.before c = true := by
  simp only [PatchInput.before, Bool.or_eq_true, Bool.and_eq_true, decide_eq_true_eq] at h h' ⊢
  grind

lemma PatchInput.before_total (a b : PatchInput) : (a.before b || b.before a) = true := by
  simp only [PatchInput.before, Bool.or_eq_true, Bool.and_eq_true, decide_eq_true_eq]
  grind

lemma mergeSort_eq_of_perm {patches patches' : List PatchInput} (h : patches.Perm patches') :
    patches.mergeSort PatchInput.before = patches'.mergeSort PatchInput.before := by
  refine List.Perm.eq_of_pairwise (fun a b _ _ hab hba => PatchInput.before_antisymm hab hba)
    (List.pairwise_mergeSort PatchInput.before_trans PatchInput.before_total patches)
    (List.pairwise_mergeSort PatchInput.before_trans PatchInput.before_total patches') ?_
  exact (List.mergeSort_perm patches _).trans (h.trans (List.mergeSort_perm patches' _).symm)

lemma candidateHash_eq_of_perm (sha : ByteArray → String) {patches patches' : List PatchInput}
    (h : patches.Perm patches') : candidateHash sha patches = candidateHash sha patches' := by
  rw [candidateHash_eq, candidateHash_eq, candidateText, candidateText, mergeSort_eq_of_perm h]

lemma fields_of_candidateHash_eq {sha : ByteArray → String} (hsha : Function.Injective sha)
    {patches other : List PatchInput} (h : candidateHash sha other = candidateHash sha patches) :
    terminated nul ((other.mergeSort PatchInput.before).flatMap candidateFields) =
      terminated nul ((patches.mergeSort PatchInput.before).flatMap candidateFields) := by
  rw [candidateHash_eq, candidateHash_eq] at h
  have htext := encodeUtf8_injective (hsha h)
  simp only [candidateText, terminated_cons] at htext
  have hheader : nul ∉ "agz-rust-mcp-repair-candidate".toList := by decide
  exact (Numerals.append_cons_inj hheader hheader htext).2

lemma candidateHash_singleton_eq (sha : ByteArray → String) {patch : PatchInput}
    {patches : List PatchInput} (h : terminated nul (candidateFields patch) =
      terminated nul ((patches.mergeSort PatchInput.before).flatMap candidateFields)) :
    candidateHash sha [patch] = candidateHash sha patches := by
  rw [candidateHash_eq, candidateHash_eq, candidateText, candidateText, List.mergeSort_singleton,
    List.flatMap_cons, List.flatMap_nil, List.append_nil, terminated_cons, h, ← terminated_cons]

lemma candidateFields_injective : Function.Injective candidateFields := by
  intro patch patch' h
  simp only [candidateFields, List.cons.injEq, String.toList_inj, and_true] at h
  cases patch
  cases patch'
  simpa using h

lemma perm_of_candidateHash_eq {sha : ByteArray → String} (hsha : Function.Injective sha)
    {patches other : List PatchInput} (hpatches : ∀ patch ∈ patches, ∀ field ∈ candidateFields patch, nul ∉ field)
    (hother : ∀ patch ∈ other, ∀ field ∈ candidateFields patch, nul ∉ field)
    (h : candidateHash sha other = candidateHash sha patches) : other.Perm patches := by
  have hclean : ∀ l : List PatchInput, (∀ patch ∈ l, ∀ field ∈ candidateFields patch, nul ∉ field) →
      ∀ field ∈ (l.mergeSort PatchInput.before).flatMap candidateFields, nul ∉ field := by
    intro l hl field hfield
    obtain ⟨patch, hpatch, hmem⟩ := List.mem_flatMap.mp hfield
    exact hl patch (List.mem_mergeSort.mp hpatch) field hmem
  have hfields := eq_of_terminated_eq (hclean other hother) (hclean patches hpatches)
    (fields_of_candidateHash_eq hsha h)
  have hsorted := eq_of_flatMap_eq (by norm_num : 0 < 3) (fun _ => rfl)
    (fun _ _ _ _ heq => candidateFields_injective heq) hfields
  exact (List.mergeSort_perm other _).symm.trans (hsorted ▸ List.mergeSort_perm patches _)

lemma count_matchPatches (c : Char) {text text' : Text} {ranges ranges' : List (ℕ × ℕ)}
    {patches : List PatchInput} (h : matchPatches (text, ranges) patches = .ok (text', ranges')) :
    text'.count c + (patches.map fun patch => patch.oldString.toList.count c).sum =
      text.count c + (patches.map fun patch => patch.newString.toList.count c).sum := by
  induction patches generalizing text ranges with
  | nil =>
    obtain ⟨rfl, rfl⟩ : text = text' ∧ ranges = ranges' := by
      simpa [matchPatches, pure, Except.pure] using h
    rfl
  | cons patch patches ih =>
    unfold matchPatches at h
    rw [List.foldlM_cons, bind_eq_ok_iff] at h
    obtain ⟨⟨updated, ranges₁⟩, hmatch, hrest⟩ := h
    obtain ⟨pre, suf, rfl, -, -, rfl, -⟩ := matchPatch_eq_ok_iff.mp hmatch
    have hcount := ih hrest
    simp only [List.map_cons, List.sum_cons, List.count_append] at hcount ⊢
    omega

section

variable {tree : Tree} {limits : CandidateLimits} {patches : List PatchInput} {plan plan' : PatchPlan}

lemma writtenAt_ne_none_iff (h : planPatches tree patches [] limits = .ok plan) (path : RelPath) :
    writtenAt plan.files path ≠ none ↔ patchesAt path patches ≠ [] := by
  have hnew : plan.newFiles = [] := by
    obtain ⟨state, newPlanned, -, hnew, -, -, -, rfl⟩ := planPatches_eq_ok_iff.mp h
    simpa [pure, Except.pure] using hnew.symm
  rw [ne_eq, writtenAt_eq_none_iff, not_not, mem_targets_iff h, hnew]
  simp [patchesAt]

lemma count_of_writtenAt_eq (c : Char) {patch : PatchInput} (h : planPatches tree patches [] limits = .ok plan)
    (h' : planPatches tree [patch] [] limits = .ok plan')
    (hsame : ∀ path, writtenAt plan.files path = writtenAt plan'.files path) :
    ∃ path, normalizeRelative patch.file = .ok path ∧ patchesAt path patches ≠ [] ∧
      ((patchesAt path patches).map fun p => p.newString.toList.count c).sum + patch.oldString.toList.count c =
        ((patchesAt path patches).map fun p => p.oldString.toList.count c).sum + patch.newString.toList.count c := by
  obtain ⟨path, hrel⟩ := exists_path_of_mem_patches h' List.mem_cons_self
  have hone : patchesAt path [patch] = [patch] := patchesAt_cons_of_eq hrel []
  have hpatches' : patchesAt path [patch] ≠ [] := by simp [hone]
  have hpatches : patchesAt path patches ≠ [] := by
    rw [← writtenAt_ne_none_iff h, hsame, writtenAt_ne_none_iff h', hone]
    simp
  obtain ⟨text, after, _, hread, hmatches, hwritten⟩ := matchPatches_of_planPatches h hpatches
  obtain ⟨text', after', _, hread', hmatches', hwritten'⟩ :=
    matchPatches_of_planPatches h' hpatches'
  obtain rfl : text = text' := encodeUtf8_injective (Except.ok.inj (hread.symm.trans hread'))
  obtain rfl : after = after' := by
    have hbytes := hsame path
    rw [hwritten, hwritten', Option.some.injEq] at hbytes
    exact encodeUtf8_injective hbytes
  have hcount := count_matchPatches c hmatches
  have hcount' := count_matchPatches c hmatches'
  rw [hone] at hcount'
  simp only [List.map_cons, List.map_nil, List.sum_cons, List.sum_nil] at hcount'
  exact ⟨path, hrel, hpatches, by omega⟩

lemma stagedAlike_iff_of_ok (h : planPatches tree patches [] limits = .ok plan) (other : List PatchInput) :
    StagedAlike tree limits patches other ↔ ∃ plan', planPatches tree other [] limits = .ok plan' ∧
        ∀ path, writtenAt plan.files path = writtenAt plan'.files path := by
  unfold StagedAlike
  rw [h]
  cases planPatches tree other [] limits with
  | error reason => simp
  | ok plan' => simp

/-! ## Candidates that print alike and are staged differently -/

/-- The candidate is empty, or one patch without a zero byte. -/
def LonePatch (patches : List PatchInput) : Prop :=
  patches = [] ∨ ∃ patch, patches = [patch] ∧ ∀ field ∈ candidateFields patch, nul ∉ field

lemma exists_stagedOtherwise_of_two {patch : PatchInput} {rest : List PatchInput}
    (sha : ByteArray → String) (h : planPatches tree patches [] limits = .ok plan)
    (hsorted : patches.mergeSort PatchInput.before = patch :: rest) (hrest : rest ≠ []) :
    ∃ other, candidateHash sha other = candidateHash sha patches ∧ ¬ StagedAlike tree limits patches other := by
  obtain ⟨last, hlast⟩ :=
    exists_terminated_eq (d := nul) patch.newString.toList (rest.flatMap candidateFields)
  have hprint : terminated nul (candidateFields ⟨patch.file, patch.oldString, String.ofList last⟩) =
      terminated nul ((patches.mergeSort PatchInput.before).flatMap candidateFields) := by
    rw [hsorted]
    simp only [candidateFields, String.toList_ofList, List.flatMap_cons, List.cons_append,
      List.nil_append, terminated_cons, terminated_nil] at hlast ⊢
    rw [hlast]
  refine ⟨[⟨patch.file, patch.oldString, String.ofList last⟩], candidateHash_singleton_eq sha hprint, ?_⟩
  rw [stagedAlike_iff_of_ok h]
  rintro ⟨plan', h', hsame⟩
  obtain ⟨path, hrel, -, hcount⟩ := count_of_writtenAt_eq nul h h' hsame
  dsimp only at hrel hcount
  rw [String.toList_ofList] at hcount
  have hperm : patches.Perm (patch :: rest) := hsorted ▸ (List.mergeSort_perm patches _).symm
  -- The old string of the first patch is among those that are removed.
  have hold : patch.oldString.toList.count nul ≤
      ((patchesAt path patches).map fun p => p.oldString.toList.count nul).sum := by
    refine List.single_le_sum (by simp) _ (List.mem_map.mpr ⟨patch, ?_, rfl⟩)
    exact List.mem_filter.mpr ⟨hperm.mem_iff.mpr List.mem_cons_self, by simpa using hrel⟩
  have hnew : ((patchesAt path patches).map fun p => p.newString.toList.count nul).sum ≤
      patch.newString.toList.count nul + (rest.map fun p => p.newString.toList.count nul).sum := by
    calc ((patchesAt path patches).map fun p => p.newString.toList.count nul).sum
        ≤ (patches.map fun p => p.newString.toList.count nul).sum :=
          (List.Sublist.map _ List.filter_sublist).sum_le_sum (by simp)
      _ = ((patch :: rest).map fun p => p.newString.toList.count nul).sum :=
          (hperm.map _).sum_eq
      _ = _ := by rw [List.map_cons, List.sum_cons]
  have htotal := congrArg (List.count nul) hlast
  rw [count_terminated, count_terminated] at htotal
  have hfields : (rest.map fun p => p.newString.toList.count nul).sum < (rest.flatMap candidateFields).length +
        ((rest.flatMap candidateFields).map (List.count nul)).sum := by
    clear hlast hprint hsorted hperm hnew htotal h'
    induction rest with
    | nil => exact absurd rfl hrest
    | cons p rest ih =>
      rcases eq_or_ne rest [] with rfl | hne
      · simp [candidateFields]
        omega
      · have hih := ih hne
        simp only [List.map_cons, List.sum_cons, List.flatMap_cons, List.length_append,
          List.map_append, List.sum_append, candidateFields, List.length_cons, List.length_nil,
          List.map_nil, List.sum_nil] at hih ⊢
        omega
  simp only [List.length_cons, List.length_nil, List.map_cons, List.map_nil, List.sum_cons, List.sum_nil] at htotal
  omega

lemma exists_stagedOtherwise_of_nul {patch : PatchInput} {field : Text} (sha : ByteArray → String)
    (h : planPatches tree [patch] [] limits = .ok plan) (hfield : field ∈ candidateFields patch)
    (hnul : nul ∈ field) :
    ∃ other, candidateHash sha other = candidateHash sha [patch] ∧ ¬ StagedAlike tree limits [patch] other := by
  have hdiffers : ∀ other : PatchInput,
      terminated nul (candidateFields other) = terminated nul (candidateFields patch) →
      patch.newString.toList.count nul + other.oldString.toList.count nul ≠
        patch.oldString.toList.count nul + other.newString.toList.count nul →
      ∃ other, candidateHash sha other = candidateHash sha [patch] ∧ ¬ StagedAlike tree limits [patch] other := by
    intro other hprint hcount
    refine ⟨[other], candidateHash_singleton_eq sha ?_, ?_⟩
    · rw [hprint, List.mergeSort_singleton, List.flatMap_cons, List.flatMap_nil, List.append_nil]
    · rw [stagedAlike_iff_of_ok h]
      rintro ⟨plan', h', hsame⟩
      obtain ⟨path, -, hne, hsum⟩ := count_of_writtenAt_eq nul h h' hsame
      have hone : patchesAt path [patch] = [patch] := by
        unfold patchesAt at hne ⊢
        rw [List.filter_cons] at hne ⊢
        split_ifs at hne ⊢ with hpath
        · rfl
        · exact absurd rfl hne
      rw [hone] at hsum
      simp only [List.map_cons, List.map_nil, List.sum_cons, List.sum_nil] at hsum
      omega
  obtain ⟨before, after, rfl⟩ := List.append_of_mem hnul
  simp only [candidateFields, List.mem_cons, List.not_mem_nil, or_false] at hfield
  rcases hfield with hfile | hold | hnew
  · refine hdiffers ⟨String.ofList before, String.ofList (after ++ nul :: patch.oldString.toList),
      patch.newString⟩ ?_ ?_
    · simp [candidateFields, ← hfile]
    · simp only [String.toList_ofList, List.count_append, List.count_cons_self]
      omega
  · refine hdiffers ⟨patch.file, String.ofList before, String.ofList (after ++ nul :: patch.newString.toList)⟩ ?_ ?_
    · simp [candidateFields, ← hold]
    · simp only [← hold, String.toList_ofList, List.count_append, List.count_cons_self]
      omega
  · refine hdiffers ⟨patch.file, String.ofList (patch.oldString.toList ++ nul :: before), String.ofList after⟩ ?_ ?_
    · simp [candidateFields, ← hnew]
    · simp only [← hnew, String.toList_ofList, List.count_append, List.count_cons_self]
      omega

lemma LonePatch.eq_of_candidateHash {sha : ByteArray → String} (hsha : Function.Injective sha)
    (h : LonePatch patches) {other : List PatchInput}
    (hhash : candidateHash sha other = candidateHash sha patches) : other = patches := by
  have hfields := fields_of_candidateHash_eq hsha hhash
  have hlen : ∀ l : List PatchInput,
      ((l.mergeSort PatchInput.before).flatMap candidateFields).length = 3 * l.length := by
    intro l
    rw [List.length_flatMap, show (fun p => (candidateFields p).length) = fun _ => 3 from rfl,
      List.map_const', List.sum_replicate, List.length_mergeSort, smul_eq_mul, Nat.mul_comm]
  have hcount := length_le_count_terminated (d := nul)
    ((other.mergeSort PatchInput.before).flatMap candidateFields)
  rcases h with rfl | ⟨patch, rfl, hclean⟩
  · rw [hfields, hlen] at hcount
    simp only [List.mergeSort_nil, List.flatMap_nil, terminated_nil, List.count_nil] at hcount
    exact List.eq_nil_of_length_eq_zero (by omega)
  · rw [List.mergeSort_singleton, List.flatMap_cons, List.flatMap_nil, List.append_nil] at hfields
    have hthree : (terminated nul (candidateFields patch)).count nul = 3 :=
      count_terminated_of_notMem hclean
    rw [hfields, hthree, hlen] at hcount
    match other with
    | [] =>
      rw [List.mergeSort_nil, List.flatMap_nil, terminated_nil] at hfields
      rw [← hfields] at hthree
      exact absurd hthree (by simp)
    | [single] =>
      rw [List.mergeSort_singleton, List.flatMap_cons, List.flatMap_nil, List.append_nil] at hfields
      have hsingle : ∀ field ∈ candidateFields single, nul ∉ field :=
        notMem_of_count_terminated (by rw [hfields, hthree]; rfl)
      rw [candidateFields_injective (eq_of_terminated_eq hsingle hclean hfields)]
    | _ :: _ :: _ =>
      simp only [List.length_cons] at hcount
      omega

end

/-- All candidates with one hash are staged alike just when it is of the empty one or of one patch
without a zero byte. -/
theorem candidateHash_sound_iff (sha : ByteArray → String) (hsha : Function.Injective sha)
    (tree : Tree) (limits : CandidateLimits) (patches : List PatchInput) (plan : PatchPlan)
    (h : planPatches tree patches [] limits = .ok plan) :
    ((∀ other, candidateHash sha other = candidateHash sha patches →
      StagedAlike tree limits patches other) ↔ LonePatch patches) ∧
    ((∀ patch ∈ patches, ∀ field ∈ candidateFields patch, nul ∉ field) →
      ∀ other plan', (∀ patch ∈ other, ∀ field ∈ candidateFields patch, nul ∉ field) →
        candidateHash sha other = candidateHash sha patches →
        planPatches tree other [] limits = .ok plan' →
        other.Perm patches ∧ StagedAlike tree limits patches other) := by
  constructor
  · constructor
    · intro hall
      match hsorted : patches.mergeSort PatchInput.before with
      | [] =>
        have hlen := congrArg List.length hsorted
        rw [List.length_mergeSort] at hlen
        exact Or.inl (List.eq_nil_of_length_eq_zero hlen)
      | [patch] =>
        have hperm : patches.Perm [patch] := hsorted ▸ (List.mergeSort_perm patches _).symm
        obtain rfl := List.perm_singleton.mp hperm
        refine Or.inr ⟨patch, rfl, fun field hfield hnul => ?_⟩
        obtain ⟨other, hhash, hnot⟩ := exists_stagedOtherwise_of_nul sha h hfield hnul
        exact hnot (hall other hhash)
      | patch :: next :: rest =>
        obtain ⟨other, hhash, hnot⟩ :=
          exists_stagedOtherwise_of_two sha h hsorted (List.cons_ne_nil next rest)
        exact absurd (hall other hhash) hnot
    · intro hlone other hhash
      obtain rfl := hlone.eq_of_candidateHash hsha hhash
      exact (stagedAlike_iff_of_ok h other).mpr ⟨plan, h, fun _ => rfl⟩
  · intro hclean other plan' hother hhash h'
    have hperm := perm_of_candidateHash_eq hsha hclean hother hhash
    refine ⟨hperm, (stagedAlike_iff_of_ok h other).mpr ⟨plan', h', fun path => ?_⟩⟩
    by_cases hpath : patchesAt path patches = []
    · have hpath' : patchesAt path other = [] := by
        have hfilter : (patchesAt path other).Perm (patchesAt path patches) := hperm.filter _
        rw [hpath] at hfilter
        exact hfilter.eq_nil
      have hnone := (writtenAt_ne_none_iff h path).not.mpr (not_not.mpr hpath)
      have hnone' := (writtenAt_ne_none_iff h' path).not.mpr (not_not.mpr hpath')
      rw [not_not.mp hnone, not_not.mp hnone']
    · exact planned_in_any_order hperm.symm h h' hpath

def countingCandidate : List PatchInput := [⟨"lib.rs", "one", "1"⟩]

/-- A function without collisions that is the hash at that candidate. -/
def countingSha : ByteArray → String :=
  Sha256.exactAt (encodeUtf8 (candidateText countingCandidate))

/-- Every candidate with the hash of the one patch is staged like it. -/
theorem candidateHash_sound_one_patch :
    LonePatch countingCandidate ∧
      ∀ other, candidateHash countingSha other = candidateHash countingSha countingCandidate →
        StagedAlike countingTree countingLimits countingCandidate other := by
  have hplan : planPatches countingTree countingCandidate [] countingLimits =
      .ok ⟨[⟨[.unicode "lib.rs"], encodeUtf8 "1 two".toList, true, 7⟩], countingCandidate, []⟩ := by
    decide +kernel
  have hlone : LonePatch countingCandidate := Or.inr ⟨_, rfl, by decide⟩
  exact ⟨hlone, ((candidateHash_sound_iff countingSha (Sha256.exactAt_injective _) countingTree
    countingLimits countingCandidate _ hplan).1).mpr hlone⟩

/-- A candidate whose second patch becomes unique by its first one. -/
def dependentCandidate : List PatchInput := [⟨"lib.rs", "ax", "b"⟩, ⟨"lib.rs", "x", "c"⟩]

/-- The file that the two patches are for. -/
def dependentTree : Tree :=
  (∅ : Tree).insert [.unicode "lib.rs"] (.file (encodeUtf8 "x ax".toList))

/-- In the other order the candidate is refused, and it has the same hash. -/
theorem reordered_candidate_refused :
    ((∀ sha : ByteArray → String,
        candidateHash sha dependentCandidate = candidateHash sha dependentCandidate.reverse) ∧
      (planPatches dependentTree dependentCandidate [] countingLimits).toOption.isSome = true ∧
      planPatches dependentTree dependentCandidate.reverse [] countingLimits =
        .error "oldString occurs more than once in the candidate file: lib.rs") ∧
    ¬ ∀ sha : ByteArray → String, Function.Injective sha → ∀ (tree : Tree)
      (limits : CandidateLimits) (patches other : List PatchInput),
      candidateHash sha other = candidateHash sha patches → StagedAlike tree limits patches other := by
  have hhash : ∀ sha : ByteArray → String,
      candidateHash sha dependentCandidate = candidateHash sha dependentCandidate.reverse :=
    fun sha => candidateHash_eq_of_perm sha (List.reverse_perm dependentCandidate).symm
  have haccepted :
      (planPatches dependentTree dependentCandidate [] countingLimits).toOption.isSome = true := by
    decide +kernel
  have hrefused : planPatches dependentTree dependentCandidate.reverse [] countingLimits =
      .error "oldString occurs more than once in the candidate file: lib.rs" := by decide +kernel
  refine ⟨⟨hhash, haccepted, hrefused⟩, fun h => ?_⟩
  have halike := h countingSha (Sha256.exactAt_injective _) dependentTree countingLimits
    dependentCandidate.reverse dependentCandidate (hhash countingSha)
  unfold StagedAlike at halike
  rw [hrefused] at halike
  cases hplan : planPatches dependentTree dependentCandidate [] countingLimits with
  | error reason => simp [hplan, Except.toOption] at haccepted
  | ok plan => simp [hplan] at halike

end AgzRustMcp
