import AgzRustMcp.Foundation.Matches
import AgzRustMcp.Change.Simultaneous
import AgzRustMcp.Change.Snapshot

/-!
# Reversing the patch log

`reverse_apply` of `change/runtime.rs` takes the recorded patches back from the last to the first.
A patch is taken back where its new string matches first, which need not be where it was applied;
`reverseApply_restores_iff` says that the baseline text comes back just when it is.
-/

namespace AgzRustMcp

open String (utf8Len)
open Utf8Text Checked

/-- One turn of the first loop of `reverse_apply`: a patch is taken back. -/
def reversePatch (tree : Tree) (patch : StoredPatch) : Except SnapshotError Tree :=
  match normalizeRelative patch.file with
  | .error error => .error (.invalid ("patch path is invalid: " ++ error))
  | .ok relative =>
    let shown := relativePathString relative
    match tree.lookup relative with
    | none =>
      .error (.incomparable ("baseline file " ++ shown ++
        " is unavailable while reversing a patch: " ++ notFoundText))
    | some .dir | some .symlink =>
      .error (.incomparable ("baseline file " ++ shown ++ " is not a regular file"))
    | some (.file contents) =>
      match decodeUtf8? contents with
      | none =>
        .error (.incomparable ("baseline file " ++ shown ++
          " could not be read as UTF-8: stream did not contain valid UTF-8"))
      | some text =>
        let count := matchCount text patch.newString.toList
        if count ≠ 1 then
          .error (.incomparable ("baseline reconstruction is ambiguous: the staged bytes of " ++
            shown ++ " match the recorded newString " ++ toString count ++ " times"))
        else
          let restored := replaceFirst text patch.newString.toList patch.oldString.toList
          .ok (tree.insert relative (.file (encodeUtf8 restored)))

/-- One turn of the second loop of `reverse_apply`: a new file is removed. -/
def removeNewFile (tree : Tree) (file : StoredNewFile) : Except SnapshotError Tree :=
  match normalizeRelative file.file with
  | .error error => .error (.invalid ("new file path is invalid: " ++ error))
  | .ok relative =>
    match tree.lookup relative with
    | none => .ok tree
    | some (.file _) => .ok (tree.erase relative)
    | some .dir | some .symlink =>
      .error (.incomparable ("baseline new file " ++ relativePathString relative ++ " is not a regular file"))

/-- The turns of both loops, in their order. -/
def reverseTurns (patches : List StoredPatch) (newFiles : List StoredNewFile) : List (StoredPatch ⊕ StoredNewFile) :=
  patches.reverse.map .inl ++ newFiles.map .inr

/-- One turn, which a cancellation or a failing file operation may stop. -/
def reverseTurn (stopped : ℕ → Option SnapshotError) (tree : Tree)
    (turn : (StoredPatch ⊕ StoredNewFile) × ℕ) : Except SnapshotError Tree :=
  match stopped turn.2 with
  | some error => .error error
  | none =>
    match turn.1 with
    | .inl patch => reversePatch tree patch
    | .inr file => removeNewFile tree file

def reverseApply (stopped : ℕ → Option SnapshotError) (tree : Tree) (patches : List StoredPatch)
    (newFiles : List StoredNewFile) : Except SnapshotError Tree :=
  (reverseTurns patches newFiles).zipIdx.foldlM (reverseTurn stopped) tree

/-! ## One file -/

def recordedAt (path : RelPath) (patches : List StoredPatch) : List StoredPatch :=
  patches.filter fun patch => decide (normalizeRelative patch.file = .ok path)

/-- What recorded patches make of a text.  The ranges of a stage only refuse more. -/
def applyRecorded (text : Text) (patches : List StoredPatch) : Except String Text :=
  patches.foldlM (fun text patch =>
    (matchPatch patch.file text [] patch.oldString.toList patch.newString.toList).map Prod.fst) text

/-- The text that a patch is taken back from. -/
def reverseText (text : Text) (patch : StoredPatch) : Option Text :=
  if matchCount text patch.newString.toList = 1 then
    some (replaceFirst text patch.newString.toList patch.oldString.toList)
  else none

/-- After each patch, its new string is found first where its old string was. -/
def FoundAgain (text : Text) : List StoredPatch → Prop
  | [] => True
  | patch :: patches =>
    let next := replaceFirst text patch.oldString.toList patch.newString.toList
    find? next patch.newString.toList = find? text patch.oldString.toList ∧ FoundAgain next patches

/-- The condition is decided by computing the texts. -/
def FoundAgain.decide : (text : Text) → (patches : List StoredPatch) → Decidable (FoundAgain text patches)
  | _, [] => .isTrue trivial
  | _, _ :: patches => @instDecidableAnd _ _ _ (FoundAgain.decide _ patches)

instance (text : Text) (patches : List StoredPatch) : Decidable (FoundAgain text patches) :=
  FoundAgain.decide text patches

section

variable {text text' candidate : Text} {patch : StoredPatch} {patches : List StoredPatch}

lemma exists_of_matchPatch {ranges ranges' : List (ℕ × ℕ)} {file : String} {old new : Text}
    (h : matchPatch file text ranges old new = .ok (text', ranges')) :
    ∃ pre suf, text = pre ++ old ++ suf ∧ OccursOnceAt text old (utf8Len pre) ∧ text' = pre ++ new ++ suf := by
  obtain ⟨pre, suf, htext, honce, -, htext', -⟩ := matchPatch_eq_ok_iff.mp h
  exact ⟨pre, suf, htext, honce, htext'⟩

lemma exists_of_reverseText (h : reverseText text patch = some text') :
    ∃ pre suf, text = pre ++ patch.newString.toList ++ suf ∧ find? text patch.newString.toList = some (utf8Len pre) ∧
      text' = pre ++ patch.oldString.toList ++ suf := by
  unfold reverseText at h
  split_ifs at h with hcount
  obtain ⟨i, hfind⟩ := exists_find?_of_matchCount (hcount.trans_ne one_ne_zero)
  obtain ⟨⟨pre, suf, htext, rfl⟩, -⟩ := find?_eq_some_iff.mp hfind
  refine ⟨pre, suf, htext, hfind, ?_⟩
  rw [← Option.some.inj h, htext]
  exact replaceFirst_append (htext ▸ hfind)

lemma reverseText_eq_iff {source made : Text}
    (happly : matchPatch patch.file source [] patch.oldString.toList patch.newString.toList = .ok (made, ranges))
    (h : reverseText text patch = some text') :
    text' = source ↔ text = made ∧ find? made patch.newString.toList = find? source patch.oldString.toList := by
  obtain ⟨pre, suf, hsource, honce, hmade⟩ := exists_of_matchPatch happly
  obtain ⟨pre', suf', htext, hfind, htext'⟩ := exists_of_reverseText h
  have hplace := (occursOnceAt_iff.mp honce).1
  constructor
  · intro heq
    -- the old string stands in the source where it was put back, and it stands there once
    have hat : utf8Len pre' = utf8Len pre :=
      (honce _).mp ⟨pre', suf', by rw [← heq, htext'], rfl⟩
    have hsplit : pre' ++ (patch.oldString.toList ++ suf') = pre ++ (patch.oldString.toList ++ suf) := by
      rw [← List.append_assoc, ← List.append_assoc, ← htext', ← hsource, heq]
    obtain ⟨rfl, hrest⟩ := append_inj_of_utf8Len hsplit hat
    obtain rfl := List.append_cancel_left hrest
    have hsame : text = made := by rw [htext, hmade]
    exact ⟨hsame, by rw [← hsame, hfind, hplace]⟩
  · rintro ⟨rfl, hfound⟩
    rw [hfind, hplace, Option.some.injEq] at hfound
    have hsplit : pre' ++ (patch.newString.toList ++ suf') = pre ++ (patch.newString.toList ++ suf) := by
      rw [← List.append_assoc, ← List.append_assoc, ← htext, ← hmade]
    obtain ⟨rfl, hrest⟩ := append_inj_of_utf8Len hsplit hfound
    obtain rfl := List.append_cancel_left hrest
    rw [htext', hsource]

/-- The text after patches were taken back. -/
def reverseTexts (text : Text) (patches : List StoredPatch) : Option Text :=
  patches.foldlM reverseText text

lemma reverseTexts_eq_iff (happly : applyRecorded text patches = .ok candidate)
    (h : reverseTexts candidate patches.reverse = some text') : text' = text ↔ FoundAgain text patches := by
  induction patches generalizing text text' with
  | nil =>
    obtain rfl : text = candidate := by simpa [applyRecorded, pure, Except.pure] using happly
    obtain rfl : text = text' := by simpa [reverseTexts] using h
    simp [FoundAgain]
  | cons patch patches ih =>
    unfold applyRecorded at happly
    rw [List.foldlM_cons, bind_eq_ok_iff] at happly
    obtain ⟨made, hstep, hrest⟩ := happly
    obtain ⟨⟨made', ranges⟩, hmatch, rfl⟩ : ∃ state, matchPatch patch.file text []
        patch.oldString.toList patch.newString.toList = .ok state ∧ state.1 = made := by
      cases hmatch : matchPatch patch.file text [] patch.oldString.toList
          patch.newString.toList with
      | error reason => simp [hmatch, Except.map] at hstep
      | ok state => exact ⟨state, rfl, by simpa [hmatch, Except.map] using hstep⟩
    unfold reverseTexts at h
    rw [List.reverse_cons, List.foldlM_append, Option.bind_eq_bind, Option.bind_eq_some_iff] at h
    obtain ⟨last, hlast, hfirst⟩ := h
    have hreverse : reverseText last patch = some text' := by simpa using hfirst
    have hmade : replaceFirst text patch.oldString.toList patch.newString.toList = made' := by
      obtain ⟨pre, suf, htext, honce, hafter⟩ := exists_of_matchPatch hmatch
      subst htext
      rw [hafter]
      exact replaceFirst_append (occursOnceAt_iff.mp honce).1
    rw [reverseText_eq_iff hmatch hreverse, ih hrest hlast, FoundAgain]
    dsimp only
    rw [hmade]
    exact and_comm

end

/-! ## The whole reversal -/

section

variable {stopped : ℕ → Option SnapshotError} {tree tree' : Tree} {path : RelPath}

lemma exists_of_reversePatch {patch : StoredPatch} (h : reversePatch tree patch = .ok tree') :
    ∃ relative text text', normalizeRelative patch.file = .ok relative ∧
      fileAt tree relative = some (encodeUtf8 text) ∧ reverseText text patch = some text' ∧
      tree' = tree.insert relative (.file (encodeUtf8 text')) := by
  unfold reversePatch at h
  split at h
  · simp at h
  next relative hrel =>
  dsimp only at h
  split at h
  · simp at h
  · simp at h
  · simp at h
  next contents hlookup =>
  split at h
  · simp at h
  next text hdecode =>
  split_ifs at h with hcount
  rw [not_not] at hcount
  refine ⟨relative, text, _, hrel, ?_, if_pos hcount, (Except.ok.inj h).symm⟩
  rw [encodeUtf8_of_decodeUtf8? hdecode, fileAt, hlookup]

lemma fileAt_of_removeNewFile {file : StoredNewFile} (h : removeNewFile tree file = .ok tree')
    (hne : normalizeRelative file.file ≠ .ok path) : fileAt tree' path = fileAt tree path := by
  unfold removeNewFile at h
  split at h
  · simp at h
  next relative hrel =>
  have hpath : path ≠ relative := by
    rintro rfl
    exact hne hrel
  split at h
  · rw [Except.ok.inj h]
  · rw [← Except.ok.inj h, fileAt, Finmap.lookup_erase_ne hpath, fileAt]
  · simp at h
  · simp at h

lemma exists_reverseTexts {turns : List ((StoredPatch ⊕ StoredNewFile) × ℕ)} {text : Text}
    (h : turns.foldlM (reverseTurn stopped) tree = .ok tree')
    (hnew : ∀ turn ∈ turns, ∀ file, turn.1 = .inr file → normalizeRelative file.file ≠ .ok path)
    (htext : fileAt tree path = some (encodeUtf8 text)) :
    ∃ text', reverseTexts text (recordedAt path (turns.filterMap fun turn => turn.1.getLeft?)) =
        some text' ∧ fileAt tree' path = some (encodeUtf8 text') := by
  induction turns generalizing tree text with
  | nil =>
    obtain rfl : tree = tree' := by simpa [pure, Except.pure] using h
    exact ⟨text, rfl, htext⟩
  | cons turn turns ih =>
    rw [List.foldlM_cons, bind_eq_ok_iff] at h
    obtain ⟨mid, hturn, hrest⟩ := h
    have hnew' : ∀ turn ∈ turns, ∀ file, turn.1 = .inr file → normalizeRelative file.file ≠ .ok path :=
      fun turn hmem => hnew turn (List.mem_cons_of_mem _ hmem)
    obtain ⟨patch | file, index⟩ := turn
    all_goals
      unfold reverseTurn at hturn
      split at hturn
      · simp at hturn
    · obtain ⟨relative, before, after, hrel, hbefore, hreverse, rfl⟩ :=
        exists_of_reversePatch hturn
      by_cases hpath : path = relative
      · subst hpath
        obtain rfl : before = text := by
          rw [hbefore] at htext
          exact encodeUtf8_injective (Option.some.inj htext)
        have hafter : fileAt (tree.insert path (.file (encodeUtf8 after))) path = some (encodeUtf8 after) := by
          rw [fileAt, Finmap.lookup_insert]
        obtain ⟨text', htexts, hfinal⟩ := ih hrest hnew' hafter
        refine ⟨text', ?_, hfinal⟩
        have hat : recordedAt path (patch :: turns.filterMap fun turn => turn.1.getLeft?) =
            patch :: recordedAt path (turns.filterMap fun turn => turn.1.getLeft?) := by
          unfold recordedAt
          rw [List.filter_cons, if_pos (by simpa using hrel)]
        rw [List.filterMap_cons_some (by rfl), hat, reverseTexts, List.foldlM_cons, hreverse]
        exact htexts
      · have hsame : fileAt (tree.insert relative (.file (encodeUtf8 after))) path = some (encodeUtf8 text) := by
          rw [fileAt, Finmap.lookup_insert_of_ne _ hpath, ← htext, fileAt]
        obtain ⟨text', htexts, hfinal⟩ := ih hrest hnew' hsame
        refine ⟨text', ?_, hfinal⟩
        have hat : recordedAt path (patch :: turns.filterMap fun turn => turn.1.getLeft?) =
            recordedAt path (turns.filterMap fun turn => turn.1.getLeft?) := by
          unfold recordedAt
          rw [List.filter_cons, if_neg]
          rw [hrel, decide_eq_true_iff]
          exact fun heq => hpath (Except.ok.inj heq).symm
        rw [List.filterMap_cons_some (by rfl), hat]
        exact htexts
    · have hkeep : fileAt mid path = fileAt tree path :=
        fileAt_of_removeNewFile hturn (hnew _ List.mem_cons_self file rfl)
      obtain ⟨text', htexts, hfinal⟩ := ih hrest hnew' (hkeep.trans htext)
      refine ⟨text', ?_, hfinal⟩
      rw [List.filterMap_cons_none (by rfl)]
      exact htexts

end

/-- A reversal gives the baseline just when each patch of the file is found in place. -/
theorem reverseApply_restores_iff (stopped : ℕ → Option SnapshotError) (tree tree' : Tree)
    (patches : List StoredPatch) (newFiles : List StoredNewFile) (path : RelPath)
    (baseline candidate : Text)
    (hforward : applyRecorded baseline (recordedAt path patches) = .ok candidate)
    (hcandidate : fileAt tree path = some (encodeUtf8 candidate))
    (hnew : ∀ file ∈ newFiles, normalizeRelative file.file ≠ .ok path)
    (h : reverseApply stopped tree patches newFiles = .ok tree') :
    ∃ text, fileAt tree' path = some (encodeUtf8 text) ∧
      (text = baseline ↔ FoundAgain baseline (recordedAt path patches)) := by
  have hturns : ∀ turn ∈ (reverseTurns patches newFiles).zipIdx, ∀ file, turn.1 = .inr file →
      normalizeRelative file.file ≠ .ok path := by
    rintro ⟨turn, index⟩ hturn file rfl
    have hmem := List.fst_mem_of_mem_zipIdx hturn
    simp only [reverseTurns, List.mem_append, List.mem_map, reduceCtorEq, and_false, exists_false,
      false_or, Sum.inr.injEq, exists_eq_right] at hmem
    exact hnew file hmem
  obtain ⟨text, htexts, hfinal⟩ := exists_reverseTexts h hturns hcandidate
  have hpatches : (reverseTurns patches newFiles).zipIdx.filterMap (fun turn => turn.1.getLeft?) =
      patches.reverse := by
    rw [show (fun turn : (StoredPatch ⊕ StoredNewFile) × ℕ => turn.1.getLeft?) =
      Sum.getLeft? ∘ Prod.fst from rfl, ← List.filterMap_map, List.zipIdx_map_fst, reverseTurns,
      List.filterMap_append, List.filterMap_map, List.filterMap_map]
    simp [Function.comp_def]
  rw [hpatches, recordedAt, List.filter_reverse] at htexts
  exact ⟨text, hfinal, reverseTexts_eq_iff hforward htexts⟩

/-- Two patches of a file, as they are recorded. -/
def recordedPatches : List StoredPatch := [⟨"lib.rs", "one", "1"⟩, ⟨"lib.rs", "two", "second"⟩]

def fileTree (text : String) : Tree :=
  (∅ : Tree).insert [.unicode "lib.rs"] (.file (encodeUtf8 text.toList))

/-- The reversal of the two patches. -/
theorem reverseApply_restores_two_patches :
    (reverseApply (fun _ => none) (fileTree "1 second") recordedPatches []).toOption.bind
        (fileAt · [.unicode "lib.rs"]) = some (encodeUtf8 "one two".toList) := by
  cases hreverse : reverseApply (fun _ => none) (fileTree "1 second") recordedPatches [] with
  | error error =>
    have hok : (reverseApply (fun _ => none) (fileTree "1 second") recordedPatches
      []).toOption.isSome = true := by decide +kernel
    simp [hreverse, Except.toOption] at hok
  | ok tree' =>
    have hat : recordedAt [.unicode "lib.rs"] recordedPatches = recordedPatches := by
      decide +kernel
    obtain ⟨text, hfile, hiff⟩ := reverseApply_restores_iff (fun _ => none) (fileTree "1 second")
      tree' recordedPatches [] [.unicode "lib.rs"] "one two".toList "1 second".toList
      (by decide +kernel) (by decide +kernel) (by simp) hreverse
    rw [hat] at hiff
    rw [← hiff.mpr (by decide +kernel)]
    exact hfile

/-- A patch whose new string overlaps an earlier match goes back elsewhere. -/
theorem reversed_elsewhere :
    (reverseApply (fun _ => none) (fileTree "aaa") [⟨"lib.rs", "x", "aa"⟩] []).toOption.bind
        (fileAt · [.unicode "lib.rs"]) = some (encodeUtf8 "xa".toList) ∧
    ¬ ∀ (stopped : ℕ → Option SnapshotError) (tree tree' : Tree) (patches : List StoredPatch)
      (newFiles : List StoredNewFile) (path : RelPath) (baseline candidate : Text),
      applyRecorded baseline (recordedAt path patches) = .ok candidate →
      fileAt tree path = some (encodeUtf8 candidate) →
      (∀ file ∈ newFiles, normalizeRelative file.file ≠ .ok path) →
      reverseApply stopped tree patches newFiles = .ok tree' →
      fileAt tree' path = some (encodeUtf8 baseline) := by
  have hwrong : (reverseApply (fun _ => none) (fileTree "aaa") [⟨"lib.rs", "x", "aa"⟩]
      []).toOption.bind (fileAt · [.unicode "lib.rs"]) = some (encodeUtf8 "xa".toList) := by
    decide +kernel
  refine ⟨hwrong, fun h => ?_⟩
  cases hreverse : reverseApply (fun _ => none) (fileTree "aaa") [⟨"lib.rs", "x", "aa"⟩] [] with
  | error error => simp [hreverse, Except.toOption] at hwrong
  | ok tree' =>
    have hfile := h (fun _ => none) (fileTree "aaa") tree' [⟨"lib.rs", "x", "aa"⟩] []
      [.unicode "lib.rs"] "ax".toList "aaa".toList (by decide +kernel) (by decide +kernel) (by simp)
      hreverse
    rw [hreverse] at hwrong
    have hsame : encodeUtf8 "ax".toList = encodeUtf8 "xa".toList := by
      simpa [Except.toOption, hfile] using hwrong
    exact absurd (encodeUtf8_injective hsame) (by decide)

end AgzRustMcp
