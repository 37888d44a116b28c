import AgzRustMcp.Change.Replay
import AgzRustMcp.Change.Verify

/-!
# Snapshots of the candidate

A copy of the candidate is measured only when its files are those of the capture manifest, overlaid
with the recorded hashes, overlaid with the recorded new files.  The hash of a new file is not
refreshed by a later patch: `Overlay` is the invariant of runs in which no stage patches a created
file.
-/

namespace AgzRustMcp

open Checked
open Std (ExtTreeMap ExtTreeSet)

/-! ## Expected files -/

inductive SnapshotError where
  | notFound
  | invalid (reason : String)
  | stale (reason : String)
  | incomparable (reason : String)
  | cancelled
  | unavailable (reason : String)

/-- The hash and the size of every file, by the text of its path. -/
abbrev FileDigests := ExtTreeMap String (String × ℕ)

def manifestFiles (manifest : CaptureManifest) : FileDigests :=
  OrderedMap.insertAll ∅ (manifest.files.map fun entry => (entry.path, entry.sha256, entry.bytes))

def recordRelative (file : String) : Except SnapshotError String :=
  match normalizeRelative file with
  | .ok path => .ok (relativePathString path)
  | .error error => .error (.invalid ("recorded path " ++ file ++ " is invalid: " ++ error))

/-- One turn of the loops of `expected_candidate_files`. -/
def expectFile (expected : FileDigests) (file : String) (sha256 : String) (bytes : ℕ) :
    Except SnapshotError FileDigests := do
  let relative ← recordRelative file
  return expected.insert relative (sha256, bytes)

def expectedCandidateFiles (record : ChangeRecord) (manifest : CaptureManifest) :
    Except SnapshotError FileDigests := do
  let hashed ← record.sourceHashes.toList.foldlM
    (fun expected entry => expectFile expected entry.1 entry.2.sha256 entry.2.bytes)
    (manifestFiles manifest)
  record.newFiles.foldlM (fun expected file => expectFile expected file.file file.sha256 file.bytes)
    hashed

/-- One turn of the loop of `expected_baseline_files`. -/
def withoutNewFile (expected : FileDigests) (file : StoredNewFile) : Except SnapshotError FileDigests := do
  let relative ← recordRelative file.file
  if expected.contains relative then
    .error (.incomparable ("cannot reconstruct the baseline: new file " ++ relative ++ " replaced a captured file"))
  else return expected

def expectedBaselineFiles (record : ChangeRecord) (manifest : CaptureManifest) : Except SnapshotError FileDigests :=
  record.newFiles.foldlM withoutNewFile (manifestFiles manifest)

/-! ## Walking a tree -/

/-- The entries of a tree in the order in which a walk meets them. -/
structure Walk (tree : Tree) where
  entries : List RelPath
  mem_entries : ∀ path, path ∈ entries ↔ tree.lookup path ≠ none

/-- What a snapshot meets outside the change directory. -/
structure SnapshotEnv where
  walk : (tree : Tree) → Walk tree
  destinationExists : Bool
  createFault : Option String
  /-- The directory of the copy. -/
  root : String
  cancelled : RelPath → Bool
  cancelledAfterCopy : Bool
  copyFault : RelPath → Option String
  readFault : RelPath → Option String

def copySkipped : List OsName := [.unicode ".git", .unicode "target"]

def maxReportedExtraFiles : ℕ := 8

/-- The locals of `copy_tree_bounded` and the copy it writes. -/
structure CopyState where
  skipped : ExtTreeSet String
  files : ℕ
  bytes : ℕ
  copy : Tree

/-- One entry of `copy_tree_bounded`; below a skipped one nothing is visited. -/
def copyEntry (config : ChangeConfig) (env : SnapshotEnv) (tree : Tree) (state : CopyState)
    (path : RelPath) : Except String CopyState :=
  if path.dropLast.any copySkipped.contains then .ok state
  else if env.cancelled path then .error "cancelled during snapshot copy"
  else
    match env.copyFault path, tree.lookup path with
    | some reason, _ => .error reason
    | none, none => .ok state
    | none, some .symlink =>
      .error ("snapshot input " ++ relativePathString path ++ " is a symlink; runtime comparison is fail-closed")
    | none, some .dir =>
      if path.getLast?.any copySkipped.contains ∧ state.skipped.size < maxReportedExtraFiles then
        .ok { state with skipped := state.skipped.insert (relativePathString path) }
      else .ok state
    | none, some (.file contents) =>
      let files := saturatingAdd state.files 1
      let bytes := saturatingAdd state.bytes contents.size
      if files > config.maxFiles then
        .error ("snapshot copy exceeds the " ++ toString config.maxFiles ++ "-file bound")
      else if bytes > config.maxBytes then
        .error ("snapshot copy exceeds the " ++ toString config.maxBytes ++ "-byte bound")
      else
        .ok { state with
          files
          bytes
          copy := (createDirAll state.copy path).insert path (.file contents) }

/-- `copy_tree_bounded`: the copy and the directories that were left out. -/
def copyTreeBounded (config : ChangeConfig) (env : SnapshotEnv) (tree : Tree) :
    Except String (Tree × List String) := do
  let state ← (env.walk tree).entries.foldlM (copyEntry config env tree) ⟨∅, 0, 0, ∅⟩
  return (state.copy, state.skipped.toList)

/-- The locals of `verify_and_digest`. -/
structure DigestState where
  seen : ExtTreeSet String
  extras : List String

/-- One entry of `verify_and_digest`. -/
def verifyEntry (sha : ByteArray → String) (env : SnapshotEnv) (tree : Tree)
    (expected : FileDigests) (state : DigestState) (path : RelPath) : Except SnapshotError DigestState :=
  match env.readFault path, tree.lookup path with
  | some reason, _ => .error (.unavailable reason)
  | none, none => .ok state
  | none, some .dir => .ok state
  | none, some .symlink =>
    .error (.incomparable ("snapshot file " ++ env.root ++ "/" ++ relativePathString path ++ " is a symlink"))
  | none, some (.file contents) =>
    let relative := relativePathString path
    match expected[relative]? with
    | none =>
      if state.extras.length < maxReportedExtraFiles then
        .ok { state with extras := state.extras ++ [relative] }
      else .ok state
    | some (expectedHash, expectedBytes) =>
      if contents.size ≠ expectedBytes then
        .error (.incomparable ("snapshot file " ++ relative ++ " is " ++ toString contents.size ++
          " bytes but the recorded revision has " ++ toString expectedBytes))
      else if sha contents ≠ expectedHash then
        .error (.incomparable ("snapshot file " ++ relative ++ " does not match the recorded revision hash"))
      else .ok { state with seen := state.seen.insert relative }

/-- The digest over the expected files. -/
def sourceDigest (sha : ByteArray → String) (expected : FileDigests) : String :=
  let entryText (entry : String × String × ℕ) : String :=
    entry.1 ++ "\x00" ++ entry.2.1 ++ "\x00" ++ toString entry.2.2 ++ "\x00"
  sha ("agz-rust-mcp-runtime-source-v1\x00" ++ String.join (expected.toList.map entryText)).toByteArray

def verifyAndDigest (sha : ByteArray → String) (env : SnapshotEnv) (tree : Tree)
    (expected : FileDigests) : Except SnapshotError String := do
  let state ← (env.walk tree).entries.foldlM (verifyEntry sha env tree expected) ⟨∅, []⟩
  if state.extras ≠ [] then
    .error (.incomparable ("snapshot contains files that are not part of the captured revision: " ++
      ", ".intercalate state.extras))
  else
    let missing := (expected.keys.filter fun path => !state.seen.contains path).take
      maxReportedExtraFiles
    if missing ≠ [] then
      .error (.incomparable ("snapshot is missing recorded revision files: " ++ ", ".intercalate missing))
    else return sourceDigest sha expected

/-- The candidate half of `materialize_runtime_snapshots`, from its check on. -/
def snapshotCandidate (sha : ByteArray → String) (config : ChangeConfig) (env : SnapshotEnv)
    (dir : ChangeDir) (record : ChangeRecord) : Except SnapshotError String :=
  match verifyCandidateBytes sha dir.candidate record, dir.manifest with
  | .error reason, _ => .error (.incomparable reason)
  | .ok _, none =>
    .error (.unavailable ("capture manifest is unavailable: " ++ notFoundText))
  | .ok _, some manifest => do
    let expected ← expectedCandidateFiles record manifest
    let _ ← expectedBaselineFiles record manifest
    if env.destinationExists then
      .error (.invalid "the runtime snapshot destination already exists")
    else
      match env.createFault, copyTreeBounded config env dir.candidate with
      | some reason, _ => .error (.unavailable reason)
      | none, .error reason =>
        .error (if env.cancelledAfterCopy then .cancelled else .unavailable reason)
      | none, .ok (copy, _) => verifyAndDigest sha env copy expected

/-! ## What the checks accept -/

section Checks

variable {sha : ByteArray → String} {tree : Tree} {expected : FileDigests} {env : SnapshotEnv}

/-- The map has hash and size of exactly the files of the tree. -/
def ListsFiles (sha : ByteArray → String) (tree : Tree) (digests : FileDigests) : Prop :=
  ∀ k digest, digests[k]? = some digest ↔
    ∃ path contents, fileAt tree path = some contents ∧ relativePathString path = k ∧
      digest = (sha contents, contents.size)

lemma recordRelative_eq_ok {path : RelPath} (h : NormalPath path) (htrim : SurvivesTrim path) :
    recordRelative (relativePathString path) = .ok (relativePathString path) := by
  unfold recordRelative
  rw [normalizeRelative_relativePathString h htrim]

lemma foldlM_expectFile {α : Type} {entries : List α} {file sha256 : α → String} {bytes : α → ℕ}
    (h : ∀ entry ∈ entries, recordRelative (file entry) = .ok (file entry)) (expected : FileDigests) :
    entries.foldlM (fun m entry => expectFile m (file entry) (sha256 entry) (bytes entry)) expected =
      .ok (OrderedMap.insertAll expected (entries.map fun entry => (file entry, sha256 entry, bytes entry))) := by
  induction entries generalizing expected with
  | nil => rfl
  | cons entry entries ih =>
    rw [List.foldlM_cons, bind_eq_ok_iff]
    refine ⟨expected.insert (file entry) (sha256 entry, bytes entry), ?_,
      ih (fun e he => h e (List.mem_cons_of_mem _ he)) _⟩
    unfold expectFile
    rw [h entry List.mem_cons_self]
    rfl

lemma verifyEntry_of_listsFiles (hlists : ListsFiles sha tree expected)
    (hlinks : ∀ p, tree.lookup p ≠ some .symlink) (state : DigestState) (path : RelPath) :
    (∃ reason, verifyEntry sha env tree expected state path = .error (.unavailable reason)) ∨
      ∃ seen, verifyEntry sha env tree expected state path = .ok ⟨seen, state.extras⟩ ∧ (∀ k ∈ state.seen, k ∈ seen) ∧
        (fileAt tree path ≠ none → relativePathString path ∈ seen) := by
  unfold verifyEntry fileAt
  cases env.readFault path with
  | some reason => exact Or.inl ⟨reason, rfl⟩
  | none =>
    right
    cases hlookup : tree.lookup path with
    | none => exact ⟨state.seen, rfl, fun _ hk => hk, by simp⟩
    | some node =>
      cases node with
      | dir => exact ⟨state.seen, rfl, fun _ hk => hk, by simp⟩
      | symlink => exact absurd hlookup (hlinks path)
      | file contents =>
        have hfile : fileAt tree path = some contents := by simp [fileAt, hlookup]
        have hexpected : expected[relativePathString path]? = some (sha contents, contents.size) :=
          (hlists _ _).mpr ⟨path, contents, hfile, rfl, rfl⟩
        refine ⟨state.seen.insert (relativePathString path), ?_, ?_, ?_⟩
        · simp [hexpected]
        · intro k hk
          exact ExtTreeSet.mem_insert.mpr (Or.inr hk)
        · intro _
          exact ExtTreeSet.mem_insert_self

lemma foldlM_verifyEntry (hlists : ListsFiles sha tree expected)
    (hlinks : ∀ p, tree.lookup p ≠ some .symlink) (entries : List RelPath) (state : DigestState) :
    (∃ reason, entries.foldlM (verifyEntry sha env tree expected) state = .error (.unavailable reason)) ∨
      ∃ seen, entries.foldlM (verifyEntry sha env tree expected) state =
          .ok ⟨seen, state.extras⟩ ∧ (∀ k ∈ state.seen, k ∈ seen) ∧
        ∀ path ∈ entries, fileAt tree path ≠ none → relativePathString path ∈ seen := by
  induction entries generalizing state with
  | nil => exact Or.inr ⟨state.seen, rfl, fun _ hk => hk, by simp⟩
  | cons path entries ih =>
    rw [List.foldlM_cons]
    rcases verifyEntry_of_listsFiles hlists hlinks state path with
      ⟨reason, hturn⟩ | ⟨seen, hturn, hkept, hpath⟩
    · exact Or.inl ⟨reason, by rw [hturn]; rfl⟩
    · rw [hturn]
      rcases ih ⟨seen, state.extras⟩ with ⟨reason, hrest⟩ | ⟨seen', hrest, hkept', hrestPath⟩
      · exact Or.inl ⟨reason, hrest⟩
      · refine Or.inr ⟨seen', hrest, fun k hk => hkept' k (hkept k hk), ?_⟩
        intro q hq hfile
        rcases List.mem_cons.mp hq with rfl | hq
        · exact hkept' _ (hpath hfile)
        · exact hrestPath q hq hfile

lemma verifyAndDigest_ne_incomparable (hlists : ListsFiles sha tree expected)
    (hlinks : ∀ p, tree.lookup p ≠ some .symlink) (reason : String) :
    verifyAndDigest sha env tree expected ≠ .error (.incomparable reason) := by
  unfold verifyAndDigest
  have hcases : (∃ reason, (env.walk tree).entries.foldlM (verifyEntry sha env tree expected)
      ⟨∅, []⟩ = .error (.unavailable reason)) ∨ _ :=
    foldlM_verifyEntry hlists hlinks (env.walk tree).entries ⟨∅, []⟩
  rcases hcases with ⟨fault, hwalk⟩ | ⟨seen, hwalk, -, hseen⟩
  · rw [hwalk]
    simp [bind, Except.bind]
  · have hmissing : expected.keys.filter (fun path => !seen.contains path) = [] := by
      rw [List.filter_eq_nil_iff]
      intro k hk
      obtain ⟨digest, hdigest⟩ := Option.isSome_iff_exists.mp
        (ExtTreeMap.mem_iff_isSome_getElem?.mp (ExtTreeMap.mem_keys.mp hk))
      obtain ⟨path, contents, hfile, rfl, -⟩ := (hlists k digest).mp hdigest
      have hmem : path ∈ (env.walk tree).entries := by
        rw [(env.walk tree).mem_entries]
        intro hnone
        simp [fileAt, hnone] at hfile
      have := hseen path hmem (by simp [hfile])
      simpa [ExtTreeSet.contains_iff_mem] using this
    rw [hwalk]
    simp [bind, Except.bind, hmissing, pure, Except.pure]

end Checks

/-! ## Copying -/

/-- The tree has no symbolic link, and nothing under a name that a copy leaves out. -/
structure Plain (tree : Tree) : Prop where
  not_symlink : ∀ p, tree.lookup p ≠ some .symlink
  not_skipped : ∀ p, tree.lookup p ≠ none → ∀ name ∈ p, name ∉ copySkipped

lemma Plain.empty : Plain ∅ := ⟨fun p => by simp, fun p hp => absurd rfl hp⟩

lemma Plain.write {tree : Tree} (h : Plain tree) {path : RelPath}
    (hpath : ∀ name ∈ path, name ∉ copySkipped) (contents : ByteArray) :
    Plain ((createDirAll tree path).insert path (.file contents)) := by
  refine ⟨fun p => ?_, fun p hp name hname => ?_⟩
  · by_cases heq : p = path
    · subst heq
      simp
    · rw [Finmap.lookup_insert_of_ne _ heq, lookup_createDirAll]
      split_ifs
      · simp
      · exact h.not_symlink p
  · by_cases heq : p = path
    · subst heq
      exact hpath name hname
    · rw [Finmap.lookup_insert_of_ne _ heq, lookup_createDirAll] at hp
      split_ifs at hp with hmade
      · have hstem := (mem_ancestors_iff.mp hmade.2).1
        exact hpath name (List.dropLast_subset _ (hstem.subset hname))
      · exact h.not_skipped p hp name hname

lemma fileAt_write (tree : Tree) (path q : RelPath) (contents : ByteArray) :
    fileAt ((createDirAll tree path).insert path (.file contents)) q =
      if q = path then some contents else fileAt tree q := by
  by_cases hq : q = path
  · subst hq
    simp [fileAt]
  · rw [if_neg hq, ← fileAt_createDirAll tree path q]
    unfold fileAt
    rw [Finmap.lookup_insert_of_ne _ hq]

section Copy

variable {config : ChangeConfig} {env : SnapshotEnv} {tree : Tree} {state state' : CopyState}

lemma copyEntry_eq_ok {path : RelPath} (h : copyEntry config env tree state path = .ok state') :
    (state'.copy = state.copy ∧ ((∃ name ∈ path, name ∈ copySkipped) ∨ fileAt tree path = none)) ∨
      ∃ contents, tree.lookup path = some (.file contents) ∧
        state'.copy = (createDirAll state.copy path).insert path (.file contents) := by
  unfold copyEntry at h
  split at h
  · rename_i hskip
    obtain ⟨name, hname, hmem⟩ := List.any_eq_true.mp hskip
    refine Or.inl ⟨by rw [← Except.ok.inj h], Or.inl ⟨name, List.dropLast_subset _ hname, ?_⟩⟩
    exact List.contains_iff_mem.mp hmem
  split at h
  · simp at h
  split at h
  · simp at h
  · rename_i hlookup
    exact Or.inl ⟨by rw [← Except.ok.inj h], Or.inr (by simp [fileAt, hlookup])⟩
  · simp at h
  · rename_i hlookup
    refine Or.inl ⟨?_, Or.inr (by simp [fileAt, hlookup])⟩
    split at h <;> rw [← Except.ok.inj h]
  next contents _ hlookup =>
  dsimp only at h
  split at h
  · simp at h
  split at h
  · simp at h
  exact Or.inr ⟨contents, hlookup, by rw [← Except.ok.inj h]⟩

lemma fileAt_copyEntry (htree : Plain tree) {path : RelPath}
    (h : copyEntry config env tree state path = .ok state') (q : RelPath) : fileAt state'.copy q =
      if q = path then (fileAt tree path).or (fileAt state.copy q) else fileAt state.copy q := by
  rcases copyEntry_eq_ok h with ⟨hcopy, hreason⟩ | ⟨contents, hlookup, hcopy⟩
  · have hnone : fileAt tree path = none := by
      rcases hreason with ⟨name, hname, hskipped⟩ | hnone
      · by_contra hfile
        refine htree.not_skipped path (fun hlookup => hfile ?_) name hname hskipped
        simp [fileAt, hlookup]
      · exact hnone
    rw [hcopy, hnone, Option.none_or, ite_self]
  · have hfile : fileAt tree path = some contents := by simp [fileAt, hlookup]
    rw [hcopy, fileAt_write, hfile, Option.some_or]

lemma fileAt_foldlM_copyEntry (htree : Plain tree) {entries : List RelPath}
    (h : entries.foldlM (copyEntry config env tree) state = .ok state') (q : RelPath) : fileAt state'.copy q =
      if q ∈ entries then (fileAt tree q).or (fileAt state.copy q) else fileAt state.copy q := by
  induction entries generalizing state with
  | nil =>
    obtain rfl : state = state' := by simpa [pure, Except.pure] using h
    simp
  | cons path entries ih =>
    rw [List.foldlM_cons, bind_eq_ok_iff] at h
    obtain ⟨mid, hturn, hrest⟩ := h
    rw [ih hrest, fileAt_copyEntry htree hturn]
    by_cases hq : q = path
    · subst hq
      by_cases hmem : q ∈ entries
      · cases hfile : fileAt tree q <;> simp [hmem]
      · simp [hmem]
    · simp [hq]

lemma plain_copyEntry (htree : Plain tree) {path : RelPath} (hstate : Plain state.copy)
    (h : copyEntry config env tree state path = .ok state') : Plain state'.copy := by
  rcases copyEntry_eq_ok h with ⟨hcopy, -⟩ | ⟨contents, hlookup, hcopy⟩
  · rwa [hcopy]
  · rw [hcopy]
    exact hstate.write (htree.not_skipped path (by simp [hlookup])) contents

lemma copyTreeBounded_eq_ok (htree : Plain tree) {copy : Tree} {excluded : List String}
    (h : copyTreeBounded config env tree = .ok (copy, excluded)) : fileAt copy = fileAt tree ∧ Plain copy := by
  unfold copyTreeBounded at h
  rw [bind_eq_ok_iff] at h
  obtain ⟨state, hwalk, hstate⟩ := h
  obtain ⟨rfl, -⟩ := Prod.mk.inj (Except.ok.inj hstate)
  refine ⟨funext fun q => ?_, ?_⟩
  · rw [fileAt_foldlM_copyEntry htree hwalk]
    have hempty : fileAt (∅ : Tree) q = none := by simp [fileAt]
    simp only [hempty, Option.or_none, (env.walk tree).mem_entries]
    split_ifs with hlookup
    · rfl
    · simp [fileAt, not_not.mp hlookup]
  · exact foldlM_invariant (fun s : CopyState => Plain s.copy)
      (fun _ _ _ _ hturn hs => plain_copyEntry htree hs hturn) hwalk Plain.empty

end Copy

lemma not_skipped_append {env : CaptureEnv} {dir : RelPath} {name : OsName}
    (hdir : ∀ n ∈ dir, n ∉ copySkipped) (h : ¬ env.skips (dir ++ [name]) name) :
    ∀ n ∈ dir ++ [name], n ∉ copySkipped := by
  intro n hn
  rcases List.mem_append.mp hn with hn | hn
  · exact hdir n hn
  · obtain rfl := List.mem_singleton.mp hn
    intro hmem
    refine h ?_
    simp only [copySkipped, List.mem_cons, List.not_mem_nil, or_false] at hmem
    simp only [CaptureEnv.skips, CaptureEnv.excludes, Bool.or_eq_true, beq_iff_eq]
    exact Or.inl (Or.inl hmem)

lemma not_skipped_of_mem_levelFiles {env : CaptureEnv} {dir : RelPath} {listing : Listing}
    (hdir : ∀ name ∈ dir, name ∉ copySkipped) {f : RelPath × ByteArray}
    (h : f ∈ levelFiles env dir listing) : ∀ name ∈ f.1, name ∉ copySkipped := by
  induction listing with
  | nil => simp [levelFiles] at h
  | dir name entries rest _ ih => exact ih h
  | leaf name kind rest ih =>
    cases kind with
    | symlink => exact ih h
    | other => exact ih h
    | file size contents =>
      rw [levelFiles] at h
      split_ifs at h with hskips
      · exact ih h
      rcases List.mem_cons.mp h with rfl | h
      · exact not_skipped_append hdir hskips
      · exact ih h

lemma not_skipped_of_mem_deepFiles {env : CaptureEnv} {dir : RelPath} {listing : Listing}
    (hdir : ∀ name ∈ dir, name ∉ copySkipped) {f : RelPath × ByteArray}
    (h : f ∈ deepFiles env dir listing) : ∀ name ∈ f.1, name ∉ copySkipped := by
  induction listing generalizing dir with
  | nil => simp [deepFiles] at h
  | leaf name kind rest ih => exact ih hdir h
  | dir name entries rest ihEntries ihRest =>
    rw [deepFiles] at h
    split_ifs at h with hskips
    · exact ihRest hdir h
    have hbelow := not_skipped_append hdir hskips
    simp only [List.mem_append] at h
    rcases h with (h | h) | h
    · exact ihRest hdir h
    · exact not_skipped_of_mem_levelFiles hbelow h
    · exact ihEntries hbelow h

lemma plain_treeOf {files : List (RelPath × ByteArray)}
    (h : ∀ f ∈ files, ∀ name ∈ f.1, name ∉ copySkipped) : Plain (treeOf files) := by
  induction files using List.reverseRecOn with
  | nil => exact Plain.empty
  | append_singleton files f ih =>
    rw [treeOf_append_singleton]
    exact (ih fun g hg => h g (List.mem_append_left _ hg)).write (h f (by simp)) f.2

lemma Plain.applyPlan {fault : RelPath → Option ApplyFault} {tree tree' : Tree}
    {files : List PlannedFile} (htree : Plain tree) (h : AgzRustMcp.applyPlan fault tree files = (tree', none))
    (hnormal : ∀ file ∈ files, NormalPath file.relative) : Plain tree' := by
  induction files generalizing tree with
  | nil =>
    obtain rfl : tree = tree' := (Prod.mk.inj h).1
    exact htree
  | cons file files ih =>
    obtain ⟨written, hfile, hrest⟩ := applyPlan_cons_eq_none_iff.mp h
    have hfirst := hnormal file List.mem_cons_self
    obtain ⟨-, -, -, rfl⟩ := (applyFile_eq_none_iff hfirst.ne_nil).mp hfile
    refine ih (htree.write (fun name hname => ?_) file.contents) hrest
      fun f hf => hnormal f (List.mem_cons_of_mem _ hf)
    obtain ⟨text, rfl, hplain⟩ := hfirst.plain name hname
    simpa [copySkipped] using hplain.not_excluded

/-! ## The overlay over whole runs -/

/-- A stage call that is accepted patches no file that an earlier revision created. -/
def StageCall.SparesNewFiles (sha : ByteArray → String) (config : ChangeConfig)
    (timeline : Timeline) (call : StageCall) : Prop :=
  (stageBlocking sha config call.env call.request timeline.dir).2.isDone = true →
    ∀ record ∈ timeline.dir.record, ∀ patch ∈ call.request.patches, ∀ file ∈ record.newFiles,
      normalizePatchFile patch.file ≠ file.file

instance (sha : ByteArray → String) (config : ChangeConfig) (timeline : Timeline)
    (call : StageCall) : Decidable (call.SparesNewFiles sha config timeline) :=
  inferInstanceAs (Decidable (_ → _))

/-- No two files of the tree have paths with the same text. -/
def RenderedApart (tree : Tree) : Prop :=
  ∀ p q, fileAt tree p ≠ none → fileAt tree q ≠ none → relativePathString p = relativePathString q → p = q

lemma renderedApart_of_keys {tree : Tree}
    (h : ∀ p ∈ tree.keys, ∀ q ∈ tree.keys, relativePathString p = relativePathString q → p = q) :
    RenderedApart tree := by
  have hmem : ∀ p, fileAt tree p ≠ none → p ∈ tree.keys := by
    intro p hp
    rw [Finmap.mem_keys, ← Finmap.lookup_isSome, Option.isSome_iff_ne_none]
    intro hnone
    exact hp (by rw [fileAt, hnone])
  exact fun p q hp hq => h p (hmem p hp) q (hmem q hq)

/-- The manifest lists the files of the captured tree. -/
def ManifestOf (sha : ByteArray → String) (baseline : Tree) (manifest : CaptureManifest) : Prop :=
  ∀ entry, entry ∈ manifest.files ↔
    ∃ path contents, fileAt baseline path = some contents ∧ entry = manifestEntry sha path contents

/-- What a record keeps about its candidate while no created file is patched. -/
structure Overlay (record : ChangeRecord) (baseline candidate : Tree) (history : List Revision) : Prop where
  plain : Plain candidate
  untouched : ∀ p, relativePathString p ∉ writtenFiles history → fileAt candidate p = fileAt baseline p
  kept : ∀ p, fileAt baseline p ≠ none → fileAt candidate p ≠ none
  survives : WrittenSurvive history
  newFiles : ∀ file ∈ record.newFiles, record.sourceHashes[file.file]? = some ⟨file.sha256, file.bytes⟩ ∧
      ∃ path, NormalPath path ∧ relativePathString path = file.file ∧ fileAt baseline path = none

section Expected

variable {sha : ByteArray → String} {record : ChangeRecord} {baseline candidate : Tree}
  {history : List Revision} {manifest : CaptureManifest}

lemma Overlay.recordRelative_eq (h : Overlay record baseline candidate history)
    (hhashes : HashesCurrent sha record candidate history) {k : String} {hash : StoredHash}
    (hk : record.sourceHashes[k]? = some hash) : recordRelative k = .ok k := by
  obtain ⟨path, -, hnormal, rfl, -, -⟩ := hhashes.current k hash hk
  exact recordRelative_eq_ok hnormal
    (h.survives path hnormal ((hhashes.keys _).mp (by simp [hk])))

lemma Overlay.expectedCandidateFiles_eq (h : Overlay record baseline candidate history)
    (hhashes : HashesCurrent sha record candidate history) (manifest : CaptureManifest) :
    expectedCandidateFiles record manifest = .ok (OrderedMap.insertAll (OrderedMap.insertAll (manifestFiles manifest)
        (record.sourceHashes.toList.map fun entry => (entry.1, entry.2.sha256, entry.2.bytes)))
      (record.newFiles.map fun file => (file.file, file.sha256, file.bytes))) := by
  unfold expectedCandidateFiles
  rw [bind_eq_ok_iff]
  refine ⟨_, foldlM_expectFile (fun entry hentry => ?_) _, foldlM_expectFile (fun file hfile => ?_) _⟩
  · exact h.recordRelative_eq hhashes
      (ExtTreeMap.mem_toList_iff_getElem?_eq_some.mp (hentry : (entry.1, entry.2) ∈ _))
  · exact h.recordRelative_eq hhashes (h.newFiles file hfile).1

lemma Overlay.getElem?_expected (h : Overlay record baseline candidate history)
    (manifest : CaptureManifest) (k : String) : (OrderedMap.insertAll (OrderedMap.insertAll (manifestFiles manifest)
        (record.sourceHashes.toList.map fun entry => (entry.1, entry.2.sha256, entry.2.bytes)))
      (record.newFiles.map fun file => (file.file, file.sha256, file.bytes)))[k]? =
      match record.sourceHashes[k]? with
      | some hash => some (hash.sha256, hash.bytes)
      | none => (manifestFiles manifest)[k]? := by
  -- A new file carries the digest of its recorded hash, so the last layer changes nothing.
  have hnew : ∀ v, (k, v) ∈ record.newFiles.map (fun file => (file.file, file.sha256, file.bytes)) →
      ∃ hash, record.sourceHashes[k]? = some hash ∧ v = (hash.sha256, hash.bytes) := by
    intro v hv
    obtain ⟨file, hfile, heq⟩ := List.mem_map.mp hv
    obtain ⟨rfl, rfl⟩ := Prod.mk.inj heq
    exact ⟨_, (h.newFiles file hfile).1, rfl⟩
  have hhash : ∀ v, (k, v) ∈ record.sourceHashes.toList.map
      (fun entry => (entry.1, entry.2.sha256, entry.2.bytes)) →
      ∃ hash, record.sourceHashes[k]? = some hash ∧ v = (hash.sha256, hash.bytes) := by
    intro v hv
    obtain ⟨entry, hentry, heq⟩ := List.mem_map.mp hv
    obtain ⟨rfl, rfl⟩ := Prod.mk.inj heq
    exact ⟨entry.2, ExtTreeMap.mem_toList_iff_getElem?_eq_some.mp hentry, rfl⟩
  by_cases hlast : k ∈ (record.newFiles.map fun file => (file.file, file.sha256, file.bytes)).map
      Prod.fst
  · obtain ⟨v, hv, hget⟩ := OrderedMap.exists_mem_of_mem_keys
      (OrderedMap.insertAll (manifestFiles manifest) (record.sourceHashes.toList.map fun entry =>
        (entry.1, entry.2.sha256, entry.2.bytes))) hlast
    obtain ⟨hash, hsome, rfl⟩ := hnew v hv
    rw [hget, hsome]
  rw [OrderedMap.getElem?_insertAll_of_notMem _ hlast]
  cases hsome : record.sourceHashes[k]? with
  | some hash =>
    have hkey : k ∈ (record.sourceHashes.toList.map fun entry =>
        (entry.1, entry.2.sha256, entry.2.bytes)).map Prod.fst := by
      rw [List.map_map]
      exact List.mem_map.mpr ⟨(k, hash), ExtTreeMap.mem_toList_iff_getElem?_eq_some.mpr hsome, rfl⟩
    obtain ⟨v, hv, hget⟩ := OrderedMap.exists_mem_of_mem_keys (manifestFiles manifest) hkey
    obtain ⟨hash', hsome', rfl⟩ := hhash v hv
    obtain rfl := Option.some.inj (hsome.symm.trans hsome')
    exact hget
  | none =>
    refine OrderedMap.getElem?_insertAll_of_notMem _ fun hkey => ?_
    obtain ⟨entry, hentry, rfl⟩ := List.mem_map.mp hkey
    obtain ⟨hash, hsome', -⟩ := hhash entry.2 hentry
    rw [hsome] at hsome'
    cases hsome'

lemma ManifestOf.exists_file (h : ManifestOf sha baseline manifest) {k : String}
    {digest : String × ℕ} (hk : (manifestFiles manifest)[k]? = some digest) :
    ∃ path contents, fileAt baseline path = some contents ∧ relativePathString path = k ∧
      digest = (sha contents, contents.size) := by
  rcases OrderedMap.mem_or_getElem?_of_insertAll hk with hmem | ⟨-, hempty⟩
  · obtain ⟨entry, hentry, heq⟩ := List.mem_map.mp hmem
    obtain ⟨path, contents, hfile, rfl⟩ := (h entry).mp hentry
    obtain ⟨rfl, rfl⟩ := Prod.mk.inj heq
    exact ⟨path, contents, hfile, rfl, rfl⟩
  · simp at hempty

lemma ManifestOf.exists_digest (h : ManifestOf sha baseline manifest) {path : RelPath}
    {contents : ByteArray} (hfile : fileAt baseline path = some contents) :
    ∃ digest, (manifestFiles manifest)[relativePathString path]? = some digest := by
  have hkey : relativePathString path ∈
      (manifest.files.map fun entry => (entry.path, entry.sha256, entry.bytes)).map Prod.fst := by
    rw [List.map_map]
    exact List.mem_map.mpr ⟨_, (h _).mpr ⟨path, contents, hfile, rfl⟩, rfl⟩
  obtain ⟨digest, -, hget⟩ := OrderedMap.exists_mem_of_mem_keys (∅ : FileDigests) hkey
  exact ⟨digest, hget⟩

lemma Overlay.listsFiles (h : Overlay record baseline candidate history)
    (hhashes : HashesCurrent sha record candidate history)
    (hmanifest : ManifestOf sha baseline manifest) (hapart : RenderedApart candidate)
    {expected : FileDigests} (hexpected : expectedCandidateFiles record manifest = .ok expected) :
    ListsFiles sha candidate expected := by
  obtain rfl := Except.ok.inj ((h.expectedCandidateFiles_eq hhashes manifest).symm.trans hexpected)
  intro k digest
  rw [h.getElem?_expected]
  cases hsome : record.sourceHashes[k]? with
  | some hash =>
    obtain ⟨path, contents, -, rfl, hfile, rfl⟩ := hhashes.current k hash hsome
    constructor
    · intro heq
      exact ⟨path, contents, hfile, rfl, (Option.some.inj heq).symm⟩
    · rintro ⟨path', contents', hfile', htext, rfl⟩
      obtain rfl := hapart path' path (by simp [hfile']) (by simp [hfile]) htext
      obtain rfl := Option.some.inj (hfile.symm.trans hfile')
      rfl
  | none =>
    have hnot : k ∉ writtenFiles history := fun hmem => (hhashes.keys k).mpr hmem hsome
    constructor
    · intro hget
      obtain ⟨path, contents, hfile, rfl, rfl⟩ := hmanifest.exists_file hget
      exact ⟨path, contents, by rw [h.untouched path hnot, hfile], rfl, rfl⟩
    · rintro ⟨path, contents, hfile, rfl, rfl⟩
      have hbase : fileAt baseline path = some contents := by rw [← h.untouched path hnot, hfile]
      obtain ⟨digest, hget⟩ := hmanifest.exists_digest hbase
      obtain ⟨path', contents', hfile', htext, rfl⟩ := hmanifest.exists_file hget
      have hcand : fileAt candidate path' = some contents' := by
        rw [h.untouched path' (htext ▸ hnot), hfile']
      obtain rfl := hapart path' path (by simp [hcand]) (by simp [hfile]) htext
      obtain rfl := Option.some.inj (hfile.symm.trans hcand)
      exact hget

lemma Overlay.expectedBaselineFiles_eq (h : Overlay record baseline candidate history)
    (hhashes : HashesCurrent sha record candidate history)
    (hmanifest : ManifestOf sha baseline manifest) (hapart : RenderedApart candidate) :
    expectedBaselineFiles record manifest = .ok (manifestFiles manifest) := by
  have hturn : ∀ file ∈ record.newFiles,
      withoutNewFile (manifestFiles manifest) file = .ok (manifestFiles manifest) := by
    intro file hfile
    obtain ⟨hhash, path, hnormal, htext, hnone⟩ := h.newFiles file hfile
    have hnot : (manifestFiles manifest).contains file.file = false := by
      by_contra hcontains
      rw [Bool.not_eq_false, ExtTreeMap.contains_iff_mem, ExtTreeMap.mem_iff_isSome_getElem?,
        Option.isSome_iff_exists] at hcontains
      obtain ⟨digest, hget⟩ := hcontains
      obtain ⟨captured, contents, hbase, hsame, -⟩ := hmanifest.exists_file hget
      obtain ⟨path', contents', hnormal', htext', hcand, -⟩ := hhashes.current _ _ hhash
      obtain rfl := relativePathString_injective hnormal hnormal' (htext.trans htext'.symm)
      obtain rfl := hapart captured path (h.kept captured (by simp [hbase])) (by simp [hcand])
        (hsame.trans htext.symm)
      rw [hnone] at hbase
      cases hbase
    unfold withoutNewFile
    rw [h.recordRelative_eq hhashes hhash]
    simp [bind, Except.bind, hnot, pure, Except.pure]
  unfold expectedBaselineFiles
  generalize record.newFiles = files at hturn
  induction files with
  | nil => rfl
  | cons file files ih =>
    rw [List.foldlM_cons, bind_eq_ok_iff]
    exact ⟨_, hturn file List.mem_cons_self, ih fun f hf => hturn f (List.mem_cons_of_mem _ hf)⟩

lemma Overlay.snapshotCandidate_ne_incomparable (h : Overlay record baseline candidate history)
    (hhashes : HashesCurrent sha record candidate history)
    (hmanifest : ManifestOf sha baseline manifest) (hapart : RenderedApart candidate)
    (config : ChangeConfig) (env : SnapshotEnv) (stored : Option ChangeRecord) (reason : String) :
    snapshotCandidate sha config env ⟨stored, some manifest, candidate⟩ record ≠ .error (.incomparable reason) := by
  have hbytes : verifyCandidateBytes sha candidate record = .ok () := by
    rw [verifyCandidateBytes_eq_ok_iff]
    intro file recorded hrecorded
    obtain ⟨path, contents, hnormal, rfl, hfile, hhash⟩ := hhashes.current file recorded hrecorded
    refine ⟨path, contents, ?_, hfile, hhash⟩
    exact normalizeRelative_relativePathString hnormal
      (h.survives path hnormal ((hhashes.keys _).mp (by simp [hrecorded])))
  have hexpected := h.expectedCandidateFiles_eq hhashes manifest
  have hlists := h.listsFiles hhashes hmanifest hapart hexpected
  have hbaseline := h.expectedBaselineFiles_eq hhashes hmanifest hapart
  unfold snapshotCandidate
  simp only [hbytes, hexpected, hbaseline, bind, Except.bind]
  split
  · simp
  split
  · simp
  · split <;> simp
  next copy excluded hcopy =>
  obtain ⟨hfiles, hplain⟩ := copyTreeBounded_eq_ok h.plain hcopy
  refine verifyAndDigest_ne_incomparable ?_ hplain.not_symlink reason
  unfold ListsFiles
  rw [hfiles]
  exact hlists

end Expected

/-! ## What a stage does to the overlay -/

section Commit

variable {sha : ByteArray → String} {record : ChangeRecord} {baseline candidate tree : Tree}
  {history : List Revision} {request : StageRequest} {limits : CandidateLimits} {plan : PatchPlan}

lemma of_mem_newFiles (hplan : planPatches candidate request.patches request.newFiles limits = .ok plan)
    {new : PlannedNewFile} (hnew : new ∈ plan.newFiles) :
    candidate.lookup new.relative = none ∧ new.toPlanned ∈ plan.files := by
  have hspec := planPatches_spec hplan
  have hmem : new.toPlanned ∈ plan.files.filter fun file => !file.existed := by
    rw [hspec.created]
    exact List.mem_map_of_mem hnew
  have hfile := List.mem_of_mem_filter hmem
  have hfits := hspec.fits _ hfile
  exact ⟨hfits.1, hfile⟩

lemma Overlay.commit {env : StageEnv} {fault : RelPath → Option ApplyFault}
    (h : Overlay record baseline candidate history) (hhashes : HashesCurrent sha record candidate history)
    (hplan : planPatches candidate request.patches request.newFiles limits = .ok plan)
    (happly : AgzRustMcp.applyPlan fault candidate plan.files = (tree, none)) (htrim : request.PathsSurviveTrim)
    (hspares : ∀ patch ∈ request.patches, ∀ file ∈ record.newFiles, normalizePatchFile patch.file ≠ file.file) :
    Overlay (commitRecord sha env record plan (plan.files.map (plannedHash sha))) baseline tree
      (history ++ [⟨plan.patches.map storedPatch, plan.newFiles.map (storedNewFile sha)⟩]) := by
  have hspec := planPatches_spec hplan
  have hnonempty : ∀ file ∈ plan.files, file.relative ≠ [] := fun f hf => (hspec.normal f hf).ne_nil
  have hfile := fileAt_applyPlan happly hnonempty hspec.nodup
  have hnormal : ∀ p ∈ plan.files.map PlannedFile.relative, NormalPath p := by
    intro p hp
    obtain ⟨file, hmem, rfl⟩ := List.mem_map.mp hp
    exact hspec.normal file hmem
  -- No target of the plan is a file that the record has as new.
  have hfresh : ∀ file ∈ record.newFiles, ∀ p ∈ plan.files.map PlannedFile.relative,
      relativePathString p ≠ file.file := by
    intro file hmem p hp htext
    obtain ⟨path, contents, hpath, htext', hcand, -⟩ :=
      hhashes.current _ _ (h.newFiles file hmem).1
    obtain rfl := relativePathString_injective (hnormal p hp) hpath (htext.trans htext'.symm)
    rcases (mem_targets_iff hplan p).mp hp with ⟨patch, hpatch, hrel⟩ | hnew
    · refine hspares patch hpatch file hmem ?_
      rw [normalizePatchFile, hrel]
      exact htext
    · obtain ⟨new, hmemNew, rfl⟩ := List.mem_map.mp hnew
      rw [fileAt, (of_mem_newFiles hplan hmemNew).1] at hcand
      cases hcand
  refine ⟨h.plain.applyPlan happly hspec.normal, fun p hp => ?_, fun p hp => ?_,
    h.survives.commit sha hplan htrim, fun file hmem => ?_⟩
  · rw [mem_writtenFiles_append_iff sha hplan, not_or] at hp
    have hnot : writtenAt plan.files p = none :=
      writtenAt_eq_none_iff.mpr fun hmem => hp.2 ⟨p, hmem, rfl⟩
    rw [hfile, hnot, Option.none_or, h.untouched p hp.1]
  · rw [hfile]
    cases writtenAt plan.files p with
    | some contents => simp
    | none => simpa using h.kept p hp
  · rcases List.mem_append.mp (hmem : file ∈ record.newFiles ++ _) with hmem | hmem
    · refine ⟨?_, (h.newFiles file hmem).2⟩
      rw [← (h.newFiles file hmem).1]
      exact getElem?_extendHashes_of_ne sha _ (hfresh file hmem)
    · obtain ⟨new, hnew, rfl⟩ := List.mem_map.mp hmem
      obtain ⟨hnone, hplanned⟩ := of_mem_newFiles hplan hnew
      refine ⟨?_, new.relative, hspec.normal _ hplanned, rfl, ?_⟩
      · have hget := hspec.getElem?_extendHashes sha record.sourceHashes hplanned
        simpa [commitRecord, storedNewFile, PlannedNewFile.toPlanned, textBytes, Utf8Text.encodeUtf8] using hget
      · by_contra hbase
        refine h.kept _ hbase ?_
        rw [fileAt, hnone]

end Commit

/-- The overlay of a ready record, with what its replay needs. -/
structure Timeline.Overlaid (sha : ByteArray → String) (config : ChangeConfig) (timeline : Timeline) : Prop where
  replays : timeline.Replays sha config
  manifest : ∃ manifest, timeline.dir.manifest = some manifest ∧ ManifestOf sha timeline.baseline manifest
  overlay : ∀ record, timeline.dir.record = some record → record.state = .ready →
    Overlay record timeline.baseline timeline.dir.candidate timeline.history

lemma Timeline.overlaid_ofCreate {sha : ByteArray → String} {config : ChangeConfig}
    {env : CreateEnv} {dir : ChangeDir} {record : ChangeRecord}
    (h : createBlocking sha config env = (dir, .done record)) : (Timeline.ofCreate dir).Overlaid sha config := by
  have hreplays := Timeline.replays_ofCreate h
  obtain ⟨manifest, tree, hcapture, rfl, rfl⟩ := createBlocking_eq_done h
  have hcaptured := captureTree_spec hcapture
  have hfiles : ∀ p contents, fileAt tree p = some contents ↔
      (p, contents) ∈ walkFiles (env.captureEnv sha config) env.source := by
    intro p contents
    rw [hcaptured.tree_eq]
    exact fileAt_treeOf_eq_some_iff hcaptured.nodup
  refine ⟨hreplays, ⟨manifest, rfl, fun entry => ?_⟩, fun record' hrecord' _ => ?_⟩
  · rw [hcaptured.manifest_perm.mem_iff, List.mem_map]
    constructor
    · rintro ⟨f, hf, rfl⟩
      exact ⟨f.1, f.2, (hfiles _ _).mpr hf, rfl⟩
    · rintro ⟨p, contents, hfile, rfl⟩
      exact ⟨(p, contents), (hfiles _ _).mp hfile, rfl⟩
  · obtain rfl := Option.some.inj hrecord'
    refine ⟨?_, fun _ _ => rfl, fun _ hp => hp, fun p _ hmem => ?_, fun file hmem => ?_⟩
    · rw [show (Timeline.ofCreate _).dir.candidate = tree from rfl, hcaptured.tree_eq]
      refine plain_treeOf fun f hf => ?_
      rcases List.mem_append.mp hf with hf | hf
      · exact not_skipped_of_mem_levelFiles (by simp) hf
      · exact not_skipped_of_mem_deepFiles (by simp) hf
    · simp [Timeline.ofCreate, writtenFiles] at hmem
    · simp [capturedRecord] at hmem

lemma Timeline.Overlaid.stage {sha : ByteArray → String} {config : ChangeConfig}
    {timeline : Timeline} (h : timeline.Overlaid sha config) {call : StageCall}
    (hplain : call.RecordsPlainPaths sha config timeline) (hspares : call.SparesNewFiles sha config timeline) :
    (timeline.stage sha config call).Overlaid sha config := by
  have hreplays := h.replays.stage hplain
  rcases timeline.stage_cases sha config call with
    ⟨hsame, -⟩ | ⟨left, hleft, hstate⟩ |
      ⟨record, plan, tree, hrecord, hready, hadmit, happly, hreply, hstage⟩
  · rw [hsame]
    exact h
  · refine ⟨hreplays, ?_, fun record hrecord hready => ?_⟩
    · rw [Timeline.manifest_stage]
      exact h.manifest
    · obtain rfl : left = record := Option.some.inj (hleft.symm.trans hrecord)
      exact absurd hready hstate
  · have hdone : (stageBlocking sha config call.env call.request timeline.dir).2.isDone = true := by
      rw [hreply]
      rfl
    have hplan := (admitPlan_eq_ok hadmit).2.2.2
    have hhashes := (h.replays.replays record hrecord hready).2
    have hnext : Overlay (commitRecord sha call.env record plan
        (plan.files.map (plannedHash sha))) _ _ _ :=
      (h.overlay record hrecord hready).commit hhashes hplan happly (hplain hdone)
        (hspares hdone record hrecord)
    refine ⟨hreplays, ?_, ?_⟩
    · rw [hstage]
      exact h.manifest
    · rw [hstage]
      intro record' hrecord' _
      obtain rfl := Option.some.inj hrecord'
      exact hnext

/-- After stages whose paths survive trimming and which patch no created file, the expected files
are those of the candidate, and no snapshot is refused as incomparable, provided no two of its files
have paths with the same text. -/
theorem expected_files_match_candidate {sha : ByteArray → String} {config : ChangeConfig}
    {env : CreateEnv} {dir : ChangeDir} {created : ChangeRecord}
    (h : createBlocking sha config env = (dir, .done created)) {calls : List StageCall}
    (hcalls : Runs.Along (Timeline.stage sha config)
      (fun timeline call => call.RecordsPlainPaths sha config timeline ∧
        call.SparesNewFiles sha config timeline) (.ofCreate dir) calls)
    {record : ChangeRecord}
    (hrecord : (stages sha config (.ofCreate dir) calls).dir.record = some record)
    (hready : record.state = .ready)
    (hapart : RenderedApart (stages sha config (.ofCreate dir) calls).dir.candidate) :
    ∃ manifest expected, (stages sha config (.ofCreate dir) calls).dir.manifest = some manifest ∧
      expectedCandidateFiles record manifest = .ok expected ∧
      ListsFiles sha (stages sha config (.ofCreate dir) calls).dir.candidate expected ∧
      ∀ env reason, snapshotCandidate sha config env
        (stages sha config (.ofCreate dir) calls).dir record ≠ .error (.incomparable reason) := by
  have hinv : (stages sha config (.ofCreate dir) calls).Overlaid sha config :=
    hcalls.invariant (P := fun timeline : Timeline => timeline.Overlaid sha config)
      (fun timeline call ht hcall => ht.stage hcall.1 hcall.2) (Timeline.overlaid_ofCreate h)
  generalize stages sha config (.ofCreate dir) calls = final at hinv hrecord hapart
  obtain ⟨manifest, hmanifest, hlisted⟩ := hinv.manifest
  have hhashes := (hinv.replays.replays record hrecord hready).2
  have hoverlay := hinv.overlay record hrecord hready
  have hexpected := hoverlay.expectedCandidateFiles_eq hhashes manifest
  refine ⟨manifest, _, hmanifest, hexpected, hoverlay.listsFiles hhashes hlisted hapart hexpected,
    fun env reason => ?_⟩
  have hsnapshot := hoverlay.snapshotCandidate_ne_incomparable hhashes hlisted hapart config env
    final.dir.record reason
  rwa [← hmanifest] at hsnapshot

/-- Two stages: a patch and a new file, then a patch of the same file. -/
def overlaidCalls : List StageCall :=
  (Timeline.ofCreate oneFileChange.1).script Sha256.sha256Hex .default
    [([⟨"lib.rs", "one", "first"⟩], [⟨"src/new.rs", "a"⟩]), ([⟨"lib.rs", "first", "1st"⟩], [])]

theorem expected_files_match_two_stages :
    ∃ record manifest expected, (stages Sha256.sha256Hex .default (.ofCreate oneFileChange.1)
        overlaidCalls).dir.record = some record ∧
      expectedCandidateFiles record manifest = .ok expected ∧
      ListsFiles Sha256.sha256Hex (stages Sha256.sha256Hex .default (.ofCreate oneFileChange.1)
        overlaidCalls).dir.candidate expected := by
  obtain ⟨created, hcreated⟩ := Reply.exists_of_isDone oneFileChange (by decide +kernel)
  obtain ⟨record, hrecord, hready⟩ := ChangeDir.exists_ready
    (stages Sha256.sha256Hex .default (.ofCreate oneFileChange.1) overlaidCalls).dir
    (by decide +kernel)
  have hapart : RenderedApart (stages Sha256.sha256Hex .default (.ofCreate oneFileChange.1)
      overlaidCalls).dir.candidate := renderedApart_of_keys (by decide +kernel)
  obtain ⟨manifest, expected, -, hexpected, hlists, -⟩ :=
    expected_files_match_candidate hcreated (by decide +kernel) hrecord hready hapart
  exact ⟨record, manifest, expected, hrecord, hexpected, hlists⟩

/-- Two stages: the first creates a file and the second patches it. -/
def createdThenPatchedCalls : List StageCall :=
  (Timeline.ofCreate oneFileChange.1).script Sha256.sha256Hex .default
    [([], [⟨"new.rs", "a"⟩]), ([⟨"new.rs", "a", "b"⟩], [])]

/-- The record still expects the first content of the created file. -/
theorem patched_new_file_not_expected :
    ¬ ∀ (sha : ByteArray → String) (config : ChangeConfig) (env : CreateEnv) (dir : ChangeDir)
      (created : ChangeRecord), createBlocking sha config env = (dir, .done created) →
      ∀ (calls : List StageCall) (record : ChangeRecord),
        (stages sha config (.ofCreate dir) calls).dir.record = some record →
        record.state = .ready →
        ∃ manifest expected, (stages sha config (.ofCreate dir) calls).dir.manifest = some manifest ∧
            expectedCandidateFiles record manifest = .ok expected ∧
            ListsFiles sha (stages sha config (.ofCreate dir) calls).dir.candidate expected := by
  intro hclaim
  obtain ⟨created, hcreated⟩ := Reply.exists_of_isDone oneFileChange (by decide +kernel)
  obtain ⟨record, hrecord, hready⟩ := ChangeDir.exists_ready
    (stages Sha256.sha256Hex .default (.ofCreate oneFileChange.1) createdThenPatchedCalls).dir
    (by decide +kernel)
  obtain ⟨manifest, expected, hmanifest, hexpected, hlists⟩ :=
    hclaim _ _ _ _ _ hcreated createdThenPatchedCalls record hrecord hready
  have hnow : fileAt (stages Sha256.sha256Hex .default (.ofCreate oneFileChange.1)
      createdThenPatchedCalls).dir.candidate [.unicode "new.rs"] = some "b".toByteArray := by
    decide +kernel
  have hstill : ((stages Sha256.sha256Hex .default (.ofCreate oneFileChange.1)
      createdThenPatchedCalls).dir.record.bind fun record =>
        (stages Sha256.sha256Hex .default (.ofCreate oneFileChange.1)
          createdThenPatchedCalls).dir.manifest.bind fun manifest =>
            ((expectedCandidateFiles record manifest).toOption.bind (·["new.rs"]?))) =
      some (Sha256.sha256Hex "a".toByteArray, 1) := by
    decide +kernel
  rw [hrecord, hmanifest] at hstill
  simp only [Option.bind_some, hexpected, Except.toOption] at hstill
  have hlisted := (hlists "new.rs" _).mpr ⟨_, _, hnow, rfl, rfl⟩
  rw [hstill] at hlisted
  revert hlisted
  decide +kernel

end AgzRustMcp
