import AgzRustMcp.Foundation.Checked
import AgzRustMcp.Change.Model
import AgzRustMcp.Change.Tree

/-!
# Capturing a workspace

`capture_tree` of `change/capture.rs` copies a directory into the candidate and returns its
manifest.  A `Listing` is what is listed for one directory and those under it; in a `SourceDir` no
name is listed twice.

The source goes through a whole directory (`capturePass`) before it enters the next one
(`captureSubdirs`).
-/

namespace AgzRustMcp

open Checked
open Std (ExtTreeSet)

/-! ## Directories as the operating system lists them -/

/-- An entry that is not a directory. -/
inductive LeafKind where
  /-- A regular file: the size that `stat` reports and the bytes that are read. -/
  | file (size : ℕ) (contents : ByteArray)
  | symlink
  | other

/-- The entries of a directory, in the order in which they are listed. -/
inductive Listing where
  | nil
  | leaf (name : OsName) (kind : LeafKind) (rest : Listing)
  | dir (name : OsName) (entries rest : Listing)

namespace Listing

def names : Listing → List OsName
  | nil => []
  | leaf name _ rest => name :: rest.names
  | dir name _ rest => name :: rest.names

/-- No directory lists a name twice. -/
def Distinct : Listing → Prop
  | nil => True
  | leaf name _ rest => name ∉ rest.names ∧ rest.Distinct
  | dir name entries rest => name ∉ rest.names ∧ entries.Distinct ∧ rest.Distinct

/-- Whether a name is listed twice can be decided directory by directory. -/
def decidableDistinct : (listing : Listing) → Decidable listing.Distinct
  | nil => .isTrue trivial
  | leaf name _ rest =>
    letI := rest.decidableDistinct
    inferInstanceAs (Decidable (name ∉ rest.names ∧ rest.Distinct))
  | dir name entries rest =>
    letI := entries.decidableDistinct
    letI := rest.decidableDistinct
    inferInstanceAs (Decidable (name ∉ rest.names ∧ entries.Distinct ∧ rest.Distinct))

instance : DecidablePred Distinct := decidableDistinct

/-- A directory that lists the given text files only. -/
def ofTexts : List (String × String) → Listing
  | [] => nil
  | (name, text) :: files =>
    leaf (.unicode name) (.file text.toByteArray.size text.toByteArray) (ofTexts files)

def bytes : Listing → ℕ
  | nil => 0
  | leaf _ (.file _ contents) rest => contents.size + rest.bytes
  | leaf _ _ rest => rest.bytes
  | dir _ entries rest => entries.bytes + rest.bytes

end Listing

/-- A directory of a real file system. -/
structure SourceDir where
  listing : Listing
  distinct : listing.Distinct
  bytes_lt : listing.bytes < 2 ^ 64

/-! ## The walk -/

inductive CaptureError where
  | incomplete (reason : String)
  | cancelled
  deriving DecidableEq

def captureMaxDepth : ℕ := 128

def maxReportedExclusions : ℕ := 64

/-- The digest and what the walk is given: limits, exclusions, cancellation, failures. -/
structure CaptureEnv where
  sha : ByteArray → String
  maxFiles : ℕ
  maxBytes : ℕ
  excluded : List RelPath
  destinationRelative : Option RelPath
  cancelled : RelPath → Bool
  /-- The directory could not be listed. -/
  listFault : RelPath → Option String
  /-- The entry could not be inspected, opened or measured. -/
  entryFault : RelPath → Option String
  /-- The file could not be read or its copy could not be written. -/
  copyFault : RelPath → Option String

/-- What the walk has copied and noted so far. -/
structure CaptureState where
  files : List ManifestEntry
  totalBytes : ℕ
  excludedReport : ExtTreeSet String
  tree : Tree

def displayRelative (path : RelPath) : String :=
  if relativePathString path = "" then "<root>" else relativePathString path

/-- The entry is one of the skipped or excluded ones. -/
def CaptureEnv.excludes (env : CaptureEnv) (relative : RelPath) (name : OsName) : Bool :=
  name == .unicode ".git" || name == .unicode "target" || env.excluded.contains relative

/-- The entry leads to the directory that is being written. -/
def CaptureEnv.leadsToDestination (env : CaptureEnv) (relative : RelPath) : Bool :=
  match env.destinationRelative with
  | none => false
  | some destination => relative.isPrefixOf destination

/-- The walk does not go past this entry. -/
def CaptureEnv.skips (env : CaptureEnv) (relative : RelPath) (name : OsName) : Bool :=
  env.excludes relative name || env.leadsToDestination relative

def manifestEntry (sha : ByteArray → String) (relative : RelPath) (contents : ByteArray) : ManifestEntry :=
  ⟨relativePathString relative, sha contents, contents.size⟩

/-- The state after a file was copied. -/
def CaptureState.copy (sha : ByteArray → String) (state : CaptureState) (relative : RelPath)
    (contents : ByteArray) : CaptureState :=
  { state with
    files := state.files ++ [manifestEntry sha relative contents]
    totalBytes := saturatingAdd state.totalBytes contents.size
    tree := (createDirAll state.tree relative).insert relative (.file contents) }

/-- The part of a turn of the walk that copies a regular file. -/
def copyFile (env : CaptureEnv) (state : CaptureState) (relative : RelPath) (size : ℕ)
    (contents : ByteArray) : Except CaptureError CaptureState :=
  if state.files.length ≥ env.maxFiles then
    .error (.incomplete ("capture file limit " ++ toString env.maxFiles ++ " exceeded"))
  else if saturatingAdd state.totalBytes size > env.maxBytes then
    .error (.incomplete ("capture byte limit " ++ toString env.maxBytes ++ " exceeded at " ++
      displayRelative relative))
  else
    match env.copyFault relative with
    | some reason => .error (.incomplete reason)
    | none =>
      if contents.size > env.maxBytes then
        .error (.incomplete ("input exceeds the capture byte limit: " ++ displayRelative relative))
      else if contents.size ≠ size then
        .error (.incomplete ("input changed size while being read: " ++ displayRelative relative))
      else .ok (state.copy env.sha relative contents)

/-- One turn over the entries of a directory; `kind` is `none` for a directory. -/
def visitEntry (env : CaptureEnv) (dir : RelPath) (depth : ℕ) (state : CaptureState)
    (name : OsName) (kind : Option LeafKind) : Except CaptureError CaptureState :=
  let relative := dir ++ [name]
  if env.cancelled relative then .error .cancelled
  else if env.excludes relative name then
    .ok (if state.excludedReport.size < maxReportedExclusions then
      { state with excludedReport := state.excludedReport.insert (displayRelative relative) }
    else state)
  else if env.leadsToDestination relative then .ok state
  else
    match env.entryFault relative, kind with
    | some reason, _ => .error (.incomplete reason)
    | none, some .symlink =>
      .error (.incomplete ("symlink input is not capture-safe: " ++ displayRelative relative))
    | none, none =>
      if depth ≥ captureMaxDepth then
        .error (.incomplete ("capture depth limit reached at " ++ displayRelative relative))
      else .ok state
    | none, some .other =>
      .error (.incomplete ("unsupported file type: " ++ displayRelative relative))
    | none, some (.file size contents) => copyFile env state relative size contents

/-- The loop over the entries of one directory. -/
def capturePass (env : CaptureEnv) (dir : RelPath) (depth : ℕ) :
    CaptureState → Listing → Except CaptureError CaptureState
  | state, .nil => .ok state
  | state, .leaf name kind rest => do
    let visited ← visitEntry env dir depth state name (some kind)
    capturePass env dir depth visited rest
  | state, .dir name _ rest => do
    let visited ← visitEntry env dir depth state name none
    capturePass env dir depth visited rest

/-- The start of the turn for one directory of the stack. -/
def openFrame (env : CaptureEnv) (dir : RelPath) : Except CaptureError Unit :=
  if env.cancelled dir then .error .cancelled
  else
    match env.listFault dir with
    | some reason => .error (.incomplete reason)
    | none => .ok ()

/-- The directories below one, the last listed first, each with all below it. -/
def captureSubdirs (env : CaptureEnv) (dir : RelPath) (depth : ℕ) :
    CaptureState → Listing → Except CaptureError CaptureState
  | state, .nil => .ok state
  | state, .leaf _ _ rest => captureSubdirs env dir depth state rest
  | state, .dir name entries rest => do
    let later ← captureSubdirs env dir depth state rest
    let relative := dir ++ [name]
    if env.skips relative name then return later
    else
      openFrame env relative
      let level ← capturePass env relative (depth + 1) later entries
      captureSubdirs env relative (depth + 1) level entries

/-- `capture_tree` of `change/capture.rs`: the sorted manifest and the copy. -/
def captureTree (env : CaptureEnv) (source : SourceDir) : Except CaptureError (CaptureManifest × Tree) := do
  openFrame env []
  let level ← capturePass env [] 0 ⟨[], 0, ∅, ∅⟩ source.listing
  let state ← captureSubdirs env [] 0 level source.listing
  return ({
    files := state.files.insertionSort fun left right => left.path ≤ right.path
    totalBytes := state.totalBytes
    excluded := state.excludedReport.toList }, state.tree)

/-! ## The files of a walk -/

/-- The files listed in one directory that the walk copies. -/
def levelFiles (env : CaptureEnv) (dir : RelPath) : Listing → List (RelPath × ByteArray)
  | .nil => []
  | .leaf name (.file _ contents) rest =>
    if env.skips (dir ++ [name]) name then levelFiles env dir rest
    else (dir ++ [name], contents) :: levelFiles env dir rest
  | .leaf _ _ rest => levelFiles env dir rest
  | .dir _ _ rest => levelFiles env dir rest

/-- The files below the subdirectories of one directory that the walk copies. -/
def deepFiles (env : CaptureEnv) (dir : RelPath) : Listing → List (RelPath × ByteArray)
  | .nil => []
  | .leaf _ _ rest => deepFiles env dir rest
  | .dir name entries rest =>
    if env.skips (dir ++ [name]) name then deepFiles env dir rest
    else deepFiles env dir rest ++ levelFiles env (dir ++ [name]) entries ++ deepFiles env (dir ++ [name]) entries

/-- All files that the walk copies, in the order in which it copies them. -/
def walkFiles (env : CaptureEnv) (source : SourceDir) : List (RelPath × ByteArray) :=
  levelFiles env [] source.listing ++ deepFiles env [] source.listing

def listBytes (files : List (RelPath × ByteArray)) : ℕ := (files.map fun f => f.2.size).sum

/-- The tree with the given files, each below directories. -/
def treeOf (files : List (RelPath × ByteArray)) : Tree :=
  files.foldl (fun tree f => (createDirAll tree f.1).insert f.1 (.file f.2)) ∅

/-- The state after the given files were copied within the limits. -/
structure CaptureState.Holds (env : CaptureEnv) (state : CaptureState)
    (files : List (RelPath × ByteArray)) : Prop where
  files_eq : state.files = files.map fun f => manifestEntry env.sha f.1 f.2
  totalBytes_eq : state.totalBytes = listBytes files
  tree_eq : state.tree = treeOf files
  files_le : files.length ≤ env.maxFiles
  bytes_le : listBytes files ≤ env.maxBytes

section Walk

variable {env : CaptureEnv} {state state' : CaptureState} {files : List (RelPath × ByteArray)}

lemma listBytes_append (files more : List (RelPath × ByteArray)) :
    listBytes (files ++ more) = listBytes files + listBytes more := by
  simp [listBytes]

lemma CaptureState.Holds.copyFile {relative : RelPath} {size : ℕ} {contents : ByteArray}
    (hstate : state.Holds env files) (hbytes : listBytes files + contents.size < 2 ^ 64)
    (h : AgzRustMcp.copyFile env state relative size contents = .ok state') :
    state'.Holds env (files ++ [(relative, contents)]) := by
  unfold AgzRustMcp.copyFile at h
  split at h
  · simp at h
  next hfiles =>
  split at h
  · simp at h
  next htotal =>
  split at h
  · simp at h
  split at h
  · simp at h
  split at h
  · simp at h
  next hchanged =>
  obtain rfl : state.copy env.sha relative contents = state' := by simpa using h
  obtain rfl : contents.size = size := not_not.mp hchanged
  have hsum : saturatingAdd state.totalBytes contents.size = listBytes files + contents.size := by
    rw [hstate.totalBytes_eq, saturatingAdd, u64Max]
    omega
  have hone : listBytes (files ++ [(relative, contents)]) = listBytes files + contents.size := by
    simp [listBytes]
  refine ⟨?_, ?_, ?_, ?_, ?_⟩
  · simp [CaptureState.copy, hstate.files_eq]
  · rw [hone]
    exact hsum
  · simp [CaptureState.copy, hstate.tree_eq, treeOf]
  · rw [hstate.files_eq, List.length_map] at hfiles
    simp
    omega
  · rw [hone, ← hsum]
    omega

/-- What an accepted turn of the walk copies. -/
def entryFiles (env : CaptureEnv) (dir : RelPath) (name : OsName) : Option LeafKind → List (RelPath × ByteArray)
  | some (.file _ contents) =>
    if env.skips (dir ++ [name]) name then [] else [(dir ++ [name], contents)]
  | _ => []

variable {dir : RelPath} {depth : ℕ} {listing : Listing}

lemma entryFiles_of_skips {name : OsName} {kind : Option LeafKind}
    (h : env.skips (dir ++ [name]) name = true) : entryFiles env dir name kind = [] := by
  unfold entryFiles
  split
  · rw [if_pos h]
  · rfl

lemma CaptureState.Holds.visitEntry {name : OsName} {kind : Option LeafKind} (hstate : state.Holds env files)
    (hbytes : listBytes (files ++ entryFiles env dir name kind) < 2 ^ 64)
    (h : AgzRustMcp.visitEntry env dir depth state name kind = .ok state') :
    state'.Holds env (files ++ entryFiles env dir name kind) := by
  unfold AgzRustMcp.visitEntry at h
  dsimp only at h
  split at h
  · simp at h
  split at h
  · rename_i hexcluded
    have hnone : entryFiles env dir name kind = [] := entryFiles_of_skips (by
      simp [CaptureEnv.skips, hexcluded])
    obtain rfl := Except.ok.inj h
    rw [hnone, List.append_nil]
    split_ifs
    · exact ⟨hstate.1, hstate.2, hstate.3, hstate.4, hstate.5⟩
    · exact hstate
  rename_i hexcluded
  split at h
  · rename_i hdest
    have hnone : entryFiles env dir name kind = [] := entryFiles_of_skips (by
      simp [CaptureEnv.skips, hdest])
    obtain rfl := Except.ok.inj h
    rw [hnone, List.append_nil]
    exact hstate
  rename_i hdest
  split at h
  · simp at h
  · simp at h
  · split at h
    · simp at h
    obtain rfl := Except.ok.inj h
    simpa [entryFiles] using hstate
  · simp at h
  · next size contents _ =>
    have hentry : entryFiles env dir name (some (.file size contents)) = [(dir ++ [name], contents)] := by
      simp [entryFiles, CaptureEnv.skips, hexcluded, hdest]
    rw [hentry] at hbytes ⊢
    refine hstate.copyFile ?_ h
    simpa [listBytes_append, listBytes] using hbytes

lemma levelFiles_leaf (dir : RelPath) (name : OsName) (kind : LeafKind) (rest : Listing) :
    levelFiles env dir (.leaf name kind rest) = entryFiles env dir name (some kind) ++ levelFiles env dir rest := by
  cases kind with
  | file size contents =>
    unfold entryFiles
    rw [levelFiles]
    split_ifs <;> rfl
  | symlink => rfl
  | other => rfl

lemma CaptureState.Holds.capturePass (hstate : state.Holds env files)
    (hbytes : listBytes (files ++ levelFiles env dir listing) < 2 ^ 64)
    (h : AgzRustMcp.capturePass env dir depth state listing = .ok state') :
    state'.Holds env (files ++ levelFiles env dir listing) := by
  induction listing generalizing state files with
  | nil =>
    obtain rfl := Except.ok.inj h
    simpa [levelFiles] using hstate
  | leaf name kind rest ih =>
    rw [AgzRustMcp.capturePass, bind_eq_ok_iff] at h
    obtain ⟨visited, hvisit, hrest⟩ := h
    rw [levelFiles_leaf, ← List.append_assoc] at hbytes ⊢
    have hfirst : listBytes (files ++ entryFiles env dir name (some kind)) < 2 ^ 64 := by
      rw [listBytes_append] at hbytes
      omega
    exact ih (hstate.visitEntry hfirst hvisit) hbytes hrest
  | dir name entries rest _ ih =>
    rw [AgzRustMcp.capturePass, bind_eq_ok_iff] at h
    obtain ⟨visited, hvisit, hrest⟩ := h
    have hvisited : visited.Holds env files := by
      have hfirst : listBytes (files ++ entryFiles env dir name none) < 2 ^ 64 := by
        rw [listBytes_append] at hbytes
        simpa [entryFiles] using (by omega : listBytes files < 2 ^ 64)
      simpa [entryFiles] using hstate.visitEntry hfirst hvisit
    exact ih hvisited hbytes hrest

lemma CaptureState.Holds.captureSubdirs (hstate : state.Holds env files)
    (hbytes : listBytes (files ++ deepFiles env dir listing) < 2 ^ 64)
    (h : AgzRustMcp.captureSubdirs env dir depth state listing = .ok state') :
    state'.Holds env (files ++ deepFiles env dir listing) := by
  induction listing generalizing state state' files dir depth with
  | nil =>
    obtain rfl := Except.ok.inj h
    simpa [deepFiles] using hstate
  | leaf name kind rest ih => exact ih hstate hbytes h
  | dir name entries rest ihEntries ihRest =>
    rw [AgzRustMcp.captureSubdirs, bind_eq_ok_iff] at h
    obtain ⟨later, hlater, h⟩ := h
    rw [deepFiles] at hbytes ⊢
    dsimp only at h
    split_ifs at h with hskip
    · obtain rfl := Except.ok.inj h
      rw [if_pos hskip] at hbytes ⊢
      exact ihRest hstate hbytes hlater
    · rw [if_neg hskip] at hbytes ⊢
      rw [bind_eq_ok_iff] at h
      obtain ⟨_, -, h⟩ := h
      rw [bind_eq_ok_iff] at h
      obtain ⟨level, hlevel, hdeep⟩ := h
      rw [← List.append_assoc, ← List.append_assoc] at hbytes ⊢
      simp only [listBytes_append] at hbytes
      have h1 := ihRest hstate (by rw [listBytes_append]; omega) hlater
      have h2 := h1.capturePass (by simp only [listBytes_append]; omega) hlevel
      exact ihEntries h2 (by simp only [listBytes_append]; omega) hdeep

lemma listBytes_walk_le (env : CaptureEnv) (dir : RelPath) (listing : Listing) :
    listBytes (levelFiles env dir listing) + listBytes (deepFiles env dir listing) ≤ listing.bytes := by
  induction listing generalizing dir with
  | nil => simp [levelFiles, deepFiles, listBytes, Listing.bytes]
  | leaf name kind rest ih =>
    have hrest := ih dir
    rw [levelFiles_leaf, listBytes_append, deepFiles]
    cases kind with
    | file size contents =>
      have hone : listBytes (entryFiles env dir name (some (.file size contents))) ≤ contents.size := by
        unfold entryFiles
        split_ifs <;> simp [listBytes]
      simp only [Listing.bytes]
      omega
    | symlink =>
      simp only [entryFiles, Listing.bytes, listBytes, List.map_nil, List.sum_nil] at hrest ⊢
      omega
    | other =>
      simp only [entryFiles, Listing.bytes, listBytes, List.map_nil, List.sum_nil] at hrest ⊢
      omega
  | dir name entries rest ihEntries ihRest =>
    have hrest := ihRest dir
    have hentries := ihEntries (dir ++ [name])
    simp only [levelFiles, deepFiles, Listing.bytes]
    split_ifs
    · omega
    · simp only [listBytes_append]
      omega

lemma exists_name_of_mem_levelFiles {f : RelPath × ByteArray} (h : f ∈ levelFiles env dir listing) :
    ∃ name ∈ listing.names, f.1 = dir ++ [name] := by
  induction listing with
  | nil => simp [levelFiles] at h
  | leaf name kind rest ih =>
    rw [levelFiles_leaf, List.mem_append] at h
    rcases h with h | h
    · refine ⟨name, List.mem_cons_self, ?_⟩
      unfold entryFiles at h
      split at h
      · split_ifs at h
        · simp at h
        · obtain rfl := List.mem_singleton.mp h
          rfl
      · simp at h
    · obtain ⟨n, hn, hf⟩ := ih h
      exact ⟨n, List.mem_cons_of_mem _ hn, hf⟩
  | dir name entries rest _ ih =>
    obtain ⟨n, hn, hf⟩ := ih h
    exact ⟨n, List.mem_cons_of_mem _ hn, hf⟩

lemma exists_names_of_mem_deepFiles {f : RelPath × ByteArray} (h : f ∈ deepFiles env dir listing) :
    ∃ name ∈ listing.names, ∃ q, q ≠ [] ∧ f.1 = dir ++ name :: q := by
  induction listing generalizing dir with
  | nil => simp [deepFiles] at h
  | leaf name kind rest ih =>
    obtain ⟨n, hn, q, hq, hf⟩ := ih h
    exact ⟨n, List.mem_cons_of_mem _ hn, q, hq, hf⟩
  | dir name entries rest ihEntries ihRest =>
    have hrest : f ∈ deepFiles env dir rest → ∃ n ∈ (Listing.dir name entries rest).names,
        ∃ q, q ≠ [] ∧ f.1 = dir ++ n :: q := by
      intro hmem
      obtain ⟨n, hn, q, hq, hf⟩ := ihRest hmem
      exact ⟨n, List.mem_cons_of_mem _ hn, q, hq, hf⟩
    rw [deepFiles] at h
    split_ifs at h
    · exact hrest h
    · simp only [List.mem_append] at h
      rcases h with (h | h) | h
      · exact hrest h
      · obtain ⟨n, -, hf⟩ := exists_name_of_mem_levelFiles h
        exact ⟨name, List.mem_cons_self, [n], by simp, by simp [hf]⟩
      · obtain ⟨n, -, q, -, hf⟩ := ihEntries h
        exact ⟨name, List.mem_cons_self, n :: q, by simp, by simp [hf]⟩

lemma disjoint_levelFiles_deepFiles (dir : RelPath) (listing listing' : Listing) :
    ∀ p ∈ (levelFiles env dir listing).map Prod.fst, ∀ q ∈ (deepFiles env dir listing').map Prod.fst, p ≠ q := by
  rintro _ hp _ hq rfl
  obtain ⟨f, hf, rfl⟩ := List.mem_map.mp hp
  obtain ⟨g, hg, hgf⟩ := List.mem_map.mp hq
  obtain ⟨n, -, hfn⟩ := exists_name_of_mem_levelFiles hf
  obtain ⟨m, -, r, hr, hgm⟩ := exists_names_of_mem_deepFiles hg
  rw [hgm, hfn] at hgf
  simp only [List.append_cancel_left_eq, List.cons.injEq] at hgf
  exact hr hgf.2

lemma nodup_levelFiles (h : listing.Distinct) : ((levelFiles env dir listing).map Prod.fst).Nodup := by
  induction listing with
  | nil => simp [levelFiles]
  | dir name entries rest _ ih => exact ih h.2.2
  | leaf name kind rest ih =>
    have hrest := ih h.2
    rw [levelFiles_leaf]
    unfold entryFiles
    split
    · split_ifs
      · exact hrest
      · refine List.nodup_cons.mpr ⟨fun hmem => ?_, hrest⟩
        obtain ⟨f, hf, hfd⟩ := List.mem_map.mp hmem
        obtain ⟨n, hn, hfn⟩ := exists_name_of_mem_levelFiles hf
        rw [hfn] at hfd
        simp only [List.append_cancel_left_eq, List.cons.injEq, and_true] at hfd
        exact h.1 (hfd ▸ hn)
    · exact hrest

lemma nodup_deepFiles (h : listing.Distinct) : ((deepFiles env dir listing).map Prod.fst).Nodup := by
  induction listing generalizing dir with
  | nil => simp [deepFiles]
  | leaf name kind rest ih => exact ih h.2
  | dir name entries rest ihEntries ihRest =>
    have hrest : ((deepFiles env dir rest).map Prod.fst).Nodup := ihRest h.2.2
    rw [deepFiles]
    split_ifs
    · exact hrest
    · have hsub : ∀ g ∈ levelFiles env (dir ++ [name]) entries ++
          deepFiles env (dir ++ [name]) entries, ∃ q, g.1 = dir ++ name :: q := by
        intro g hg
        rcases List.mem_append.mp hg with hg | hg
        · obtain ⟨n, -, hgn⟩ := exists_name_of_mem_levelFiles hg
          exact ⟨[n], by simp [hgn]⟩
        · obtain ⟨n, -, q, -, hgn⟩ := exists_names_of_mem_deepFiles hg
          exact ⟨n :: q, by simp [hgn]⟩
      rw [List.append_assoc, List.map_append, List.nodup_append]
      refine ⟨hrest, ?_, ?_⟩
      · rw [List.map_append, List.nodup_append]
        exact ⟨nodup_levelFiles h.2.1, ihEntries h.2.1, disjoint_levelFiles_deepFiles _ _ _⟩
      · rintro _ hp _ hq rfl
        obtain ⟨f, hf, rfl⟩ := List.mem_map.mp hp
        obtain ⟨g, hg, hgf⟩ := List.mem_map.mp hq
        obtain ⟨n, hn, q, -, hfn⟩ := exists_names_of_mem_deepFiles hf
        obtain ⟨r, hgr⟩ := hsub g hg
        rw [hgr, hfn] at hgf
        simp only [List.append_cancel_left_eq, List.cons.injEq] at hgf
        exact h.1 (hgf.1 ▸ hn)

lemma nodup_walkFiles (source : SourceDir) : ((walkFiles env source).map Prod.fst).Nodup := by
  unfold walkFiles
  rw [List.map_append, List.nodup_append]
  exact ⟨nodup_levelFiles source.distinct, nodup_deepFiles source.distinct, disjoint_levelFiles_deepFiles _ _ _⟩

end Walk

/-! ## The copied tree -/

lemma treeOf_append_singleton (files : List (RelPath × ByteArray)) (f : RelPath × ByteArray) :
    treeOf (files ++ [f]) = (createDirAll (treeOf files) f.1).insert f.1 (.file f.2) := by
  simp [treeOf]

lemma fileAt_treeOf_eq_some_iff {files : List (RelPath × ByteArray)}
    (hnodup : (files.map Prod.fst).Nodup) {p : RelPath} {contents : ByteArray} :
    fileAt (treeOf files) p = some contents ↔ (p, contents) ∈ files := by
  induction files using List.reverseRecOn with
  | nil => simp [treeOf, fileAt]
  | append_singleton files f ih =>
    rw [List.map_append, List.nodup_append] at hnodup
    have hih := ih hnodup.1
    rw [treeOf_append_singleton]
    by_cases hp : p = f.1
    · subst hp
      have hnew : (f.1, contents) ∉ files := fun hmem =>
        hnodup.2.2 f.1 (List.mem_map.mpr ⟨_, hmem, rfl⟩) f.1 (by simp) rfl
      simp [fileAt, Finmap.lookup_insert, hnew, Prod.ext_iff, eq_comm]
    · have hlookup : fileAt ((createDirAll (treeOf files) f.1).insert f.1 (.file f.2)) p =
          fileAt (treeOf files) p := by
        rw [← fileAt_createDirAll (treeOf files) f.1 p]
        unfold fileAt
        rw [Finmap.lookup_insert_of_ne _ hp]
      rw [hlookup, hih]
      simp [Prod.ext_iff, hp]

lemma lookup_treeOf_ne_symlink (files : List (RelPath × ByteArray)) (p : RelPath) :
    (treeOf files).lookup p ≠ some .symlink := by
  induction files using List.reverseRecOn with
  | nil => simp [treeOf]
  | append_singleton files f ih =>
    rw [treeOf_append_singleton]
    by_cases hp : p = f.1
    · subst hp
      simp [Finmap.lookup_insert]
    · rw [Finmap.lookup_insert_of_ne _ hp, lookup_createDirAll]
      split_ifs
      · simp
      · exact ih

lemma total_treeOf (w : Node → ℕ) (hw : w .dir = 0) {files : List (RelPath × ByteArray)}
    (hnodup : (files.map Prod.fst).Nodup) :
    FiniteMap.total (fun _ => w) (treeOf files) = (files.map fun f => w (.file f.2)).sum := by
  induction files using List.reverseRecOn with
  | nil => rfl
  | append_singleton files f ih =>
    rw [List.map_append, List.nodup_append] at hnodup
    have hih := ih hnodup.1
    have hinsert := FiniteMap.total_insert (fun _ => w) (createDirAll (treeOf files) f.1) f.1
      (.file f.2)
    have hdirs : FiniteMap.total (fun _ => w) (createDirAll (treeOf files) f.1) =
        FiniteMap.total (fun _ => w) (treeOf files) := total_createDirs _ (fun _ => hw) _ _
    -- Nothing but a directory can stand at a path that was not copied yet.
    have hzero : FiniteMap.weightAt (fun _ => w) (createDirAll (treeOf files) f.1) f.1 = 0 := by
      unfold FiniteMap.weightAt
      cases hlookup : (createDirAll (treeOf files) f.1).lookup f.1 with
      | none => rfl
      | some node =>
        cases node with
        | dir => simpa using hw
        | symlink =>
          rw [lookup_createDirAll] at hlookup
          split_ifs at hlookup
          · simp at hlookup
          · exact absurd hlookup (lookup_treeOf_ne_symlink files f.1)
        | file contents =>
          have hfile : fileAt (treeOf files) f.1 = some contents := by
            rw [← fileAt_createDirAll (treeOf files) f.1 f.1]
            simp [fileAt, hlookup]
          have hmem := (fileAt_treeOf_eq_some_iff hnodup.1).mp hfile
          exact absurd rfl (hnodup.2.2 f.1 (List.mem_map.mpr ⟨_, hmem, rfl⟩) f.1 (by simp))
    rw [hdirs, hih, hzero] at hinsert
    rw [treeOf_append_singleton]
    simpa using hinsert

/-- What an accepted capture has copied. -/
structure Captured (env : CaptureEnv) (manifest : CaptureManifest) (tree : Tree)
    (files : List (RelPath × ByteArray)) : Prop where
  nodup : (files.map Prod.fst).Nodup
  tree_eq : tree = treeOf files
  manifest_perm : manifest.files.Perm (files.map fun f => manifestEntry env.sha f.1 f.2)
  totalBytes_eq : manifest.totalBytes = listBytes files
  files_le : files.length ≤ env.maxFiles
  bytes_le : listBytes files ≤ env.maxBytes

/-- An accepted capture copied the files of its walk within the limits. -/
theorem captureTree_spec {env : CaptureEnv} {source : SourceDir} {manifest : CaptureManifest}
    {tree : Tree} (h : captureTree env source = .ok (manifest, tree)) :
    Captured env manifest tree (walkFiles env source) := by
  have hbytes : listBytes (walkFiles env source) < 2 ^ 64 := by
    have hle := listBytes_walk_le env [] source.listing
    have hlt := source.bytes_lt
    rw [walkFiles, listBytes_append]
    omega
  unfold captureTree at h
  simp only [bind_eq_ok_iff] at h
  obtain ⟨_, -, level, hlevel, state, hstate, h⟩ := h
  have hempty : CaptureState.Holds env ⟨[], 0, ∅, ∅⟩ [] :=
    ⟨rfl, rfl, rfl, Nat.zero_le _, Nat.zero_le _⟩
  have hfirst : listBytes ([] ++ levelFiles env [] source.listing) < 2 ^ 64 := by
    rw [walkFiles, listBytes_append] at hbytes
    simpa using (by omega : listBytes (levelFiles env [] source.listing) < 2 ^ 64)
  have hholds := (hempty.capturePass hfirst hlevel).captureSubdirs hbytes hstate
  obtain ⟨rfl, rfl⟩ := Prod.mk.inj (Except.ok.inj h)
  exact ⟨nodup_walkFiles source, hholds.tree_eq,
    (List.perm_insertionSort _ _).trans (hholds.files_eq ▸ List.Perm.refl _),
    hholds.totalBytes_eq, hholds.files_le, hholds.bytes_le⟩

end AgzRustMcp
