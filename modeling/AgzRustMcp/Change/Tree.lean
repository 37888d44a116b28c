import AgzRustMcp.Foundation.FiniteMap
import AgzRustMcp.Change.Path

/-!
# The candidate tree

The part of the file system that the change service works on: a finite map from relative paths to
regular files, directories and symbolic links, without an entry for the root.
`rejectSymlinkedAncestors`, `createDirAll` and `readCandidateFile` are the checks and accesses of
`change/patch.rs`.
-/

namespace AgzRustMcp

open FiniteMap (total weightAt total_insert)

/-- One entry of the tree. -/
inductive Node where
  | file (contents : ByteArray)
  | dir
  | symlink
  deriving DecidableEq

abbrev Tree := Finmap fun _ : RelPath => Node

def fileAt (tree : Tree) (path : RelPath) : Option ByteArray :=
  match tree.lookup path with
  | some (.file contents) => some contents
  | _ => none

/-- The bytes an entry contributes to the size of a tree. -/
def Node.bytes : Node → ℕ
  | .file contents => contents.size
  | _ => 0

/-- The number of regular files an entry stands for. -/
def Node.files : Node → ℕ
  | .file _ => 1
  | _ => 0

def fileCount (tree : Tree) : ℕ := total (fun _ => Node.files) tree

/-- The number of bytes in the regular files of a tree. -/
def fileBytes (tree : Tree) : ℕ := total (fun _ => Node.bytes) tree

/-- The parent directories of a path inside the tree, outermost first. -/
def ancestors (path : RelPath) : List RelPath := path.dropLast.inits.filter (· ≠ [])

/-- The loop of `reject_symlinked_ancestors`; it stops at the first missing directory. -/
def rejectAncestors (tree : Tree) (path : RelPath) : List RelPath → Except String Unit
  | [] => .ok ()
  | ancestor :: rest =>
    match tree.lookup ancestor with
    | some .symlink =>
      .error ("candidate path contains a symlinked directory: " ++ relativePathString path)
    | some (.file _) =>
      .error ("candidate path component is not a directory: " ++ relativePathString path)
    | some .dir => rejectAncestors tree path rest
    | none => .ok ()

/-- `reject_symlinked_ancestors` of `change/patch.rs`. -/
def rejectSymlinkedAncestors (tree : Tree) (path : RelPath) : Except String Unit :=
  rejectAncestors tree path (ancestors path)

/-- Makes the missing ones of a list of directories. -/
def createDirs (tree : Tree) (dirs : List RelPath) : Tree :=
  dirs.foldl (fun t dir => if t.lookup dir = none then t.insert dir .dir else t) tree

/-- `fs::create_dir_all` of the parent of a path: only missing directories are made. -/
def createDirAll (tree : Tree) (path : RelPath) : Tree := createDirs tree (ancestors path)

/-- The text of the operating system for a missing file. -/
def notFoundText : String := "No such file or directory (os error 2)"

/-- `read_candidate_file` of `change/patch.rs`. -/
def readCandidateFile (tree : Tree) (path : RelPath) : Except String ByteArray :=
  match rejectSymlinkedAncestors tree path with
  | .error reason => .error reason
  | .ok _ =>
    match tree.lookup path with
    | none =>
      .error ("candidate file is unavailable " ++ relativePathString path ++ ": " ++ notFoundText)
    | some .symlink => .error ("candidate file is a symlink: " ++ relativePathString path)
    | some .dir => .error ("candidate path is not a regular file: " ++ relativePathString path)
    | some (.file contents) => .ok contents

/-! ## Ancestors -/

variable {path : RelPath} {tree : Tree}

lemma mem_ancestors_iff {ancestor : RelPath} :
    ancestor ∈ ancestors path ↔ ancestor <+: path.dropLast ∧ ancestor ≠ [] := by
  simp [ancestors, List.mem_filter, List.mem_inits]

lemma notMem_ancestors_self (h : path ≠ []) : path ∉ ancestors path := by
  intro hmem
  have hlen := (mem_ancestors_iff.mp hmem).1.length_le
  have hpos := List.length_pos_iff.mpr h
  rw [List.length_dropLast] at hlen
  omega

lemma lookup_createDirs (dirs : List RelPath) (tree : Tree) (path : RelPath) : (createDirs tree dirs).lookup path =
      if tree.lookup path = none ∧ path ∈ dirs then some .dir else tree.lookup path := by
  unfold createDirs
  induction dirs generalizing tree with
  | nil => simp
  | cons d dirs ih =>
    rw [List.foldl_cons, ih]
    by_cases hd : tree.lookup d = none
    · rw [if_pos hd]
      by_cases hp : path = d
      · subst hp
        simp [hd]
      · rw [Finmap.lookup_insert_of_ne _ hp]
        simp [hp]
    · rw [if_neg hd]
      by_cases hp : path = d
      · subst hp
        simp [hd]
      · simp [hp]

lemma lookup_createDirAll (tree : Tree) (path q : RelPath) : (createDirAll tree path).lookup q =
      if tree.lookup q = none ∧ q ∈ ancestors path then some .dir else tree.lookup q :=
  lookup_createDirs (ancestors path) tree q

lemma lookup_createDirAll_self (tree : Tree) (h : path ≠ []) :
    (createDirAll tree path).lookup path = tree.lookup path := by
  rw [lookup_createDirAll, if_neg fun hc => notMem_ancestors_self h hc.2]

lemma fileAt_createDirAll (tree : Tree) (path q : RelPath) : fileAt (createDirAll tree path) q = fileAt tree q := by
  unfold fileAt
  rw [lookup_createDirAll]
  split_ifs with h
  · rw [h.1]
  · rfl

lemma total_createDirs (w : RelPath → Node → ℕ) (hw : ∀ p, w p .dir = 0)
    (dirs : List RelPath) (tree : Tree) : total w (createDirs tree dirs) = total w tree := by
  unfold createDirs
  induction dirs generalizing tree with
  | nil => rfl
  | cons d dirs ih =>
    rw [List.foldl_cons, ih]
    split_ifs with hd
    · rw [FiniteMap.total_insert_of_lookup_none w _ hd, hw, Nat.add_zero]
    · rfl

lemma readCandidateFile_eq_ok_iff {contents : ByteArray} :
    readCandidateFile tree path = .ok contents ↔ rejectSymlinkedAncestors tree path = .ok () ∧
        tree.lookup path = some (.file contents) := by
  unfold readCandidateFile
  cases rejectSymlinkedAncestors tree path with
  | error reason => simp
  | ok _ =>
    cases tree.lookup path with
    | none => simp
    | some node => cases node <;> simp

lemma rejectAncestors_eq_ok_of_dirs {dirs : List RelPath}
    (h : ∀ d ∈ dirs, tree.lookup d = none ∨ tree.lookup d = some .dir) : rejectAncestors tree path dirs = .ok () := by
  induction dirs with
  | nil => rfl
  | cons d dirs ih =>
    unfold rejectAncestors
    rcases h d List.mem_cons_self with hd | hd
    · rw [hd]
    · rw [hd]
      exact ih fun e he => h e (List.mem_cons_of_mem _ he)

lemma lookup_eq_dir_of_rejectAncestors {dirs : List RelPath} (hpresent : ∀ d ∈ dirs, tree.lookup d ≠ none)
    (h : rejectAncestors tree path dirs = .ok ()) : ∀ d ∈ dirs, tree.lookup d = some .dir := by
  induction dirs with
  | nil => simp
  | cons d dirs ih =>
    have hd := hpresent d List.mem_cons_self
    unfold rejectAncestors at h
    cases hlookup : tree.lookup d with
    | none => exact absurd hlookup hd
    | some node =>
      rw [hlookup] at h
      cases node with
      | file contents => simp at h
      | symlink => simp at h
      | dir =>
        intro e he
        rcases List.mem_cons.mp he with rfl | he
        · exact hlookup
        · exact ih (fun x hx => hpresent x (List.mem_cons_of_mem _ hx)) h e he

lemma rejectSymlinkedAncestors_createDirAll_iff : rejectSymlinkedAncestors (createDirAll tree path) path = .ok () ↔
      ∀ a ∈ ancestors path, tree.lookup a = none ∨ tree.lookup a = some .dir := by
  constructor
  · intro h a ha
    have hpresent : ∀ d ∈ ancestors path, (createDirAll tree path).lookup d ≠ none := by
      intro d hd
      rw [lookup_createDirAll]
      split_ifs with hnone
      · simp
      · exact fun hc => hnone ⟨hc, hd⟩
    have hdir := lookup_eq_dir_of_rejectAncestors hpresent h a ha
    rw [lookup_createDirAll] at hdir
    split_ifs at hdir with hnone
    · exact Or.inl hnone.1
    · exact Or.inr hdir
  · intro h
    refine rejectAncestors_eq_ok_of_dirs fun d hd => Or.inr ?_
    rw [lookup_createDirAll]
    rcases h d hd with hnone | hdir
    · rw [if_pos ⟨hnone, hd⟩]
    · rw [if_neg (by simp [hdir]), hdir]

end AgzRustMcp
