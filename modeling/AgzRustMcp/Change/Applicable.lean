import AgzRustMcp.Change.Replay

/-!
# Which accepted plans can be applied

`plan_patches` checks every path against the candidate as it is, one by one.  But the file that one
new file makes may be the directory that another one needs.  `applyPlan_completes_iff` says that an
accepted plan can be applied just when this does not happen.
-/

namespace AgzRustMcp

open Utf8Text Checked

/-! ## Trees and lists of files that fit -/

/-- The parents of everything in the tree are directories, as in every file system. -/
def Rooted (tree : Tree) : Prop :=
  ∀ path, tree.lookup path ≠ none → ∀ a ∈ ancestors path, tree.lookup a = some .dir

/-- No file is to be made where another one needs a directory. -/
def NoFileAbove (files : List PlannedFile) : Prop :=
  ∀ f ∈ files, ∀ g ∈ files, f.relative ∉ ancestors g.relative

/-- A file can be written: its parents are no files, its place no directory. -/
structure Writable (tree : Tree) (file : PlannedFile) : Prop where
  named : file.relative ≠ []
  parents : ∀ a ∈ ancestors file.relative, tree.lookup a = none ∨ tree.lookup a = some .dir
  place : tree.lookup file.relative = none ∨ ∃ contents, tree.lookup file.relative = some (.file contents)

section

variable {tree : Tree} {file : PlannedFile} {files : List PlannedFile}

lemma Writable.after (h : Writable tree file) {other : PlannedFile} (hother : Writable tree other)
    (hne : other.relative ≠ file.relative) (habove : file.relative ∉ ancestors other.relative)
    (hbelow : other.relative ∉ ancestors file.relative) :
    Writable ((createDirAll tree file.relative).insert file.relative (.file file.contents)) other := by
  refine ⟨hother.named, ?_, ?_⟩
  · intro a ha
    have hfile : a ≠ file.relative := fun heq => habove (heq ▸ ha)
    rw [lookup_written, if_neg hfile]
    split_ifs
    · exact Or.inr rfl
    · exact hother.parents a ha
  · rw [lookup_written, if_neg hne, if_neg fun hdir => hbelow hdir.2]
    exact hother.place

lemma applyPlan_of_writable (hwritable : ∀ file ∈ files, Writable tree file)
    (hnodup : (files.map PlannedFile.relative).Nodup) (habove : NoFileAbove files) :
    (applyPlan (fun _ => none) tree files).2 = none := by
  induction files generalizing tree with
  | nil => rfl
  | cons file files ih =>
    have hfile := hwritable file List.mem_cons_self
    have happly : applyFile (fun _ => none) tree file =
        ((createDirAll tree file.relative).insert file.relative (.file file.contents), none) :=
      (applyFile_eq_none_iff hfile.named).mpr ⟨rfl, hfile.parents, hfile.place, rfl⟩
    rw [List.map_cons, List.nodup_cons] at hnodup
    rw [applyPlan, happly]
    refine ih ?_ hnodup.2 ?_
    · intro other hother
      have hmem := List.mem_cons_of_mem file hother
      refine hfile.after (hwritable other hmem) ?_ (habove _ List.mem_cons_self _ hmem)
        (habove _ hmem _ List.mem_cons_self)
      exact fun heq => hnodup.1 (heq ▸ List.mem_map_of_mem hother)
    · intro f hf g hg
      exact habove f (List.mem_cons_of_mem _ hf) g (List.mem_cons_of_mem _ hg)

lemma noFileAbove_of_applyPlan (h : (applyPlan (fun _ => none) tree files).2 = none)
    (hnamed : ∀ file ∈ files, file.relative ≠ [])
    (hnodup : (files.map PlannedFile.relative).Nodup) : NoFileAbove files := by
  intro f hf g hg habove
  have happly : applyPlan (fun _ => none) tree files =
      ((applyPlan (fun _ => none) tree files).1, none) := Prod.ext rfl h
  have hdir := lookup_ancestor_applyPlan happly hnamed hg habove
  have hfile := lookup_applyPlan happly hnamed hnodup f.relative
  rw [writtenAt_of_mem hnodup hf, hdir] at hfile
  cases hfile

lemma pairwise_inits {α : Type*} (l : List α) : l.inits.Pairwise fun a b => a <+: b ∧ a ≠ b := by
  induction l with
  | nil => simp
  | cons x l ih =>
    rw [List.inits_cons, List.pairwise_cons]
    constructor
    · intro b hb
      obtain ⟨c, -, rfl⟩ := List.mem_map.mp hb
      exact ⟨List.nil_prefix, by simp⟩
    · rw [List.pairwise_map]
      refine ih.imp ?_
      rintro a b ⟨hlead, hne⟩
      exact ⟨List.cons_prefix_cons.mpr ⟨rfl, hlead⟩, by simpa using hne⟩

lemma pairwise_ancestors (path : RelPath) : (ancestors path).Pairwise fun a b => a ∈ ancestors b := by
  have hinits := (pairwise_inits path.dropLast).filter (· ≠ [])
  refine hinits.imp_of_mem ?_
  rintro a b ha - ⟨⟨t, rfl⟩, hne⟩
  have ht : t ≠ [] := by
    rintro rfl
    simp at hne
  rw [mem_ancestors_iff]
  refine ⟨?_, by simpa using (List.mem_filter.mp ha).2⟩
  rw [List.dropLast_append_of_ne_nil ht]
  exact List.prefix_append _ _

lemma parents_of_rejectAncestors (hrooted : Rooted tree) {path : RelPath}
    (h : rejectSymlinkedAncestors tree path = .ok ()) :
    ∀ a ∈ ancestors path, tree.lookup a = none ∨ tree.lookup a = some .dir := by
  have hwalk : ∀ dirs : List RelPath, dirs.Pairwise (fun a b => a ∈ ancestors b) →
      rejectAncestors tree path dirs = .ok () →
      ∀ a ∈ dirs, tree.lookup a = none ∨ tree.lookup a = some .dir := by
    intro dirs hdirs hok
    induction dirs with
    | nil => simp
    | cons d dirs ih =>
      obtain ⟨hbelow, hdirs⟩ := List.pairwise_cons.mp hdirs
      unfold rejectAncestors at hok
      intro a ha
      cases hd : tree.lookup d with
      | none =>
        -- The check stops here, and what is below a missing directory is missing.
        rcases List.mem_cons.mp ha with rfl | ha
        · exact Or.inl hd
        · refine Or.inl ?_
          by_contra hpresent
          have hdir := hrooted a hpresent d (hbelow a ha)
          rw [hd] at hdir
          cases hdir
      | some node =>
        rw [hd] at hok
        cases node with
        | file contents => cases hok
        | symlink => cases hok
        | dir =>
          rcases List.mem_cons.mp ha with rfl | ha
          · exact Or.inr hd
          · exact ih hdirs hok a ha
  exact hwalk _ (pairwise_ancestors path) h

end

/-! ## Accepted plans -/

section

variable {tree : Tree} {patches : List PatchInput} {newFiles : List NewFileInput}
  {limits : CandidateLimits} {plan : PatchPlan}

lemma writable_of_planPatches (hrooted : Rooted tree) (h : planPatches tree patches newFiles limits = .ok plan) :
    ∀ file ∈ plan.files, Writable tree file := by
  have hspec := planPatches_spec h
  intro file hfile
  refine ⟨(hspec.normal file hfile).ne_nil, ?_, ?_⟩
  · exact parents_of_rejectAncestors hrooted (hspec.ancestors file hfile)
  · have hfits := hspec.fits file hfile
    unfold PlannedFile.Fits at hfits
    split_ifs at hfits
    · obtain ⟨contents, hlookup, -⟩ := hfits
      exact Or.inr ⟨contents, hlookup⟩
    · exact Or.inl hfits.1

lemma exists_newFile_of_mem (h : planPatches tree patches newFiles limits = .ok plan)
    {file : NewFileInput} (hfile : file ∈ newFiles) :
    ∃ new ∈ plan.newFiles, normalizeRelative file.file = .ok new.relative := by
  obtain ⟨state, newPlanned, -, hfiles, -, -, -, rfl⟩ := planPatches_eq_ok_iff.mp h
  obtain ⟨added, hadded, hforall⟩ := forall₂_newPlanned hfiles
  obtain rfl : newPlanned = added := by simpa using hadded
  clear h hfiles hadded
  induction hforall with
  | nil => cases hfile
  | cons hfirst _ ih =>
    rcases List.mem_cons.mp hfile with rfl | hfile
    · exact ⟨_, List.mem_cons_self, hfirst.1⟩
    · obtain ⟨new, hnew, hpath⟩ := ih hfile
      exact ⟨new, List.mem_cons_of_mem _ hnew, hpath⟩

lemma noFileAbove_iff (hrooted : Rooted tree) (h : planPatches tree patches newFiles limits = .ok plan) :
    NoFileAbove plan.files ↔ ∀ f ∈ newFiles, ∀ g ∈ newFiles, ∀ p q : RelPath,
      normalizeRelative f.file = .ok p → normalizeRelative g.file = .ok q → p ∉ ancestors q := by
  have hspec := planPatches_spec h
  have hcreated : ∀ new ∈ plan.newFiles, new.toPlanned ∈ plan.files := by
    intro new hnew
    refine List.mem_of_mem_filter (p := fun file => !file.existed) ?_
    rw [hspec.created]
    exact List.mem_map_of_mem hnew
  constructor
  · intro habove f hf g hg p q hp hq
    obtain ⟨new, hnew, hpath⟩ := exists_newFile_of_mem h hf
    obtain ⟨other, hother, hpath'⟩ := exists_newFile_of_mem h hg
    obtain rfl := Except.ok.inj (hp.symm.trans hpath)
    obtain rfl := Except.ok.inj (hq.symm.trans hpath')
    exact habove _ (hcreated new hnew) _ (hcreated other hother)
  · intro hnew f hf g hg habove
    have hfits := hspec.fits f hf
    have hfits' := hspec.fits g hg
    unfold PlannedFile.Fits at hfits hfits'
    split_ifs at hfits with hexisted
    · -- A file of the candidate is above the other one, whose parents are directories.
      obtain ⟨contents, hlookup, -⟩ := hfits
      rcases (writable_of_planPatches hrooted h g hg).parents _ habove with hnone | hdir
      · rw [hlookup] at hnone
        cases hnone
      · rw [hlookup] at hdir
        cases hdir
    · split_ifs at hfits' with hexisted'
      · -- The other one is in the candidate, and so is everything above it.
        obtain ⟨contents, hlookup, -⟩ := hfits'
        have hdir := hrooted g.relative (by simp [hlookup]) _ habove
        rw [hfits.1] at hdir
        cases hdir
      · have hmem : ∀ file ∈ plan.files, file.existed ≠ true →
            ∃ input ∈ newFiles, normalizeRelative input.file = .ok file.relative := by
          intro file hfile hnot
          have hfilter : file ∈ plan.files.filter fun file => !file.existed :=
            List.mem_filter.mpr ⟨hfile, by simpa using hnot⟩
          rw [hspec.created] at hfilter
          obtain ⟨new, hnew', rfl⟩ := List.mem_map.mp hfilter
          exact exists_input_of_mem_newFiles h hnew'
        obtain ⟨input, hinput, hpath⟩ := hmem f hf hexisted
        obtain ⟨other, hother, hpath'⟩ := hmem g hg hexisted'
        exact hnew input hinput other hother _ _ hpath hpath' habove

/-- A plan goes through just when no new file is where another needs a directory. -/
theorem applyPlan_completes_iff (hrooted : Rooted tree)
    (h : planPatches tree patches newFiles limits = .ok plan) :
    (applyPlan (fun _ => none) tree plan.files).2 = none ↔ ∀ f ∈ newFiles, ∀ g ∈ newFiles, ∀ p q : RelPath,
        normalizeRelative f.file = .ok p → normalizeRelative g.file = .ok q →
        p ∉ ancestors q := by
  have hspec := planPatches_spec h
  have hwritable := writable_of_planPatches hrooted h
  rw [← noFileAbove_iff hrooted h]
  constructor
  · intro happly
    exact noFileAbove_of_applyPlan happly (fun file hfile => (hwritable file hfile).named)
      hspec.nodup
  · exact applyPlan_of_writable hwritable hspec.nodup

/-- Room for a few files. -/
def someLimits : CandidateLimits := ⟨0, 0, 10, 100⟩

def lettersPlan (files : List (RelPath × String)) : PatchPlan where
  files := files.map fun (relative, content) => ⟨relative, encodeUtf8 content.toList, false, 0⟩
  patches := []
  newFiles := files.map fun (relative, content) => ⟨relative, content⟩

theorem applyPlan_completes_two_files :
    (applyPlan (fun _ => none) ∅
      (lettersPlan [([.unicode "a"], "x"), ([.unicode "b", .unicode "c"], "y")]).files).2 = none := by
  have hplan : planPatches ∅ [] [⟨"a", "x"⟩, ⟨"b/c", "y"⟩] someLimits =
      .ok (lettersPlan [([.unicode "a"], "x"), ([.unicode "b", .unicode "c"], "y")]) := by
    decide +kernel
  refine (applyPlan_completes_iff (fun path hpath => absurd rfl hpath) hplan).mpr ?_
  have hpaths : ∀ f ∈ ([⟨"a", "x"⟩, ⟨"b/c", "y"⟩] : List NewFileInput), ∀ p : RelPath,
      normalizeRelative f.file = .ok p →
      p = [.unicode "a"] ∨ p = [.unicode "b", .unicode "c"] := by
    have ha : normalizeRelative "a" = .ok [.unicode "a"] := by decide +kernel
    have hb : normalizeRelative "b/c" = .ok [.unicode "b", .unicode "c"] := by decide +kernel
    intro f hf p hp
    rcases List.mem_pair.mp hf with rfl | rfl
    · exact Or.inl (Except.ok.inj (hp.symm.trans ha))
    · exact Or.inr (Except.ok.inj (hp.symm.trans hb))
  intro f hf g hg p q hp hq
  rcases hpaths f hf p hp with rfl | rfl <;> rcases hpaths g hg q hq with rfl | rfl <;> decide

/-- Two new files, the first where the second needs a directory. -/
theorem planned_but_not_applied :
    planPatches ∅ [] [⟨"a", "x"⟩, ⟨"a/b", "y"⟩] someLimits =
      .ok (lettersPlan [([.unicode "a"], "x"), ([.unicode "a", .unicode "b"], "y")]) ∧
    (applyPlan (fun _ => none) ∅
      (lettersPlan [([.unicode "a"], "x"), ([.unicode "a", .unicode "b"], "y")]).files).2 =
        some "candidate path component is not a directory: a/b" := by
  decide +kernel

end

end AgzRustMcp
