import AgzRustMcp.Change.Path

/-!
# Paths of roots

`normalize_path` of `workspace/roots.rs` takes empty components and single dots out of a path and
refuses one with parent components.  `path_is_within` compares component by component.  Paths are
Unix paths.
-/

namespace AgzRustMcp.Workspace

open Utf8Text

/-- The refusals of `RootError` that paths, file URIs and client roots come to. -/
inductive RootError where
  | emptyConfiguredRoots
  | parentComponent
  | invalidPath (path : Text)
  | invalidFileUri (uri : Text)
  | clientRootsEmpty
  | clientRootsUnavailable
  | noRootIntersection
  | pathOutsideRoot (path : Text)
  | pathNotFound (path : Text)
  | notDirectory (path : Text)
  | symlink (path : Text)
  | io (operation : String) (path : Text) (message : String)
  deriving DecidableEq

/-- `PathBuf::push` of a name that is not empty: an absolute one replaces the path. -/
def pushPath (path name : Text) : Text :=
  if isAbsolute name then name
  else if path.getLast?.all (· = '/') then path ++ name
  else path ++ '/' :: name

/-- The loop of `normalize_path` over the components. -/
def normalizeFrom (normalized : Text) : List Component → Except RootError Text
  | [] => .ok normalized
  | .curDir :: rest => normalizeFrom normalized rest
  | .parentDir :: _ => .error .parentComponent
  | .normal name :: rest => normalizeFrom (pushPath normalized name.toList) rest
  | .rootDir :: rest => normalizeFrom (pushPath normalized ['/']) rest

def normalizePath (path : Text) : Except RootError Text :=
  if path = [] then .ok []
  else
    match normalizeFrom [] (components path) with
    | .error reason => .error reason
    | .ok normalized =>
      if isAbsolute path && !isAbsolute normalized then .error (.invalidPath path) else .ok normalized

/-! ## Normalized absolute paths -/

/-- A name that stands between two separators of a normalized path. -/
structure NormalName (name : Text) : Prop where
  ne_nil : name ≠ []
  no_separator : '/' ∉ name
  ne_dot : name ≠ ['.']
  ne_dotDot : name ≠ ['.', '.']

def absoluteOf (names : List Text) : Text := '/' :: ['/'].intercalate names

/-- A path is absolute and has no empty components and no dots. -/
def NormalizedAbsolute (path : Text) : Prop :=
  ∃ names : List Text, (∀ name ∈ names, NormalName name) ∧ path = absoluteOf names

section

variable {names : List Text} {path : Text}

@[simp] lemma isAbsolute_absoluteOf (names : List Text) : isAbsolute (absoluteOf names) = true := rfl

lemma partComponent?_of_normal {name : Text} (h : NormalName name) :
    partComponent? name = some (.normal (String.ofList name)) := by
  unfold partComponent?
  rw [if_neg (not_or.mpr ⟨h.ne_nil, h.ne_dot⟩), if_neg h.ne_dotDot]

lemma components_absoluteOf (h : ∀ name ∈ names, NormalName name) :
    components (absoluteOf names) = .rootDir :: names.map fun name => .normal (String.ofList name) := by
  have hnamed : ((absoluteOf names).splitOn '/').filterMap partComponent? =
      names.map fun name => .normal (String.ofList name) := by
    have hsplit : (absoluteOf names).splitOn '/' = [] :: (['/'].intercalate names).splitOn '/' := by
      rw [absoluteOf, List.splitOn_cons_eq_if_modifyHead, if_pos (by simp)]
    rw [hsplit, List.filterMap_cons_none (by simp [partComponent?])]
    cases names with
    | nil => rfl
    | cons name names =>
      rw [List.splitOn_intercalate '/' (fun part hpart => (h part hpart).no_separator)
        (List.cons_ne_nil _ _)]
      refine List.filterMap_eq_map_iff_forall_eq_some.mpr fun part hpart => ?_
      exact partComponent?_of_normal (h part hpart)
  unfold components
  dsimp only
  rw [isAbsolute_absoluteOf, if_pos rfl, hnamed]

lemma isAbsolute_of_normal {name : Text} (h : NormalName name) : isAbsolute name = false := by
  cases hname : name with
  | nil => rfl
  | cons c cs =>
    have hc : c ≠ '/' := by
      rintro rfl
      exact h.no_separator (by simp [hname])
    simp [isAbsolute, hc]

lemma intercalate_concat {done : List Text} (h : done ≠ []) (name : Text) :
    ['/'].intercalate (done ++ [name]) = ['/'].intercalate done ++ '/' :: name := by
  induction done with
  | nil => exact absurd rfl h
  | cons first done ih =>
    cases done with
    | nil => simp
    | cons second done =>
      have hrest := ih (List.cons_ne_nil _ _)
      rw [List.cons_append] at hrest
      rw [List.cons_append, List.cons_append, List.intercalate_cons_cons, hrest, List.intercalate_cons_cons]
      simp only [List.append_assoc]

lemma exists_absoluteOf_concat (done : List Text) (name : Text) :
    ∃ front, absoluteOf (done ++ [name]) = front ++ name := by
  unfold absoluteOf
  by_cases hdone : done = []
  · subst hdone
    exact ⟨['/'], by simp⟩
  · rw [intercalate_concat hdone]
    exact ⟨'/' :: ['/'].intercalate done ++ ['/'], by simp⟩

lemma pushPath_absoluteOf {done : List Text} (hdone : ∀ name ∈ done, NormalName name) {name : Text}
    (hname : NormalName name) : pushPath (absoluteOf done) name = absoluteOf (done ++ [name]) := by
  unfold pushPath
  rw [isAbsolute_of_normal hname, if_neg Bool.false_ne_true]
  rcases List.eq_nil_or_concat' done with rfl | ⟨before, last, rfl⟩
  · simp [absoluteOf]
  · have hlast := hdone last (by simp)
    obtain ⟨front, hfront⟩ := exists_absoluteOf_concat before last
    obtain ⟨c, hc⟩ : ∃ c, last.getLast? = some c :=
      Option.ne_none_iff_exists'.mp fun hnone => hlast.ne_nil (List.getLast?_eq_none_iff.mp hnone)
    have hend : (absoluteOf (before ++ [last])).getLast? = some c := by
      rw [hfront, List.getLast?_append, hc, Option.some_or]
    have hne : c ≠ '/' := by
      rintro rfl
      exact hlast.no_separator (List.mem_of_getLast? hc)
    rw [hend, Option.all_some, decide_eq_false hne, if_neg Bool.false_ne_true]
    have hconcat := intercalate_concat
      (List.append_ne_nil_of_right_ne_nil before (List.cons_ne_nil last [])) name
    unfold absoluteOf
    rw [hconcat, List.cons_append]

lemma normalizeFrom_absoluteOf {done : List Text} (hdone : ∀ name ∈ done, NormalName name)
    (h : ∀ name ∈ names, NormalName name) :
    normalizeFrom (absoluteOf done) (names.map fun name => .normal (String.ofList name)) =
      .ok (absoluteOf (done ++ names)) := by
  induction names generalizing done with
  | nil => simp [normalizeFrom]
  | cons name names ih =>
    have hname := h name List.mem_cons_self
    rw [List.map_cons, normalizeFrom, String.toList_ofList, pushPath_absoluteOf hdone hname, ih, List.append_assoc,
      List.singleton_append]
    · intro part hpart
      rcases List.mem_append.mp hpart with hpart | hpart
      · exact hdone part hpart
      · rw [List.mem_singleton.mp hpart]
        exact hname
    · exact fun part hpart => h part (List.mem_cons_of_mem _ hpart)

/-- A normalized absolute path is its own normal form. -/
theorem normalizePath_absoluteOf (h : ∀ name ∈ names, NormalName name) :
    normalizePath (absoluteOf names) = .ok (absoluteOf names) := by
  have hroot : pushPath [] ['/'] = absoluteOf [] := rfl
  have hloop := @normalizeFrom_absoluteOf names [] (by simp) h
  unfold normalizePath
  rw [if_neg (by simp [absoluteOf]), components_absoluteOf h, normalizeFrom, hroot, hloop]
  simp

end

end AgzRustMcp.Workspace
