import AgzRustMcp.Workspace.Roots

/-!
# What a client's roots leave of the configured ones

Two paths that both lead to a third are nested, so taking the inner one of each nested pair of a
configured root and a client root gives the intersection of the two families
(`snapshot_intersection`), whichever way the roots are nested.
-/

namespace AgzRustMcp.Workspace

open Distinct
open Utf8Text

variable {names rest done : List Text} {path root : Text}

/-! ## Components -/

lemma notMem_rootDir_tail (path : Text) : Component.rootDir ∉ (components path).tail := by
  have hnamed : Component.rootDir ∉ (path.splitOn '/').filterMap partComponent? := by
    intro hmem
    obtain ⟨part, -, hpart⟩ := List.mem_filterMap.mp hmem
    unfold partComponent? at hpart
    split_ifs at hpart <;> simp at hpart
  unfold components
  dsimp only
  split_ifs
  · exact hnamed
  · exact hnamed
  · exact fun hmem => hnamed (List.mem_of_mem_tail hmem)

/-- A path spelled unlike a normalized one, as with a last separator. -/
structure Spells (names : List Text) (path : Text) : Prop where
  normal : ∀ name ∈ names, NormalName name
  absolute : isAbsolute path = true
  components_eq : components path = components (absoluteOf names)

lemma spells_absoluteOf (h : ∀ name ∈ names, NormalName name) : Spells names (absoluteOf names) :=
  ⟨h, rfl, rfl⟩

lemma Spells.normalizePath (h : Spells names path) : normalizePath path = .ok (absoluteOf names) := by
  have hne : path ≠ [] := by
    rintro rfl
    exact absurd h.absolute (by simp [isAbsolute])
  have hroot : pushPath [] ['/'] = absoluteOf [] := rfl
  have hloop := @normalizeFrom_absoluteOf names [] (by simp) h.normal
  unfold Workspace.normalizePath
  rw [if_neg hne, h.components_eq, components_absoluteOf h.normal, normalizeFrom, hroot, hloop]
  simp

lemma pathIsWithin_iff (h : Spells names root) :
    pathIsWithin root path = true ↔ ∃ normalized, normalizePath path = .ok normalized ∧
        components (absoluteOf names) <+: components normalized := by
  unfold pathIsWithin
  rw [h.normalizePath]
  dsimp only
  cases hpath : normalizePath path with
  | error reason => simp
  | ok normalized =>
    simp only [Except.ok.injEq, exists_eq_left', Bool.or_eq_true, beq_iff_eq]
    constructor
    · rintro (heq | hrest)
      · rw [heq]
      · unfold stripComponents at hrest
        split_ifs at hrest with hpre
        · exact List.isPrefixOf_iff_prefix.mp hpre
        · simp at hrest
    · intro hpre
      right
      unfold stripComponents
      rw [if_pos (List.isPrefixOf_iff_prefix.mpr hpre), Option.any_some, bne_iff_ne]
      intro hhead
      -- The root is not among the components behind a prefix that begins with it.
      refine notMem_rootDir_tail normalized ?_
      have hmem := List.mem_of_mem_head? (Option.mem_def.mpr hhead)
      rw [components_absoluteOf h.normal, List.length_cons, ← List.drop_tail] at hmem
      exact List.mem_of_mem_drop hmem

lemma pathIsWithin_iff_names (h : Spells names root) (hpath : Spells rest path) :
    pathIsWithin root path = true ↔ components root <+: components path := by
  rw [pathIsWithin_iff h, hpath.normalizePath, h.components_eq, hpath.components_eq]
  simp

lemma prefix_of_components_prefix (hnames : ∀ name ∈ names, NormalName name) (hrest : ∀ name ∈ rest, NormalName name)
    (h : components (absoluteOf names) <+: components (absoluteOf rest)) : names <+: rest := by
  rw [components_absoluteOf hnames, components_absoluteOf hrest, List.cons_prefix_cons] at h
  obtain ⟨front, hfront, heq⟩ := List.prefix_map_iff.mp h.2
  have hinj : Function.Injective fun name : Text => Component.normal (String.ofList name) := by
    intro left right heq
    exact String.ofList_injective (Component.normal.inj heq)
  rw [List.map_injective_iff.mpr hinj heq]
  exact hfront

/-! ## Relative paths -/

lemma intercalate_append {left right : List Text} (hleft : left ≠ []) (hright : right ≠ []) :
    ['/'].intercalate (left ++ right) = ['/'].intercalate left ++ '/' :: ['/'].intercalate right := by
  induction left with
  | nil => exact absurd rfl hleft
  | cons first left ih =>
    cases left with
    | nil => simp [List.intercalate_cons_of_ne_nil hright]
    | cons second left =>
      have hrest := ih (List.cons_ne_nil _ _)
      rw [List.cons_append] at hrest
      rw [List.cons_append, List.cons_append, List.intercalate_cons_cons, hrest, List.intercalate_cons_cons]
      simp only [List.append_assoc]

lemma exists_intercalate_concat (h : ∀ name ∈ names, NormalName name) (hne : names ≠ []) :
    ∃ front c, ['/'].intercalate names = front ++ [c] ∧ c ≠ '/' := by
  obtain ⟨before, last, rfl⟩ := (List.eq_nil_or_concat' names).resolve_left hne
  have hlast := h last (by simp)
  obtain ⟨start, c, rfl⟩ := (List.eq_nil_or_concat' last).resolve_left hlast.ne_nil
  have hc : c ≠ '/' := by
    rintro rfl
    exact hlast.no_separator (by simp)
  rcases eq_or_ne before [] with rfl | hbefore
  · exact ⟨start, c, by simp, hc⟩
  · rw [intercalate_append hbefore (List.cons_ne_nil _ _)]
    exact ⟨['/'].intercalate before ++ '/' :: start, c, by simp, hc⟩

lemma isAbsolute_intercalate (h : ∀ name ∈ names, NormalName name) :
    isAbsolute (['/'].intercalate names) = false := by
  cases names with
  | nil => rfl
  | cons name names =>
    have hname := h name List.mem_cons_self
    have hfirst := isAbsolute_of_normal hname
    obtain ⟨c, cs, rfl⟩ := List.exists_cons_of_ne_nil hname.ne_nil
    rcases eq_or_ne names [] with rfl | hnames
    · rw [List.intercalate_singleton]
      exact hfirst
    · rw [List.intercalate_cons_of_ne_nil hnames]
      exact hfirst

lemma pushPath_of_concat {front added : Text} {c : Char} (hc : c ≠ '/') (hadded : isAbsolute added = false) :
    pushPath (front ++ [c]) added = front ++ [c] ++ '/' :: added := by
  unfold pushPath
  rw [hadded, if_neg Bool.false_ne_true, List.getLast?_concat, Option.all_some, decide_eq_false hc,
    if_neg Bool.false_ne_true]

lemma normalizeRelativeParts_normal (h : ∀ name ∈ names, NormalName name) :
    normalizeRelativeParts (names.map fun name => .normal (String.ofList name)) = ['/'].intercalate names := by
  induction names using List.reverseRecOn with
  | nil => rfl
  | append_singleton done name ih =>
    have hdone : ∀ part ∈ done, NormalName part := fun part hpart => h part (by simp [hpart])
    have hname := isAbsolute_of_normal (h name (by simp))
    unfold normalizeRelativeParts at ih ⊢
    rw [List.map_append, List.foldl_append, ih hdone]
    simp only [List.map_cons, List.map_nil, List.foldl_cons, List.foldl_nil, String.toList_ofList]
    rcases eq_or_ne done [] with rfl | hne
    · simp [pushPath, hname]
    · obtain ⟨front, c, hfront, hc⟩ := exists_intercalate_concat hdone hne
      rw [intercalate_append hne (List.cons_ne_nil _ _), hfront, pushPath_of_concat hc hname,
        List.intercalate_singleton]

lemma components_cons_intercalate {parts : List Text} (h : ∀ part ∈ parts, '/' ∉ part) :
    components ('/' :: ['/'].intercalate parts) = .rootDir :: parts.filterMap partComponent? := by
  have hnamed : (('/' :: ['/'].intercalate parts).splitOn '/').filterMap partComponent? =
      parts.filterMap partComponent? := by
    rw [List.splitOn_cons_eq_if_modifyHead, if_pos (by simp), List.filterMap_cons_none (by simp [partComponent?])]
    cases parts with
    | nil => rfl
    | cons part parts => rw [List.splitOn_intercalate '/' h (List.cons_ne_nil _ _)]
  unfold components
  dsimp only
  rw [if_pos (by rfl), hnamed]

lemma spells_pushPath (h : ∀ name ∈ names ++ rest, NormalName name) :
    Spells (names ++ rest) (pushPath (absoluteOf names) (['/'].intercalate rest)) := by
  have hnames : ∀ name ∈ names, NormalName name := fun name hname => h name (by simp [hname])
  have hrest : ∀ name ∈ rest, NormalName name := fun name hname => h name (by simp [hname])
  have hrelative := isAbsolute_intercalate hrest
  rcases eq_or_ne names [] with rfl | hne
  · have hpush : pushPath (absoluteOf []) (['/'].intercalate rest) = absoluteOf rest := by
      unfold pushPath
      rw [hrelative, if_neg Bool.false_ne_true]
      rfl
    rw [hpush]
    exact spells_absoluteOf h
  · obtain ⟨front, c, hfront, hc⟩ := exists_intercalate_concat hnames hne
    have hpush : pushPath (absoluteOf names) (['/'].intercalate rest) =
        absoluteOf names ++ '/' :: ['/'].intercalate rest := by
      rw [absoluteOf, hfront]
      exact @pushPath_of_concat ('/' :: front) _ c hc hrelative
    rw [hpush]
    refine ⟨h, rfl, ?_⟩
    rcases eq_or_ne rest [] with rfl | hrestNe
    · have hparts : absoluteOf names ++ '/' :: ['/'].intercalate [] = '/' :: ['/'].intercalate (names ++ [[]]) := by
        rw [intercalate_append hne (List.cons_ne_nil _ _)]
        simp [absoluteOf]
      rw [hparts, components_cons_intercalate, List.append_nil, absoluteOf, components_cons_intercalate,
        List.filterMap_append]
      · simp [partComponent?]
      · exact fun part hpart => (hnames part hpart).no_separator
      · intro part hpart
        rcases List.mem_append.mp hpart with hpart | hpart
        · exact (hnames part hpart).no_separator
        · rw [List.mem_singleton.mp hpart]
          exact List.not_mem_nil
    · rw [absoluteOf, absoluteOf, intercalate_append hne hrestNe, List.cons_append]

lemma components_intercalate (h : ∀ name ∈ names, NormalName name) :
    components (['/'].intercalate names) = names.map fun name => .normal (String.ofList name) := by
  cases names with
  | nil => rfl
  | cons name names =>
    have hnamed : (name :: names).filterMap partComponent? =
        (name :: names).map fun name => .normal (String.ofList name) :=
      List.filterMap_eq_map_iff_forall_eq_some.mpr fun part hpart => partComponent?_of_normal (h part hpart)
    unfold components
    dsimp only
    rw [isAbsolute_intercalate h, if_neg Bool.false_ne_true,
      List.splitOn_intercalate '/' (fun part hpart => (h part hpart).no_separator) (List.cons_ne_nil _ _),
      if_neg, hnamed]
    rw [List.head?_cons, Option.some.injEq]
    exact (h name List.mem_cons_self).ne_dot

/-! ## Directories -/

/-- The canonical path of a directory: no symlink, and all can be opened. -/
structure CanonicalDirectory (disk : Disk) (names : List Text) (path : Text) : Prop where
  normal : ∀ name ∈ names, NormalName name
  path_eq : path = absoluteOf names
  canonicalize : ∀ spelling, Spells names spelling → disk.canonicalize spelling = .ok path
  metadata : disk.metadata path = .ok .directory
  entries : ∀ front, front <+: names → front ≠ [] → disk.symlinkMetadata (absoluteOf front) = .ok .directory
  opens : ∀ front, front <+: names → disk.openDir (absoluteOf front) = .ok ()

variable {disk : Disk}

lemma checkComponents_canonical (h : CanonicalDirectory disk names path) (hdone : done ++ rest = names) :
    checkComponents disk (absoluteOf done) (rest.map fun name => .normal (String.ofList name)) = .ok () := by
  induction rest generalizing done with
  | nil => rfl
  | cons name rest ih =>
    have hnormal := h.normal
    rw [← hdone] at hnormal
    have hpush : pushPath (absoluteOf done) name = absoluteOf (done ++ [name]) :=
      pushPath_absoluteOf (fun part hpart => hnormal part (by simp [hpart])) (hnormal name (by simp))
    have hnext : done ++ [name] ++ rest = names := by simpa using hdone
    have hentry := h.entries (done ++ [name]) ⟨rest, hnext⟩ (by simp)
    rw [List.map_cons, checkComponents, String.toList_ofList, hpush, hentry]
    exact ih hnext

lemma checkNoSymlinkComponents_canonical (h : CanonicalDirectory disk names path) {spelling : Text}
    (hspells : Spells names spelling) : checkNoSymlinkComponents disk spelling = .ok () := by
  have hroot : pushPath [] ['/'] = absoluteOf [] := rfl
  unfold checkNoSymlinkComponents absolutePath
  rw [hspells.absolute, if_pos rfl, hspells.normalizePath]
  simp only [bind, Except.bind]
  rw [components_absoluteOf h.normal, checkComponents, hroot]
  exact checkComponents_canonical h rfl

lemma canonicalDirectory_canonical (h : CanonicalDirectory disk names path) :
    canonicalDirectory disk path = .ok path := by
  have hspells : Spells names path := by
    rw [h.path_eq]
    exact spells_absoluteOf h.normal
  unfold canonicalDirectory absolutePath
  rw [hspells.absolute, if_pos rfl, hspells.normalizePath, ← h.path_eq]
  simp only [bind, Except.bind]
  rw [h.canonicalize path hspells]
  simp only
  rw [checkNoSymlinkComponents_canonical h hspells]
  simp only
  rw [h.metadata]
  simp

lemma openComponents_canonical (h : CanonicalDirectory disk names path) (root : AuthorizedRoot)
    (relative : Text) (hdone : done ++ rest = names) : root.openComponents disk relative (absoluteOf done)
      (rest.map fun name => .normal (String.ofList name)) = .ok () := by
  induction rest generalizing done with
  | nil => rfl
  | cons name rest ih =>
    have hnormal := h.normal
    rw [← hdone] at hnormal
    have hpush : pushPath (absoluteOf done) name = absoluteOf (done ++ [name]) :=
      pushPath_absoluteOf (fun part hpart => hnormal part (by simp [hpart])) (hnormal name (by simp))
    have hnext : done ++ [name] ++ rest = names := by simpa using hdone
    have hentry := h.entries (done ++ [name]) ⟨rest, hnext⟩ (by simp)
    have hopen := h.opens (done ++ [name]) ⟨rest, hnext⟩
    rw [List.map_cons, AuthorizedRoot.openComponents, String.toList_ofList, hpush, hentry]
    simp only [bind, Except.bind, reduceCtorEq, if_false, ne_eq, not_true_eq_false]
    rw [hopen]
    exact ih hnext

lemma authorizeDir_canonical {root : AuthorizedRoot} (hroot : root.canonical = absoluteOf done)
    (h : CanonicalDirectory disk (done ++ rest) path) :
    ∃ canonical, root.authorizeDir disk path = .ok ⟨canonical, root.kind⟩ ∧ Spells (done ++ rest) canonical := by
  have hdone : ∀ name ∈ done, NormalName name := fun name hname => h.normal name (by simp [hname])
  have hrest : ∀ name ∈ rest, NormalName name := fun name hname => h.normal name (by simp [hname])
  have hpath : Spells (done ++ rest) path := by
    rw [h.path_eq]
    exact spells_absoluteOf h.normal
  have hjoin : Spells (done ++ rest) (pushPath root.canonical (['/'].intercalate rest)) := by
    rw [hroot]
    exact spells_pushPath h.normal
  have hstrip : stripComponents path root.canonical = some (rest.map fun name => .normal (String.ofList name)) := by
    unfold stripComponents
    rw [hroot, hpath.components_eq, components_absoluteOf hdone, components_absoluteOf h.normal,
      List.map_append, ← List.cons_append, if_pos (List.isPrefixOf_iff_prefix.mpr (List.prefix_append _ _)),
      List.drop_left]
  have hwithin : pathIsWithin root.canonical path = true := by
    rw [hroot, pathIsWithin_iff_names (spells_absoluteOf hdone) hpath, hpath.components_eq,
      components_absoluteOf hdone, components_absoluteOf h.normal, List.map_append, ← List.cons_append]
    exact List.prefix_append _ _
  have hinput : root.relativeInput path = .ok (['/'].intercalate rest) := by
    unfold AuthorizedRoot.relativeInput
    rw [hpath.normalizePath, ← h.path_eq]
    simp only [bind, Except.bind]
    rw [hpath.absolute, if_pos rfl, hstrip]
    simp only
    rw [normalizeRelativeParts_normal hrest]
  have hrelative : root.relativePath disk path = .ok (['/'].intercalate rest) := by
    unfold AuthorizedRoot.relativePath
    rw [hinput]
    simp only [bind, Except.bind]
    rw [checkNoSymlinkComponents_canonical h hjoin]
    simp only
    rw [h.canonicalize _ hjoin]
    simp only
    rw [hwithin, if_pos rfl, hstrip]
    simp only
    rw [normalizeRelativeParts_normal hrest]
  refine ⟨pushPath root.canonical (['/'].intercalate rest), ?_, hjoin⟩
  unfold AuthorizedRoot.authorizeDir
  rw [hrelative]
  simp only [bind, Except.bind]
  unfold AuthorizedRoot.openDirRelative
  simp only [bind, Except.bind]
  rw [components_intercalate hrest, normalizeRelativeParts_normal hrest, components_intercalate hrest,
    hroot, openComponents_canonical h root _ rfl]

/-! ## Families of roots -/

/-- Roots with spelled paths and with the given components, each once. -/
structure RootFamily (roots : List AuthorizedRoot) (keys : Set (List Component)) : Prop where
  nodup : (roots.map AuthorizedRoot.key).Nodup
  spelled : ∀ root ∈ roots, ∃ names, Spells names root.canonical
  mem_iff : ∀ k, k ∈ roots.map AuthorizedRoot.key ↔ k ∈ keys

variable {roots : List AuthorizedRoot} {keys : Set (List Component)} {new : AuthorizedRoot}

lemma rootFamily_nil : RootFamily [] ∅ := ⟨List.nodup_nil, by simp, by simp⟩

lemma RootFamily.insertNew (h : RootFamily roots keys) (hnew : Spells names new.canonical) :
    RootFamily (insertNew AuthorizedRoot.key roots new) (insert new.key keys) := by
  refine ⟨nodup_insertNew h.nodup, fun root hroot => ?_, fun k => ?_⟩
  · rcases mem_insertNew hroot with hroot | rfl
    · exact h.spelled root hroot
    · exact ⟨names, hnew⟩
  · rw [mem_map_insertNew, h.mem_iff, Set.mem_insert_iff, or_comm]

lemma RootFamily.sortRoots (h : RootFamily roots keys) : RootFamily (sortRoots roots) keys := by
  have hperm : (Workspace.sortRoots roots).Perm roots := List.perm_insertionSort _ _
  refine ⟨((hperm.map _).nodup_iff).mpr h.nodup, fun root hroot => h.spelled root (hperm.mem_iff.mp hroot),
    fun k => ?_⟩
  rw [(hperm.map _).mem_iff, h.mem_iff]

lemma RootFamily.exists_within_iff (h : RootFamily roots keys) (path : Text) :
    (∃ root ∈ roots, pathIsWithin root.canonical path = true) ↔
      ∃ normalized, normalizePath path = .ok normalized ∧ ∃ k ∈ keys, k <+: components normalized := by
  constructor
  · rintro ⟨root, hroot, hwithin⟩
    obtain ⟨names, hnames⟩ := h.spelled root hroot
    obtain ⟨normalized, hpath, hpre⟩ := (pathIsWithin_iff hnames).mp hwithin
    refine ⟨normalized, hpath, root.key, (h.mem_iff _).mp (List.mem_map_of_mem hroot), ?_⟩
    rw [AuthorizedRoot.key, hnames.components_eq]
    exact hpre
  · rintro ⟨normalized, hpath, k, hk, hpre⟩
    obtain ⟨root, hroot, rfl⟩ := List.mem_map.mp ((h.mem_iff k).mpr hk)
    obtain ⟨names, hnames⟩ := h.spelled root hroot
    refine ⟨root, hroot, (pathIsWithin_iff hnames).mpr ⟨normalized, hpath, ?_⟩⟩
    rw [AuthorizedRoot.key, hnames.components_eq] at hpre
    exact hpre

/-- The inner one of two nested paths. -/
def inner (left right : List Component) : Option (List Component) :=
  if right <+: left then some left else if left <+: right then some right else none

lemma exists_inner_prefix_iff (left right whole : List Component) :
    (∃ k, inner left right = some k ∧ k <+: whole) ↔ left <+: whole ∧ right <+: whole := by
  unfold inner
  constructor
  · rintro ⟨k, hk, hpre⟩
    split_ifs at hk with hright hleft
    · obtain rfl := Option.some.inj hk
      exact ⟨hpre, hright.trans hpre⟩
    · obtain rfl := Option.some.inj hk
      exact ⟨hleft.trans hpre, hpre⟩
  · rintro ⟨hleft, hright⟩
    split_ifs with h1 h2
    · exact ⟨left, rfl, hleft⟩
    · exact ⟨right, rfl, hright⟩
    · exact absurd (List.prefix_or_prefix_of_prefix hleft hright) (by tauto)

lemma commonRoot_canonical {client : Text} {configured : AuthorizedRoot}
    (hclient : CanonicalDirectory disk names client)
    (hconfigured : ∀ name ∈ done, NormalName name) (hcanonical : configured.canonical = absoluteOf done) :
    ∃ candidate, RootGuard.commonRoot disk client configured = .ok candidate ∧
      candidate.map AuthorizedRoot.key = inner (components client) configured.key ∧
      ∀ root ∈ candidate, ∃ names, Spells names root.canonical := by
  have hclientSpells : Spells names client := by
    rw [hclient.path_eq]
    exact spells_absoluteOf hclient.normal
  have hspells : Spells done configured.canonical := by
    rw [hcanonical]
    exact spells_absoluteOf hconfigured
  have hbelow : pathIsWithin configured.canonical client = true ↔ configured.key <+: components client :=
    pathIsWithin_iff_names hspells hclientSpells
  have habove : pathIsWithin client configured.canonical = true ↔ components client <+: configured.key :=
    pathIsWithin_iff_names hclientSpells hspells
  unfold RootGuard.commonRoot inner
  simp only [hbelow, habove]
  split_ifs with h1 h2
  · -- The client root is below the configured one.
    have hpre := h1
    rw [AuthorizedRoot.key, hspells.components_eq, hclientSpells.components_eq] at hpre
    obtain ⟨rest, rfl⟩ := prefix_of_components_prefix hconfigured hclient.normal hpre
    obtain ⟨canonical, hauthorize, hauthorized⟩ := authorizeDir_canonical hcanonical hclient
    refine ⟨some ⟨canonical, configured.kind⟩, by rw [hauthorize]; rfl, ?_, ?_⟩
    · rw [Option.map_some, AuthorizedRoot.key, hauthorized.components_eq, hclientSpells.components_eq]
    · rintro root ⟨⟩
      exact ⟨_, hauthorized⟩
  · refine ⟨some configured, rfl, rfl, ?_⟩
    rintro root ⟨⟩
    exact ⟨_, hspells⟩
  · exact ⟨none, rfl, rfl, by simp⟩

/-! ## The guard's roots -/

def CanonicalDirectories (disk : Disk) (paths : List Text) : Prop :=
  ∀ path ∈ paths, ∃ names, CanonicalDirectory disk names path

variable {paths clients : List Text} {kind : RootKind} {guard : RootGuard}

lemma openRoot_canonical (h : CanonicalDirectory disk names path) (kind : RootKind) :
    AuthorizedRoot.openRoot disk path kind = .ok ⟨path, kind⟩ := by
  have hopen := h.opens names List.prefix_rfl
  rw [← h.path_eq] at hopen
  unfold AuthorizedRoot.openRoot
  rw [canonicalDirectory_canonical h]
  simp only [bind, Except.bind]
  rw [hopen]

lemma openRoots_fold (h : CanonicalDirectories disk paths) (kind : RootKind) (hroots : RootFamily roots keys) :
    ∃ last, paths.foldlM (fun roots path => do
        let root ← AuthorizedRoot.openRoot disk path kind
        .ok (insertNew AuthorizedRoot.key roots root)) roots = .ok last ∧
      (∀ root ∈ last, root ∈ roots ∨ root.canonical ∈ paths) ∧
      RootFamily last (keys ∪ {k | ∃ path ∈ paths, components path = k}) := by
  induction paths generalizing roots keys with
  | nil => exact ⟨roots, rfl, fun root hroot => Or.inl hroot, by simpa using hroots⟩
  | cons path paths ih =>
    obtain ⟨names, hpath⟩ := h path List.mem_cons_self
    have hnew : Spells names (AuthorizedRoot.mk path kind).canonical := by
      rw [hpath.path_eq]
      exact spells_absoluteOf hpath.normal
    have hrest : CanonicalDirectories disk paths := fun other hother => h other (List.mem_cons_of_mem _ hother)
    obtain ⟨last, hfold, hmem, hfamily⟩ := ih hrest (hroots.insertNew hnew)
    refine ⟨last, ?_, fun root hroot => ?_, ?_⟩
    · rw [List.foldlM_cons, openRoot_canonical hpath]
      exact hfold
    · rcases hmem root hroot with hold | hlater
      · rcases mem_insertNew hold with hold | rfl
        · exact Or.inl hold
        · exact Or.inr List.mem_cons_self
      · exact Or.inr (List.mem_cons_of_mem _ hlater)
    · convert hfamily using 1
      ext k
      simp only [Set.mem_union, Set.mem_ofPred_eq, Set.mem_insert_iff, List.mem_cons, exists_eq_or_imp,
        AuthorizedRoot.key]
      tauto

lemma openRoots_canonical (h : CanonicalDirectories disk paths) (kind : RootKind) :
    ∃ roots, openRoots disk paths kind = .ok roots ∧ (∀ root ∈ roots, root.canonical ∈ paths) ∧
      RootFamily roots {k | ∃ path ∈ paths, components path = k} := by
  obtain ⟨roots, hfold, hmem, hfamily⟩ := openRoots_fold h kind rootFamily_nil
  have hperm : (sortRoots roots).Perm roots := List.perm_insertionSort _ _
  refine ⟨sortRoots roots, ?_, fun root hroot => ?_, ?_⟩
  · unfold openRoots
    rw [hfold]
    rfl
  · simpa using hmem root (hperm.mem_iff.mp hroot)
  · rw [← Set.empty_union {k | ∃ path ∈ paths, components path = k}]
    exact hfamily.sortRoots

lemma normalizeClientRoots_fold (h : CanonicalDirectories disk clients) (paths : List Text) :
    ∃ last, clients.foldlM (fun normalized path => do
        let canonical ← canonicalDirectory disk path
        .ok (insertNew components normalized canonical)) paths = (.ok last : Except RootError (List Text)) ∧
      (∀ path ∈ last, path ∈ paths ∨ path ∈ clients) ∧
      ∀ k, k ∈ last.map components ↔ k ∈ paths.map components ∨ k ∈ clients.map components := by
  induction clients generalizing paths with
  | nil => exact ⟨paths, rfl, fun path hpath => Or.inl hpath, by simp⟩
  | cons client clients ih =>
    obtain ⟨names, hclient⟩ := h client List.mem_cons_self
    have hrest : CanonicalDirectories disk clients :=
      fun other hother => h other (List.mem_cons_of_mem _ hother)
    obtain ⟨last, hfold, hmem, hkeys⟩ := ih hrest (insertNew components paths client)
    refine ⟨last, ?_, fun path hpath => ?_, fun k => ?_⟩
    · rw [List.foldlM_cons, canonicalDirectory_canonical hclient]
      exact hfold
    · rcases hmem path hpath with hold | hlater
      · rcases mem_insertNew hold with hold | rfl
        · exact Or.inl hold
        · exact Or.inr List.mem_cons_self
      · exact Or.inr (List.mem_cons_of_mem _ hlater)
    · rw [hkeys, mem_map_insertNew, List.map_cons, List.mem_cons, or_assoc]

lemma normalizeClientRoots_canonical (h : CanonicalDirectories disk clients) (hne : clients ≠ []) :
    ∃ normalized, normalizeClientRoots disk (.available clients) = .ok (.available normalized) ∧
      (∀ path ∈ normalized, path ∈ clients) ∧ ∀ k, k ∈ normalized.map components ↔ k ∈ clients.map components := by
  obtain ⟨last, hfold, hmem, hkeys⟩ := normalizeClientRoots_fold h []
  obtain ⟨client, rest, rfl⟩ := List.exists_cons_of_ne_nil hne
  have hlast : last ≠ [] := by
    rintro rfl
    have hclient := (hkeys (components client)).mpr (Or.inr (by simp))
    simp at hclient
  have hperm : (last.insertionSort fun left right => pathLe left right = true).Perm last :=
    List.perm_insertionSort _ _
  refine ⟨last.insertionSort fun left right => pathLe left right = true, ?_, fun path hpath => ?_,
    fun k => ?_⟩
  · unfold normalizeClientRoots
    dsimp only
    rw [hfold]
    simp only [bind, Except.bind]
    rw [if_neg hlast]
  · simpa using hmem path (hperm.mem_iff.mp hpath)
  · rw [(hperm.map _).mem_iff, hkeys]
    simp

/-- The configured roots are normalized paths. -/
def Normalized (guard : RootGuard) : Prop :=
  ∀ root ∈ guard.configured, ∃ names, (∀ name ∈ names, NormalName name) ∧ root.canonical = absoluteOf names

lemma intersect_fold {client : Text} (hclient : CanonicalDirectory disk names client)
    {configured : List AuthorizedRoot}
    (hconfigured : ∀ root ∈ configured, ∃ names, (∀ name ∈ names, NormalName name) ∧
      root.canonical = absoluteOf names) (hroots : RootFamily roots keys) :
    ∃ last, configured.foldlM (fun roots configured => do
        let candidate ← RootGuard.commonRoot disk client configured
        .ok (candidate.elim roots (insertNew AuthorizedRoot.key roots))) roots =
          (.ok last : Except RootError (List AuthorizedRoot)) ∧
      RootFamily last (keys ∪ {k | ∃ root ∈ configured, inner (components client) root.key = some k}) := by
  induction configured generalizing roots keys with
  | nil => exact ⟨roots, rfl, by simpa using hroots⟩
  | cons root configured ih =>
    obtain ⟨done, hdone, hcanonical⟩ := hconfigured root List.mem_cons_self
    have hrest := fun other hother => hconfigured other (List.mem_cons_of_mem _ hother)
    obtain ⟨candidate, hcommon, hkey, hspells⟩ := commonRoot_canonical hclient hdone hcanonical
    cases candidate with
    | none =>
      obtain ⟨last, hfold, hfamily⟩ := ih hrest hroots
      refine ⟨last, ?_, ?_⟩
      · rw [List.foldlM_cons, hcommon]
        exact hfold
      · convert hfamily using 1
        ext k
        simp [← hkey]
    | some new =>
      obtain ⟨newNames, hnew⟩ := hspells new rfl
      obtain ⟨last, hfold, hfamily⟩ := ih hrest (hroots.insertNew hnew)
      refine ⟨last, ?_, ?_⟩
      · rw [List.foldlM_cons, hcommon]
        exact hfold
      · convert hfamily using 1
        ext k
        simp only [Set.mem_union, Set.mem_ofPred_eq, Set.mem_insert_iff, List.mem_cons, exists_eq_or_imp,
          ← hkey, Option.map_some, Option.some.injEq]
        tauto

lemma intersectClientRoots_fold (hclients : CanonicalDirectories disk clients) (hguard : Normalized guard)
    (hroots : RootFamily roots keys) : ∃ last, clients.foldlM (fun roots client => do
        let client ← canonicalDirectory disk client
        guard.configured.foldlM (fun roots configured => do
          let candidate ← RootGuard.commonRoot disk client configured
          .ok (candidate.elim roots (insertNew AuthorizedRoot.key roots))) roots) roots =
          (.ok last : Except RootError (List AuthorizedRoot)) ∧
      RootFamily last (keys ∪ {k | ∃ client ∈ clients, ∃ root ∈ guard.configured,
        inner (components client) root.key = some k}) := by
  induction clients generalizing roots keys with
  | nil => exact ⟨roots, rfl, by simpa using hroots⟩
  | cons client clients ih =>
    obtain ⟨names, hclient⟩ := hclients client List.mem_cons_self
    have hrest : CanonicalDirectories disk clients :=
      fun other hother => hclients other (List.mem_cons_of_mem _ hother)
    obtain ⟨middle, hinner, hmiddle⟩ := intersect_fold hclient hguard hroots
    obtain ⟨last, hfold, hfamily⟩ := ih hrest hmiddle
    refine ⟨last, ?_, ?_⟩
    · rw [List.foldlM_cons, canonicalDirectory_canonical hclient]
      simp only [bind, Except.bind] at hinner hfold ⊢
      rw [hinner]
      exact hfold
    · convert hfamily using 1
      ext k
      simp only [Set.mem_union, Set.mem_ofPred_eq, List.mem_cons, exists_eq_or_imp, or_assoc]

lemma intersectClientRoots_canonical (hclients : CanonicalDirectories disk clients) (hguard : Normalized guard) :
    ∃ roots, guard.intersectClientRoots disk clients = .ok roots ∧
      RootFamily roots {k | ∃ client ∈ clients, ∃ root ∈ guard.configured,
        inner (components client) root.key = some k} := by
  obtain ⟨roots, hfold, hfamily⟩ := intersectClientRoots_fold hclients hguard rootFamily_nil
  refine ⟨sortRoots roots, ?_, ?_⟩
  · unfold RootGuard.intersectClientRoots
    rw [hfold]
    rfl
  · rw [Set.empty_union] at hfamily
    exact hfamily.sortRoots

/-! ## Snapshots -/

def NormalPaths (normalized : NormalizedClientRoots) : Prop :=
  ∀ paths, normalized = .available paths → ∀ path ∈ paths, NormalizedAbsolute path

/-- A kept snapshot has the roots that its client roots would get, and some. -/
def Kept (disk : Disk) (guard : RootGuard) (client : ClientEpoch) : Prop :=
  ∀ snapshot, client.snapshot = some snapshot → ∃ normalized, client.state = some normalized ∧
    NormalPaths normalized ∧ guard.rootsFor disk normalized = .ok snapshot.roots ∧ snapshot.roots ≠ []

variable {client read write : ClientEpoch} {normalized : NormalizedClientRoots}

lemma eq_of_components_eq {left right : Text} (hleft : NormalizedAbsolute left)
    (hright : NormalizedAbsolute right) (h : components left = components right) : left = right := by
  obtain ⟨names, hnames, rfl⟩ := hleft
  obtain ⟨rest, hrest, rfl⟩ := hright
  have hpre : names <+: rest := prefix_of_components_prefix hnames hrest (by rw [h])
  have hpost : rest <+: names := prefix_of_components_prefix hrest hnames (by rw [h])
  rw [hpre.eq_of_length_le hpost.length_le]

lemma eq_of_same {other : NormalizedClientRoots} (h : normalized.same other = true)
    (hnormalized : NormalPaths normalized) (hother : NormalPaths other) : normalized = other := by
  cases normalized with
  | unsupported => cases other <;> simp_all [NormalizedClientRoots.same]
  | failed => cases other <;> simp_all [NormalizedClientRoots.same]
  | available left =>
    cases other with
    | unsupported => simp [NormalizedClientRoots.same] at h
    | failed => simp [NormalizedClientRoots.same] at h
    | available right =>
      have hmap : left.map components = right.map components := by
        simpa [NormalizedClientRoots.same] using h
      have hleft := hnormalized left rfl
      have hright := hother right rfl
      clear h hnormalized hother
      congr 1
      induction left generalizing right with
      | nil => simpa using hmap.symm
      | cons path left ih =>
        cases right with
        | nil => simp at hmap
        | cons path' right =>
          rw [List.map_cons, List.map_cons, List.cons.injEq] at hmap
          rw [eq_of_components_eq (hleft path List.mem_cons_self) (hright path' List.mem_cons_self) hmap.1,
            ih right hmap.2 (fun other hother => hleft other (List.mem_cons_of_mem _ hother))
              fun other hother => hright other (List.mem_cons_of_mem _ hother)]

lemma normalizedAbsolute_of_canonicalDirectory {canonical : Text}
    (h : canonicalDirectory disk path = .ok canonical) : NormalizedAbsolute canonical := by
  unfold canonicalDirectory at h
  cases habsolute : absolutePath disk path with
  | error reason => simp [habsolute, bind, Except.bind] at h
  | ok absolute =>
    cases hcanonical : disk.canonicalize absolute with
    | error reason => simp [habsolute, hcanonical, bind, Except.bind] at h
    | ok found =>
      cases hcheck : checkNoSymlinkComponents disk found with
      | error reason => simp [habsolute, hcanonical, hcheck, bind, Except.bind] at h
      | ok checked =>
        cases hkind : disk.metadata found with
        | error reason => simp [habsolute, hcanonical, hcheck, hkind, bind, Except.bind] at h
        | ok found' =>
          simp only [habsolute, hcanonical, hcheck, hkind, bind, Except.bind] at h
          split_ifs at h
          rw [← Except.ok.inj h]
          exact disk.normalizedAbsolute_of_canonicalize absolute found hcanonical

lemma normalizedAbsolute_of_fold {paths last : List Text} (h : clients.foldlM (fun normalized path => do
        let canonical ← canonicalDirectory disk path
        .ok (insertNew components normalized canonical)) paths = (.ok last : Except RootError (List Text)))
    (hpaths : ∀ path ∈ paths, NormalizedAbsolute path) : ∀ path ∈ last, NormalizedAbsolute path := by
  induction clients generalizing paths with
  | nil =>
    obtain rfl := Except.ok.inj h
    exact hpaths
  | cons client clients ih =>
    rw [List.foldlM_cons] at h
    cases hcanonical : canonicalDirectory disk client with
    | error reason => simp [hcanonical, bind, Except.bind] at h
    | ok canonical =>
      rw [hcanonical] at h
      refine ih h fun path hpath => ?_
      rcases mem_insertNew hpath with hpath | rfl
      · exact hpaths path hpath
      · exact normalizedAbsolute_of_canonicalDirectory hcanonical

lemma normalPaths_of_normalizeClientRoots {clientRoots : ClientRoots}
    (h : normalizeClientRoots disk clientRoots = .ok normalized) : NormalPaths normalized := by
  rintro paths rfl path hpath
  cases clientRoots with
  | unsupported => simp [normalizeClientRoots] at h
  | failed => simp [normalizeClientRoots] at h
  | available clients =>
    cases clients with
    | nil => simp [normalizeClientRoots] at h
    | cons client clients =>
      unfold normalizeClientRoots at h
      dsimp only at h
      obtain ⟨folded, hfold⟩ : ∃ folded, folded = (client :: clients).foldlM (fun normalized path => do
          let canonical ← canonicalDirectory disk path
          .ok (insertNew components normalized canonical)) [] := ⟨_, rfl⟩
      rw [← hfold] at h
      cases folded with
      | error reason => simp [bind, Except.bind] at h
      | ok last =>
        simp only [bind, Except.bind] at h
        split_ifs at h with hnil
        obtain rfl := NormalizedClientRoots.available.inj (Except.ok.inj h)
        exact normalizedAbsolute_of_fold hfold.symm (by simp) path
          ((List.perm_insertionSort _ last).mem_iff.mp hpath)

lemma Kept.cached (hkept : Kept disk guard client) (hnormal : NormalPaths normalized)
    {snapshot : RootSnapshot} (h : client.cached normalized = some snapshot) :
    guard.rootsFor disk normalized = .ok snapshot.roots ∧ snapshot.roots ≠ [] := by
  unfold ClientEpoch.cached at h
  split_ifs at h with hsame
  obtain ⟨state, hstate, hpaths, hroots, hne⟩ := hkept snapshot h
  rw [hstate, Option.any_some] at hsame
  rw [← eq_of_same hsame hpaths hnormal]
  exact ⟨hroots, hne⟩

lemma Kept.storeSnapshot (hkept : Kept disk guard write) (hnormal : NormalPaths normalized)
    (hroots : guard.rootsFor disk normalized = .ok roots) (hne : roots ≠ []) :
    Kept disk guard (RootGuard.storeSnapshot write normalized roots).2 ∧
      (RootGuard.storeSnapshot write normalized roots).1.roots = roots := by
  unfold RootGuard.storeSnapshot
  cases hcached : write.cached normalized with
  | some snapshot =>
    refine ⟨hkept, ?_⟩
    have hsame := (hkept.cached hnormal hcached).1
    rw [hroots] at hsame
    exact (Except.ok.inj hsame).symm
  | none =>
    refine ⟨?_, rfl⟩
    rintro snapshot ⟨⟩
    exact ⟨normalized, rfl, hnormal, hroots, hne⟩

lemma Kept.snapshot (hread : Kept disk guard read) (hwrite : Kept disk guard write) (clientRoots : ClientRoots) :
    Kept disk guard (guard.snapshot disk read write clientRoots).2 ∧
      ∀ normalized, normalizeClientRoots disk clientRoots = .ok normalized → normalized ≠ .failed →
        ∀ roots, guard.rootsFor disk normalized = .ok roots →
          (roots = [] → (guard.snapshot disk read write clientRoots).1 = .error .noRootIntersection) ∧
          (roots ≠ [] → ∃ snapshot, (guard.snapshot disk read write clientRoots).1 = .ok snapshot ∧
            snapshot.roots = roots) := by
  unfold RootGuard.snapshot
  split
  · next error herror =>
    exact ⟨hwrite, fun normalized h => by rw [herror] at h; simp at h⟩
  · next hfailed =>
    refine ⟨by rintro snapshot ⟨⟩, fun normalized h hne => ?_⟩
    rw [hfailed] at h
    exact absurd (Except.ok.inj h).symm hne
  · next found _ hfound =>
    have hnormal := normalPaths_of_normalizeClientRoots hfound
    cases hcached : read.cached found with
    | some snapshot =>
      obtain ⟨hroots, hne⟩ := hread.cached hnormal hcached
      refine ⟨hwrite, fun normalized h _ roots hfor => ?_⟩
      obtain rfl : found = normalized := by
        rw [hfound] at h
        exact Except.ok.inj h
      obtain rfl : snapshot.roots = roots := by
        rw [hroots] at hfor
        exact Except.ok.inj hfor
      exact ⟨fun hnil => absurd hnil hne, fun _ => ⟨snapshot, rfl, rfl⟩⟩
    | none =>
      cases hroots : guard.rootsFor disk found with
      | error reason =>
        refine ⟨hwrite, fun normalized h _ roots hfor => ?_⟩
        rw [hfound] at h
        rw [← Except.ok.inj h, hroots] at hfor
        simp at hfor
      | ok computed =>
        cases computed with
        | nil =>
          refine ⟨hwrite, fun normalized h _ roots hfor => ?_⟩
          rw [hfound] at h
          rw [← Except.ok.inj h, hroots] at hfor
          exact ⟨fun _ => rfl, fun hne => absurd (Except.ok.inj hfor).symm hne⟩
        | cons root rest =>
          obtain ⟨hkept, hstored⟩ := hwrite.storeSnapshot hnormal hroots (List.cons_ne_nil _ _)
          refine ⟨hkept, fun normalized h _ roots hfor => ?_⟩
          rw [hfound] at h
          rw [← Except.ok.inj h, hroots] at hfor
          obtain rfl := Except.ok.inj hfor
          exact ⟨fun hnil => absurd hnil (List.cons_ne_nil _ _), fun _ => ⟨_, rfl, hstored⟩⟩

/-- Whatever calls there were, a kept snapshot answers for its client roots. -/
theorem kept_of_reachable (h : guard.Reachable disk client) : Kept disk guard client := by
  induction h with
  | new => exact fun snapshot h => by simp [RootGuard.newClient] at h
  | snapshot _ _ clientRoots ihread ihwrite => exact (ihread.snapshot ihwrite clientRoots).1
  | invalidate _ _ => exact fun snapshot h => by simp [RootGuard.invalidateClientRoots] at h

lemma exists_within_canonical_iff (h : CanonicalDirectories disk paths) (path : Text) :
    (∃ root ∈ paths, pathIsWithin root path = true) ↔ ∃ normalized, normalizePath path = .ok normalized ∧
        ∃ root ∈ paths, components root <+: components normalized := by
  have hroot : ∀ root ∈ paths, (pathIsWithin root path = true ↔
      ∃ normalized, normalizePath path = .ok normalized ∧ components root <+: components normalized) := by
    intro root hmem
    obtain ⟨names, hcanonical⟩ := h root hmem
    rw [hcanonical.path_eq]
    exact pathIsWithin_iff (spells_absoluteOf hcanonical.normal)
  constructor
  · rintro ⟨root, hmem, hwithin⟩
    obtain ⟨normalized, hpath, hpre⟩ := (hroot root hmem).mp hwithin
    exact ⟨normalized, hpath, root, hmem, hpre⟩
  · rintro ⟨normalized, hpath, root, hmem, hpre⟩
    exact ⟨root, hmem, (hroot root hmem).mpr ⟨normalized, hpath, hpre⟩⟩

lemma exists_inner_iff {configured : List Text} {family : List AuthorizedRoot}
    (hconfigured : CanonicalDirectories disk configured) (hclients : CanonicalDirectories disk clients)
    (hfamily : RootFamily family {k | ∃ path ∈ configured, components path = k})
    (hpaths : ∀ k, k ∈ paths.map components ↔ k ∈ clients.map components) (path : Text) :
    (∃ normalized, normalizePath path = .ok normalized ∧
        ∃ k ∈ {k | ∃ client ∈ paths, ∃ root ∈ family, inner (components client) root.key = some k},
          k <+: components normalized) ↔
      (∃ root ∈ configured, pathIsWithin root path = true) ∧ ∃ root ∈ clients, pathIsWithin root path = true := by
  rw [exists_within_canonical_iff hconfigured, exists_within_canonical_iff hclients]
  constructor
  · rintro ⟨normalized, hpath, k, ⟨client, hclient, root, hroot, hinner⟩, hpre⟩
    obtain ⟨hbelow, habove⟩ := (exists_inner_prefix_iff _ _ _).mp ⟨k, hinner, hpre⟩
    obtain ⟨outer, houter, hkey⟩ := (hfamily.mem_iff _).mp (List.mem_map_of_mem hroot)
    obtain ⟨named, hnamed, hsame⟩ := List.mem_map.mp ((hpaths _).mp (List.mem_map_of_mem hclient))
    refine ⟨⟨normalized, hpath, outer, houter, ?_⟩, ⟨normalized, hpath, named, hnamed, ?_⟩⟩
    · rw [hkey]
      exact habove
    · rw [hsame]
      exact hbelow
  · rintro ⟨⟨normalized, hpath, outer, houter, habove⟩, ⟨normalized', hpath', named, hnamed, hbelow⟩⟩
    obtain rfl : normalized = normalized' := by
      rw [hpath] at hpath'
      exact Except.ok.inj hpath'
    obtain ⟨root, hroot, hkey⟩ := List.mem_map.mp ((hfamily.mem_iff (components outer)).mpr ⟨outer, houter, rfl⟩)
    obtain ⟨client, hclient, hsame⟩ :=
      List.mem_map.mp ((hpaths (components named)).mpr (List.mem_map_of_mem hnamed))
    rw [← hkey] at habove
    rw [← hsame] at hbelow
    obtain ⟨k, hinner, hpre⟩ := (exists_inner_prefix_iff _ _ _).mpr ⟨hbelow, habove⟩
    exact ⟨normalized, hpath, k, ⟨client, hclient, root, hroot, hinner⟩, hpre⟩

lemma spec_of_new {configured dependencies : List Text}
    (hnew : RootGuard.new disk configured dependencies = .ok guard)
    (hconfigured : CanonicalDirectories disk configured) :
    Normalized guard ∧ RootFamily guard.configured {k | ∃ path ∈ configured, components path = k} := by
  obtain ⟨roots, hopen, hmem, hfamily⟩ := openRoots_canonical hconfigured .workspace
  unfold RootGuard.new at hnew
  rw [hopen] at hnew
  simp only [bind, Except.bind] at hnew
  split_ifs at hnew
  split at hnew
  · simp at hnew
  · obtain rfl := Except.ok.inj hnew
    refine ⟨fun root hroot => ?_, hfamily⟩
    obtain ⟨names, hcanonical⟩ := hconfigured _ (hmem root hroot)
    exact ⟨names, hcanonical.normal, hcanonical.path_eq⟩

/-- A snapshot covers exactly what lies within a configured root and a client root, its roots
differ, and it is refused exactly when there is no such path. -/
theorem snapshot_intersection (disk : Disk) (guard : RootGuard) (configured dependencies clients : List Text)
    (hnew : RootGuard.new disk configured dependencies = .ok guard)
    (hconfigured : CanonicalDirectories disk configured) (hclients : CanonicalDirectories disk clients)
    (hne : clients ≠ []) (read write : ClientEpoch) (hread : guard.Reachable disk read)
    (hwrite : guard.Reachable disk write) :
    (∃ snapshot, (guard.snapshot disk read write (.available clients)).1 = .ok snapshot ∧
      (∀ path, (∃ root ∈ snapshot.roots, pathIsWithin root.canonical path = true) ↔
        (∃ root ∈ configured, pathIsWithin root path = true) ∧ ∃ root ∈ clients, pathIsWithin root path = true) ∧
      (snapshot.roots.map AuthorizedRoot.key).Nodup ∧
      ∃ path, (∃ root ∈ configured, pathIsWithin root path = true) ∧
        ∃ root ∈ clients, pathIsWithin root path = true) ∨
    ((guard.snapshot disk read write (.available clients)).1 = .error .noRootIntersection ∧
      ∀ path, ¬ ((∃ root ∈ configured, pathIsWithin root path = true) ∧
        ∃ root ∈ clients, pathIsWithin root path = true)) := by
  obtain ⟨hnormalized, hopened⟩ := spec_of_new hnew hconfigured
  obtain ⟨paths, hnormalize, hmem, hkeys⟩ := normalizeClientRoots_canonical hclients hne
  obtain ⟨roots, hroots, hfamily⟩ :=
    intersectClientRoots_canonical (fun path hpath => hclients path (hmem path hpath)) hnormalized
  have hexact : ∀ path, (∃ root ∈ roots, pathIsWithin root.canonical path = true) ↔
      (∃ root ∈ configured, pathIsWithin root path = true) ∧
        ∃ root ∈ clients, pathIsWithin root path = true := fun path => by
    rw [hfamily.exists_within_iff, exists_inner_iff hconfigured hclients hopened hkeys]
  obtain ⟨hempty, hfull⟩ := ((kept_of_reachable hread).snapshot (kept_of_reachable hwrite)
    (.available clients)).2 _ hnormalize (by simp) roots hroots
  rcases eq_or_ne roots [] with hnil | hnonempty
  · refine Or.inr ⟨hempty hnil, fun path hboth => ?_⟩
    obtain ⟨root, hroot, -⟩ := (hexact path).mpr hboth
    rw [hnil] at hroot
    exact List.not_mem_nil hroot
  · obtain ⟨snapshot, hsnapshot, rfl⟩ := hfull hnonempty
    refine Or.inl ⟨snapshot, hsnapshot, hexact, hfamily.nodup, ?_⟩
    -- Every root lies within itself.
    obtain ⟨root, hroot⟩ := List.exists_mem_of_ne_nil _ hnonempty
    obtain ⟨names, hspells⟩ := hfamily.spelled root hroot
    refine ⟨root.canonical, (hexact _).mp ⟨root, hroot, ?_⟩⟩
    exact (pathIsWithin_iff_names hspells hspells).mpr List.prefix_rfl

/-- A file system with one directory in another. -/
def nestedDisk : Disk where
  currentDir := .ok (absoluteOf [])
  canonicalize path :=
    if components path = components (absoluteOf [['w']]) then .ok (absoluteOf [['w']])
    else if components path = components (absoluteOf [['w'], ['a']]) then .ok (absoluteOf [['w'], ['a']])
    else .error (.pathNotFound path)
  symlinkMetadata path :=
    if path = absoluteOf [['w']] ∨ path = absoluteOf [['w'], ['a']] then .ok .directory
    else .error (.pathNotFound path)
  metadata path :=
    if path = absoluteOf [['w']] ∨ path = absoluteOf [['w'], ['a']] then .ok .directory
    else .error (.pathNotFound path)
  openDir path :=
    if path = absoluteOf [] ∨ path = absoluteOf [['w']] ∨ path = absoluteOf [['w'], ['a']] then .ok ()
    else .error (.pathNotFound path)
  normalizedAbsolute_of_canonicalize := by
    intro path canonical h
    split_ifs at h
    · exact ⟨[['w']], by simpa using ⟨by simp, by simp, by simp, by simp⟩, (Except.ok.inj h).symm⟩
    · refine ⟨[['w'], ['a']], ?_, (Except.ok.inj h).symm⟩
      intro name hname
      simp only [List.mem_cons, List.not_mem_nil, or_false] at hname
      rcases hname with rfl | rfl <;> exact ⟨by simp, by simp, by simp, by simp⟩

lemma canonicalDirectory_nestedDisk {names : List Text} (h : names = [['w']] ∨ names = [['w'], ['a']]) :
    CanonicalDirectory nestedDisk names (absoluteOf names) := by
  have hnormal : ∀ name ∈ names, NormalName name := by
    intro name hname
    have hcases : name = ['w'] ∨ name = ['a'] := by
      rcases h with rfl | rfl <;> simp_all
    rcases hcases with rfl | rfl <;> exact ⟨by simp, by simp, by simp, by simp⟩
  have hfront : ∀ front, front <+: names → front = [] ∨ front = [['w']] ∨ front = [['w'], ['a']] := by
    intro front hpre
    have hlist : names <+: [['w'], ['a']] := by
      rcases h with rfl | rfl <;> decide
    have hmem := (List.mem_inits _ _).mpr (hpre.trans hlist)
    simpa [List.inits] using hmem
  refine ⟨hnormal, rfl, fun spelling hspells => ?_, ?_, fun front hpre hne => ?_, fun front hpre => ?_⟩
  · rcases h with rfl | rfl
    · exact if_pos hspells.components_eq
    · refine (if_neg ?_).trans (if_pos hspells.components_eq)
      rw [hspells.components_eq]
      decide
  · rcases h with rfl | rfl <;> rfl
  · rcases (hfront front hpre).resolve_left hne with rfl | rfl <;> rfl
  · rcases hfront front hpre with rfl | rfl | rfl <;> rfl

/-- A client that names a directory below the configured one may read that directory. -/
theorem snapshot_intersection_nested :
    ∃ snapshot, (RootGuard.snapshot nestedDisk ⟨[⟨absoluteOf [['w']], .workspace⟩], []⟩ RootGuard.newClient
        RootGuard.newClient (.available [absoluteOf [['w'], ['a']]])).1 = .ok snapshot ∧
      ∀ path, (∃ root ∈ snapshot.roots, pathIsWithin root.canonical path = true) ↔
        pathIsWithin (absoluteOf [['w']]) path = true ∧ pathIsWithin (absoluteOf [['w'], ['a']]) path = true := by
  have hconfigured : CanonicalDirectories nestedDisk [absoluteOf [['w']]] := by
    simpa [CanonicalDirectories] using ⟨_, canonicalDirectory_nestedDisk (Or.inl rfl)⟩
  have hclients : CanonicalDirectories nestedDisk [absoluteOf [['w'], ['a']]] := by
    simpa [CanonicalDirectories] using ⟨_, canonicalDirectory_nestedDisk (Or.inr rfl)⟩
  have hnew : RootGuard.new nestedDisk [absoluteOf [['w']]] [] = .ok ⟨[⟨absoluteOf [['w']], .workspace⟩], []⟩ := by
    rfl
  rcases snapshot_intersection nestedDisk _ [absoluteOf [['w']]] [] [absoluteOf [['w'], ['a']]] hnew
    hconfigured hclients (by simp) _ _ .new .new with ⟨snapshot, hsnapshot, hexact, -⟩ | ⟨-, hnone⟩
  · exact ⟨snapshot, hsnapshot, by simpa using hexact⟩
  · have hinner := hnone (absoluteOf [['w'], ['a']])
    exact absurd (by decide) hinner

end AgzRustMcp.Workspace
