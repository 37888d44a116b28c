import AgzRustMcp.Verify.PlanIds
import AgzRustMcp.Verify.TestPlan
import AgzRustMcp.Workspace.Dependents

/-!
# What a test plan covers

A plan without an explicit selection accounts for the tests of every affected member
(`test_plan_covers`).
-/

namespace AgzRustMcp.Verify

open Gate (FsPath CargoTarget ValidationOptions)
open Workspace (MetadataPackage Depends)

variable {isAlphanumeric : Char → Bool} {snapshot : TestSnapshot} {request : TestRequest isAlphanumeric}

variable {node : Workspace.PackageNode} {path : FsPath} {raw : String} {package : MetadataPackage}
  {owners : List (Option MetadataPackage)} {item : PlannedItem} {target : CargoTarget}

lemma mem_of_ownerNode {absolute : FsPath} (h : ownerNode snapshot absolute = some node) :
    (∃ packageId, snapshot.graph.node packageId = some node) ∧ node.workspaceMember = true ∧
      node.root <+: absolute := by
  have hfold : ∀ (owners : List Workspace.PackageNode) (best : Option Workspace.PackageNode),
      owners.foldl (fun best node =>
        if best.any fun found => pathLength node.root < pathLength found.root then best else some node)
          best = some node → best = some node ∨ node ∈ owners := by
    intro owners
    induction owners with
    | nil => exact fun best hbest => Or.inl hbest
    | cons first owners ih =>
      intro best hbest
      rcases ih _ hbest with hfound | hfound
      · dsimp only at hfound
        split_ifs at hfound
        · exact Or.inl hfound
        · exact Or.inr (List.mem_cons.mpr (Or.inl (Option.some.inj hfound).symm))
      · exact Or.inr (List.mem_cons_of_mem _ hfound)
  rcases hfold _ none h with hnone | hmem
  · exact absurd hnone (by simp)
  · obtain ⟨hnode, howner⟩ := List.mem_filter.mp hmem
    rw [Bool.and_eq_true, List.isPrefixOf_iff_prefix] at howner
    obtain ⟨⟨packageId, found⟩, hfound, rfl⟩ := List.mem_map.mp hnode
    exact ⟨⟨packageId, Std.ExtTreeMap.mem_toList_iff_getElem?_eq_some.mp hfound⟩, howner.1, howner.2⟩

lemma member_of_ownerNode {absolute : FsPath} (h : ownerNode snapshot absolute = some node) :
    node.packageId ∈ snapshot.metadata.workspaceMembers := by
  obtain ⟨⟨packageId, hnode⟩, hmember, -⟩ := mem_of_ownerNode h
  obtain ⟨package, -, rfl, rfl⟩ := Workspace.exists_package_of_node hnode
  simpa [Workspace.packageNode] using hmember

lemma narrowPath_of_ownerNode (h : ownerNode snapshot path = some node) :
    narrowPath snapshot path = .ok node.packageId ∨ ∃ reason, narrowPath snapshot path = .error reason := by
  unfold narrowPath
  dsimp only
  cases globalCargoInput path with
  | some input => exact Or.inr ⟨_, rfl⟩
  | none =>
    rw [h]
    dsimp only
    cases snapshot.metadata.packages.find? fun package => package.id == node.packageId with
    | none => exact Or.inr ⟨_, rfl⟩
    | some package =>
      dsimp only
      split_ifs
      · exact Or.inr ⟨_, rfl⟩
      · exact Or.inr ⟨_, rfl⟩
      · exact Or.inl rfl

lemma foldl_pushChangedPath (root : FsPath) (raws : List String) (set : ChangedSet) :
    raws.foldl (pushChangedPath root) set = ⟨set.paths ++ raws.filterMap fun raw => (boundedPath root raw).toOption,
        set.widenedBecause ++ raws.filterMap fun raw => match boundedPath root raw with
          | .error reason => some reason
          | .ok _ => none⟩ := by
  induction raws generalizing set with
  | nil => simp
  | cons raw raws ih =>
    rw [List.foldl_cons, ih, pushChangedPath]
    cases hbounded : boundedPath root raw with
    | error reason => simp [hbounded, Except.toOption]
    | ok path => simp [hbounded, Except.toOption]

lemma mem_resolveChangedSet (hraw : raw ∈ rawChangedPaths request)
    (h : boundedPath snapshot.canonicalWorktree raw = .ok path) :
    path ∈ (resolveChangedSet snapshot.canonicalWorktree request).paths := by
  unfold resolveChangedSet
  rw [foldl_pushChangedPath]
  dsimp only
  rw [List.mem_insertionSort, List.mem_dedup, List.nil_append, List.mem_filterMap]
  exact ⟨raw, hraw, by rw [h]; rfl⟩

/-- Why a changed path widens the plan. -/
def wideningReason (snapshot : TestSnapshot) (raw : String) : Option String :=
  match boundedPath snapshot.canonicalWorktree raw with
  | .error reason => some reason
  | .ok path =>
    match narrowPath snapshot path with
    | .error reason => some reason
    | .ok _ => none

lemma mem_wideningReasons {reason : String} (hraw : raw ∈ rawChangedPaths request)
    (h : wideningReason snapshot raw = some reason) : reason ∈ wideningReasons snapshot request := by
  unfold wideningReason at h
  cases hbounded : boundedPath snapshot.canonicalWorktree raw with
  | error error =>
    rw [hbounded] at h
    obtain rfl : error = reason := Option.some.inj h
    refine List.mem_append_left _ (List.mem_append_left _ ?_)
    unfold resolveChangedSet
    rw [foldl_pushChangedPath]
    refine List.mem_append_right _ (List.mem_filterMap.mpr ⟨raw, hraw, ?_⟩)
    rw [hbounded]
  | ok path =>
    rw [hbounded] at h
    refine List.mem_append_left _ (List.mem_append_right _ (List.mem_filterMap.mpr
      ⟨path, mem_resolveChangedSet hraw hbounded, h⟩))

lemma mem_changedPackages {packageId : String} (hraw : raw ∈ rawChangedPaths request)
    (hbounded : boundedPath snapshot.canonicalWorktree raw = .ok path)
    (h : narrowPath snapshot path = .ok packageId) : packageId ∈ changedPackages snapshot request := by
  unfold changedPackages
  rw [List.mem_insertionSort, List.mem_dedup, List.mem_filterMap]
  exact ⟨path, mem_resolveChangedSet hraw hbounded, by rw [h]; rfl⟩

lemma mem_members_iff : package ∈ snapshot.members ↔
    package ∈ snapshot.metadata.packages ∧ package.id ∈ snapshot.metadata.workspaceMembers := by
  unfold TestSnapshot.members TestSnapshot.isMember
  rw [List.mem_filter, List.contains_iff_mem]

lemma exists_resolveNames {view : Gate.WorkspaceSnapshot} {names : List String}
    (h : ∀ name ∈ names, ∃ package, (view.packages.find? fun package =>
      package.name = name && view.workspaceMembers.any (· = package.id)) = some package) :
    ∃ packageIds, Gate.resolveNames view none names = .ok packageIds ∧
      ∀ name ∈ names, ∀ package, (view.packages.find? fun package =>
        package.name = name && view.workspaceMembers.any (· = package.id)) = some package →
          package.id ∈ packageIds := by
  induction names with
  | nil => exact ⟨[], rfl, by simp⟩
  | cons name names ih =>
    obtain ⟨packageIds, hresolve, hmem⟩ := ih fun name hname => h name (List.mem_cons_of_mem _ hname)
    obtain ⟨package, hfind⟩ := h name List.mem_cons_self
    refine ⟨package.id :: packageIds, ?_, ?_⟩
    · rw [Gate.resolveNames, hfind]
      simp [hresolve, Except.map]
    · intro other hother found hfound
      rcases List.mem_cons.mp hother with rfl | hother
      · obtain rfl := Option.some.inj (hfind.symm.trans hfound)
        exact List.mem_cons_self
      · exact List.mem_cons_of_mem _ (hmem other hother found hfound)

lemma exists_find_view (h : package ∈ snapshot.members) : ∃ found, (snapshot.view.packages.find? fun other =>
      other.name = package.name && snapshot.view.workspaceMembers.any (· = other.id)) = some found ∧
        found.id = package.id := by
  obtain ⟨hpackage, hmember⟩ := mem_members_iff.mp h
  cases hfind : snapshot.view.packages.find? fun other =>
      other.name = package.name && snapshot.view.workspaceMembers.any (· = other.id) with
  | none =>
    have hnot := List.find?_eq_none.mp hfind ⟨package.id, package.name, package.targets⟩
      (List.mem_map.mpr ⟨package, hpackage, rfl⟩)
    refine absurd ?_ hnot
    rw [Bool.and_eq_true]
    exact ⟨decide_eq_true rfl, List.any_eq_true.mpr ⟨package.id, hmember, decide_eq_true rfl⟩⟩
  | some found =>
    refine ⟨found, rfl, ?_⟩
    have hfound := List.find?_some hfind
    rw [Bool.and_eq_true, decide_eq_true_eq, List.any_eq_true] at hfound
    obtain ⟨hname, packageId, hid, heq⟩ := hfound
    obtain ⟨other, hother, rfl⟩ := List.mem_map.mp (List.mem_of_find?_eq_some hfind)
    obtain rfl : packageId = other.id := of_decide_eq_true heq
    exact snapshot.names_unique other hother package hpackage hid hmember hname

/-- A request without an explicit package, target or filter selection. -/
structure TestRequest.Unrestricted (request : TestRequest isAlphanumeric) : Prop where
  packages : request.testConfiguration.packages = []
  cargoTarget : request.testConfiguration.cargoTarget = none
  testFilter : request.testConfiguration.testFilter = none

lemma resolve_members (hrequest : request.Unrestricted) (hmembers : snapshot.members ≠ []) :
    ∃ selection, Gate.resolve snapshot.view (selectedOptions snapshot request.testConfiguration) =
        .ok (some selection) ∧ ∀ package ∈ snapshot.members, package.id ∈ selection.evidence.packageIds := by
  obtain ⟨names, hnames⟩ : ∃ names, names =
    (snapshot.members.map MetadataPackage.name).dedup.insertionSort (· ≤ ·) := ⟨_, rfl⟩
  have hmem : ∀ name, name ∈ names ↔ ∃ package ∈ snapshot.members, package.name = name := by
    intro name
    rw [hnames, List.mem_insertionSort, List.mem_dedup, List.mem_map]
  obtain ⟨packageIds, hresolve, hids⟩ := @exists_resolveNames snapshot.view names fun name hname => by
    obtain ⟨package, hpackage, rfl⟩ := (hmem name).mp hname
    obtain ⟨found, hfind, -⟩ := exists_find_view hpackage
    exact ⟨found, hfind⟩
  refine ⟨⟨⟨.explicit, names, packageIds, [], []⟩, Gate.packageArgs names⟩, ?_, fun package hpackage => ?_⟩
  · unfold Gate.resolve selectedOptions
    rw [if_pos hrequest.packages]
    dsimp only
    rw [if_neg (by simpa using hmembers), hrequest.cargoTarget, ← hnames, hresolve]
    rfl
  · obtain ⟨found, hfind, hid⟩ := exists_find_view hpackage
    rw [← hid]
    exact hids package.name ((hmem _).mpr ⟨package, hpackage, rfl⟩) found hfind

lemma mem_members_of_resolveMappingPackage {mapping : TestMapping}
    (h : resolveMappingPackage snapshot mapping = .ok (some package)) : package ∈ snapshot.members := by
  have hnamed : namedPackage snapshot mapping = .ok (some package) → package ∈ snapshot.members := by
    intro hnamed
    unfold namedPackage at hnamed
    split at hnamed
    · exact absurd hnamed (by simp)
    · split at hnamed
      next => exact absurd hnamed (by simp)
      next name found hfind =>
        obtain rfl := Option.some.inj (Except.ok.inj hnamed)
        have hfound := List.find?_some hfind
        rw [Bool.and_eq_true] at hfound
        exact List.mem_filter.mpr ⟨List.mem_of_find?_eq_some hfind, hfound.2⟩
  have hpath : pathPackage snapshot mapping = .ok (some package) → package ∈ snapshot.members := by
    intro hpath
    unfold pathPackage at hpath
    split at hpath
    · exact absurd hpath (by simp)
    · dsimp only at hpath
      split_ifs at hpath
      split at hpath
      · exact absurd hpath (by simp)
      next node howner =>
        split at hpath
        next => exact absurd hpath (by simp)
        next found hfind =>
          obtain rfl := Option.some.inj (Except.ok.inj hpath)
          have hid : found.id = node.packageId := by simpa using List.find?_some hfind
          refine mem_members_iff.mpr ⟨List.mem_of_find?_eq_some hfind, ?_⟩
          rw [hid]
          exact member_of_ownerNode howner
  unfold resolveMappingPackage at h
  split_ifs at h
  split at h
  · exact absurd h (by simp)
  · exact absurd h (by simp)
  next named byPath hnamedOk hpathOk =>
    split_ifs at h
    cases named with
    | none =>
      obtain rfl : byPath = some package := Except.ok.inj h
      exact hpath hpathOk
    | some found =>
      obtain rfl : found = package := Option.some.inj (Except.ok.inj h)
      exact hnamed hnamedOk

lemma mem_members_of_resolveMappings {mappings : List (TestMapping × ℕ)}
    (h : resolveMappings snapshot mappings = .ok owners)
    (hpackage : some package ∈ owners) : package ∈ snapshot.members := by
  induction mappings generalizing owners with
  | nil =>
    obtain rfl : [] = owners := Except.ok.inj h
    exact absurd hpackage (by simp)
  | cons first mappings ih =>
    unfold resolveMappings at h
    split at h
    · exact absurd h (by simp)
    next owner howner =>
      cases hrest : resolveMappings snapshot mappings with
      | error row =>
        rw [hrest] at h
        exact absurd h (by simp [Except.map])
      | ok rest =>
        rw [hrest] at h
        obtain rfl : owner :: rest = owners := Except.ok.inj h
        rcases List.mem_cons.mp hpackage with rfl | hmem
        · exact mem_members_of_resolveMappingPackage howner
        · exact ih hrest hmem

lemma exists_nameItems {items : List (PlannedItem × String)} {source : String}
    (h : (item, source) ∈ items) (used : List String) :
    ∃ taken, { item with id := uniqueId taken source } ∈ nameItems used items := by
  induction items generalizing used with
  | nil => exact absurd h (by simp)
  | cons first items ih =>
    rcases List.mem_cons.mp h with rfl | h
    · exact ⟨used, List.mem_cons_self⟩
    · obtain ⟨taken, hmem⟩ := ih h (uniqueId used first.2 :: used)
      exact ⟨taken, List.mem_cons_of_mem _ hmem⟩

lemma nodup_nameItems (items : List (PlannedItem × String)) (used : List String) :
    ((nameItems used items).map fun item => item.id).Nodup ∧ ∀ item ∈ nameItems used items, item.id ∉ used := by
  induction items generalizing used with
  | nil => exact ⟨List.nodup_nil, by simp [nameItems]⟩
  | cons first items ih =>
    obtain ⟨hnodup, hnew⟩ := ih (uniqueId used first.2 :: used)
    constructor
    · refine List.nodup_cons.mpr ⟨fun hmem => ?_, hnodup⟩
      obtain ⟨item, hitem, hid⟩ := List.mem_map.mp hmem
      exact hnew item hitem (List.mem_cons.mpr (Or.inl hid))
    · intro item hitem
      rcases List.mem_cons.mp hitem with rfl | hitem
      · exact uniqueId_notMem used first.2
      · exact fun hused => hnew item hitem (List.mem_cons_of_mem _ hused)

section

variable {options : ValidationOptions} {selection : Gate.GateScope}

lemma id_of_bindItem {item bound : PlannedItem} {mapping : TestMapping}
    (h : bindItem snapshot isAlphanumeric options selection item mapping = .ok bound) : bound.id = item.id := by
  have htarget : ∀ other : PlannedItem,
      bindTarget snapshot isAlphanumeric options selection.packageIds other = .ok bound → bound.id = other.id := by
    intro other hother
    unfold bindTarget at hother
    dsimp only at hother
    split_ifs at hother
    split at hother
    · split_ifs at hother
      split at hother
      · exact absurd hother (by simp)
      · rw [← Except.ok.inj hother]
    · exact absurd hother (by simp)
  unfold bindItem at h
  dsimp only at h
  split_ifs at h
  all_goals first
    | exact htarget _ h
    | rw [← Except.ok.inj h]

lemma of_bindItems {items bound : List PlannedItem} {mappings : List TestMapping}
    (h : bindItems snapshot isAlphanumeric options selection items mappings = .ok bound) :
    (bound.map fun item => item.id) = (items.map fun item => item.id) ∧
      ∀ item ∈ items, item.exactTest = none → item ∈ bound := by
  induction items generalizing mappings bound with
  | nil =>
    obtain rfl : [] = bound := Except.ok.inj h
    exact ⟨rfl, fun item hitem => absurd hitem (by simp)⟩
  | cons first items ih =>
    -- What the loop does with the rest.
    have hrest : ∀ {kept : PlannedItem} {mappings : List TestMapping},
        (bindItems snapshot isAlphanumeric options selection items mappings).map (kept :: ·) = .ok bound →
          ∃ rest, bound = kept :: rest ∧ (rest.map fun item => item.id) = (items.map fun item => item.id) ∧
            ∀ item ∈ items, item.exactTest = none → item ∈ rest := by
      intro kept mappings hmap
      cases hitems : bindItems snapshot isAlphanumeric options selection items mappings with
      | error reason =>
        rw [hitems] at hmap
        exact absurd hmap (by simp [Except.map])
      | ok rest =>
        rw [hitems] at hmap
        exact ⟨rest, (Except.ok.inj hmap).symm, ih hitems⟩
    unfold bindItems at h
    split_ifs at h with hexact
    · obtain ⟨rest, rfl, hids, hkeep⟩ := hrest h
      refine ⟨by rw [List.map_cons, List.map_cons, hids], fun item hitem hnone => ?_⟩
      rcases List.mem_cons.mp hitem with rfl | hitem
      · exact List.mem_cons_self
      · exact List.mem_cons_of_mem _ (hkeep item hitem hnone)
    · cases mappings with
      | nil =>
        obtain rfl : first :: items = bound := Except.ok.inj h
        exact ⟨rfl, fun item hitem _ => hitem⟩
      | cons mapping mappings =>
        dsimp only at h
        cases hbound : bindItem snapshot isAlphanumeric options selection first mapping with
        | error reason =>
          rw [hbound] at h
          exact absurd h (by simp)
        | ok kept =>
          rw [hbound] at h
          obtain ⟨rest, rfl, hids, hkeep⟩ := hrest h
          refine ⟨by rw [List.map_cons, List.map_cons, hids, id_of_bindItem hbound], fun item hitem hnone => ?_⟩
          rcases List.mem_cons.mp hitem with rfl | hitem
          · exact absurd hnone hexact
          · exact List.mem_cons_of_mem _ (hkeep item hitem hnone)

end

/-- An item is in the plan, or the budget has cut it and it is among the skipped. -/
def TestPlan.Lists (plan : TestPlan) (item : PlannedItem) : Prop :=
  item ∈ plan.items ∨ budgetRow item ∈ plan.skipped

/-- The identifiers that the items of a plan have, with those that the budget has cut. -/
def TestPlan.itemIds (plan : TestPlan) : List String :=
  (plan.items.map fun item => item.id) ++
    (plan.skipped.filter fun row => row.status = .skippedBudget).map SkippedCell.id

variable {scope : PlanScope} {skipped : List SkippedCell} {bound : List PlannedItem}

lemma lists_finishPlan (h : item ∈ bound) (maxTests : ℕ) (explicit : Bool) :
    (finishPlan request scope skipped maxTests bound explicit).Lists item := by
  obtain ⟨sorted, hsorted⟩ : ∃ sorted, sorted =
    bound.insertionSort fun left right => itemLe left right = true := ⟨_, rfl⟩
  have hitem : item ∈ sorted.take maxTests ++ sorted.drop maxTests := by
    rw [List.take_append_drop, hsorted, List.mem_insertionSort]
    exact h
  rcases List.mem_append.mp hitem with htake | hdrop
  · refine Or.inl ?_
    unfold finishPlan
    rw [← hsorted]
    exact htake
  · refine Or.inr ?_
    unfold finishPlan
    rw [← hsorted]
    exact List.mem_append_right _ (List.mem_map_of_mem hdrop)

lemma itemIds_finishPlan (hskipped : ∀ row ∈ skipped, row.status ≠ .skippedBudget) (maxTests : ℕ)
    (explicit : Bool) : (finishPlan request scope skipped maxTests bound explicit).itemIds.Perm
      (bound.map fun item => item.id) := by
  obtain ⟨sorted, hsorted⟩ : ∃ sorted, sorted =
    bound.insertionSort fun left right => itemLe left right = true := ⟨_, rfl⟩
  have hperm : (sorted.map fun item => item.id).Perm (bound.map fun item => item.id) := by
    rw [hsorted]
    exact (List.perm_insertionSort _ bound).map _
  have hrows : ((skipped ++ (sorted.drop maxTests).map budgetRow).filter fun row =>
      row.status = .skippedBudget) = (sorted.drop maxTests).map budgetRow := by
    rw [List.filter_append, List.filter_eq_nil_iff.mpr fun row hrow => by simpa using hskipped row hrow,
      List.nil_append, List.filter_eq_self]
    intro row hrow
    obtain ⟨item, -, rfl⟩ := List.mem_map.mp hrow
    exact decide_eq_true rfl
  refine List.Perm.trans (List.Perm.of_eq ?_) hperm
  unfold TestPlan.itemIds finishPlan
  dsimp only
  rw [← hsorted, hrows, List.map_map]
  calc (sorted.take maxTests).map (fun item => item.id) ++ (sorted.drop maxTests).map (SkippedCell.id ∘ budgetRow)
      = (sorted.take maxTests ++ sorted.drop maxTests).map fun item => item.id := List.map_append.symm
    _ = sorted.map fun item => item.id := by rw [List.take_append_drop]

/-! ## Coverage -/

/-- An item stands for the tests of a kind that a target of a package has. -/
structure PlannedItem.StandsFor (item : PlannedItem) (package : MetadataPackage) (target : CargoTarget)
    (kind : String) : Prop where
  packageId_eq : item.packageId = package.id
  target_eq : item.target = target.name
  targetKind_eq : item.targetKind = kind
  exists_id : ∃ used, item.id = uniqueId used (s!"{package.name}--{kind}--{target.name}--" ++ "suite")

/-- A plan accounts for tests, doctests, compiled examples, and other kinds. -/
structure TestPlan.Accounts (plan : TestPlan) (package : MetadataPackage) (target : CargoTarget) : Prop where
  tested : isTestBearingKindTarget target = true → target.test = true →
    ∃ item : PlannedItem, item.StandsFor package target (targetKindName target) ∧
      item.compileOnly = false ∧ plan.Lists item
  doctests : targetSupportsDoctests target = true →
    ∃ item : PlannedItem, item.StandsFor package target "doctest" ∧ plan.Lists item
  example_compiled : targetKindName target = "example" → target.test = false →
    ∃ item : PlannedItem, item.StandsFor package target "example" ∧ item.compileOnly = true ∧ plan.Lists item
  unsupported : isTestBearingKindTarget target = false → target.test = true ∨ target.doctest = true →
    .customBuild ∉ target.kind → ∃ row ∈ plan.skipped, row.status = .unsupportedConfiguration ∧
      row.id = sanitizeId package.name ++ "--unsupported--" ++ sanitizeId target.name

/-- Owners are not refused, and exact tests are bound to targets. -/
def MappingsResolve (snapshot : TestSnapshot) (request : TestRequest isAlphanumeric) : Prop :=
  ∃ owners, resolveMappings snapshot request.testMappings.zipIdx = .ok owners ∧
    ∀ selection, Gate.resolve snapshot.view (selectedOptions snapshot request.testConfiguration) =
        .ok (some selection) →
      ∃ bound, bindItems snapshot isAlphanumeric request.testConfiguration selection.evidence
        (draftItems snapshot request (planScope snapshot request owners) owners) (exactMappings request) = .ok bound

def InScope (snapshot : TestSnapshot) (request : TestRequest isAlphanumeric) (scope : PlanScope)
    (package : MetadataPackage) : Prop :=
  package ∈ snapshot.members ∧ scope.includes snapshot request package = true

lemma exists_draftItems (hscope : InScope snapshot request scope package) (htarget : target ∈ package.targets)
    (hitem : item ∈ targetItems package (scope.context request.testConfiguration package) target) :
    ∃ used, { item with id := uniqueId used (itemSource item) } ∈ draftItems snapshot request scope owners := by
  refine exists_nameItems (List.mem_append_left _ (List.mem_flatMap.mpr ⟨package, ?_, ?_⟩)) []
  · exact List.mem_filter.mpr hscope
  · exact List.mem_map.mpr ⟨item, List.mem_flatMap.mpr ⟨target, htarget, hitem⟩, rfl⟩

lemma of_mem_targetItems {context : PackagePlanContext} (h : item ∈ targetItems package context target) :
    item.exactTest = none ∧ item.packageId = package.id ∧ item.package = package.name ∧
      item.target = target.name := by
  unfold targetItems at h
  dsimp only at h
  split_ifs at h
  all_goals
    simp only [List.append_nil, List.nil_append, List.cons_append, List.mem_cons, List.not_mem_nil, or_false]
      at h
  · rcases h with rfl | rfl <;> exact ⟨rfl, rfl, rfl, rfl⟩
  · obtain rfl := h
    exact ⟨rfl, rfl, rfl, rfl⟩
  · obtain rfl := h
    exact ⟨rfl, rfl, rfl, rfl⟩

lemma isTestBearingKindTarget_of_mem {kind : Gate.TargetKind}
    (hkind : kind ∈ target.kind) (h : isTestBearingKind kind = true) : isTestBearingKindTarget target = true :=
  List.any_eq_true.mpr ⟨kind, hkind, h⟩

lemma isTestBearingKindTarget_of_doctests
    (h : targetSupportsDoctests target = true) : isTestBearingKindTarget target = true := by
  unfold targetSupportsDoctests at h
  rw [Bool.and_eq_true, List.any_eq_true] at h
  obtain ⟨-, kind, hkind, hmem⟩ := h
  refine isTestBearingKindTarget_of_mem hkind ?_
  simp only [List.mem_cons, List.not_mem_nil, or_false, decide_eq_true_eq] at hmem
  rcases hmem with rfl | rfl | rfl <;> decide

lemma isTestBearingKindTarget_of_example (h : targetKindName target = "example") :
    isTestBearingKindTarget target = true := by
  unfold targetKindName at h
  cases hfind : target.kind.findSome? kindName? with
  | none =>
    rw [hfind] at h
    exact absurd h (by decide)
  | some name =>
    obtain ⟨kind, hkind, hname⟩ := List.exists_of_findSome?_eq_some hfind
    refine isTestBearingKindTarget_of_mem hkind ?_
    cases kind with
    | customBuild => exact absurd hname (by simp [kindName?])
    | other => exact absurd hname (by simp [kindName?])
    | _ => decide

/-- A plan keeps the items of the members. -/
def Keeps (snapshot : TestSnapshot) (drafts bound : List PlannedItem) : Prop :=
  ∀ item ∈ drafts, item.exactTest = none → (∃ package ∈ snapshot.members, item.packageId = package.id) → item ∈ bound

lemma exists_listed
    (hkeeps : Keeps snapshot (draftItems snapshot request scope owners) bound)
    (hscope : InScope snapshot request scope package)
    (htarget : target ∈ package.targets)
    (hitem : item ∈ targetItems package (scope.context request.testConfiguration package) target)
    (hfilter : item.filter = none) (maxTests : ℕ) :
    ∃ listed : PlannedItem, listed.StandsFor package target item.targetKind ∧ listed.compileOnly = item.compileOnly ∧
      (finishPlan request scope skipped maxTests bound false).Lists listed := by
  obtain ⟨used, hdraft⟩ := @exists_draftItems _ snapshot request _ owners _ _ scope hscope htarget hitem
  obtain ⟨hexact, hid, hname, htargetName⟩ := of_mem_targetItems hitem
  have hsource : itemSource item =
      s!"{package.name}--{item.targetKind}--{target.name}--" ++ "suite" := by
    rw [← hname, ← htargetName]
    unfold itemSource
    rw [hfilter]
    rfl
  have hlists := @lists_finishPlan _ request _ scope skipped bound
    (hkeeps _ hdraft hexact ⟨package, hscope.1, hid⟩) maxTests false
  exact ⟨{ item with id := uniqueId used (itemSource item) },
    ⟨hid, htargetName, rfl, used, by rw [← hsource]⟩, rfl, hlists⟩

lemma options_context (scope : PlanScope) (options : ValidationOptions) (package : MetadataPackage) :
    (scope.context options package).options = options := by
  unfold PlanScope.context
  split_ifs <;> rfl

lemma accounts_of_inScope (hrequest : request.Unrestricted)
    (hkeeps : Keeps snapshot (draftItems snapshot request scope owners) bound)
    (hscope : InScope snapshot request scope package) (htarget : target ∈ package.targets) (maxTests : ℕ) :
    (finishPlan request scope (packageSkipped snapshot request scope) maxTests bound false).Accounts package
      target := by
  obtain ⟨context, hcontext⟩ : ∃ context, context = scope.context request.testConfiguration package := ⟨_, rfl⟩
  have hoptions : context.options = request.testConfiguration := by
    rw [hcontext]
    exact options_context scope request.testConfiguration package
  have htested : isTested target context.options = target.test := by
    unfold isTested
    rw [hoptions, hrequest.cargoTarget]
    simp
  have hcompile : isCompileOnly target context.options = (targetKindName target == "example" && !target.test) := by
    unfold isCompileOnly
    rw [htested, hoptions, hrequest.testFilter, hrequest.cargoTarget]
    simp
  -- The item of the target, and its filter.
  obtain ⟨item, hitem⟩ : ∃ item, item =
    packageTargetItem package target context (isCompileOnly target context.options) := ⟨_, rfl⟩
  have hfilter : item.filter = none := by
    rw [hitem]
    unfold packageTargetItem
    dsimp only
    rw [hoptions, hrequest.testFilter, ite_self]
  have hfirst : isTestBearingKindTarget target = true →
      (target.test = true ∨ isCompileOnly target context.options = true) →
        item ∈ targetItems package context target := by
    intro hbearing hplanned
    unfold targetItems
    rw [if_pos hbearing]
    dsimp only
    rw [htested, if_pos (by simpa using hplanned), ← hitem]
    exact List.mem_append_left _ (List.mem_singleton.mpr rfl)
  subst hcontext
  constructor
  · intro hbearing htest
    obtain ⟨listed, hstands, honly, hlists⟩ := exists_listed hkeeps hscope htarget
      (hfirst hbearing (Or.inl htest)) hfilter maxTests
    refine ⟨listed, by rw [hitem] at hstands; exact hstands, ?_, hlists⟩
    rw [honly, hitem]
    change isCompileOnly target _ = false
    rw [hcompile, htest]
    simp
  · intro hdoctests
    have hmem : doctestItem target (scope.context request.testConfiguration package) item ∈
        targetItems package (scope.context request.testConfiguration package) target := by
      unfold targetItems
      rw [if_pos (isTestBearingKindTarget_of_doctests hdoctests)]
      refine List.mem_append_right _ ?_
      rw [hdoctests, ← hitem, hoptions, hrequest.testFilter]
      exact List.mem_singleton.mpr rfl
    obtain ⟨listed, hstands, -, hlists⟩ := exists_listed hkeeps hscope htarget hmem rfl maxTests
    exact ⟨listed, hstands, hlists⟩
  · intro hexample htest
    have honly : isCompileOnly target (scope.context request.testConfiguration package).options = true := by
      rw [hcompile, hexample, htest]
      decide
    obtain ⟨listed, hstands, hlistedOnly, hlists⟩ := exists_listed hkeeps hscope htarget
      (hfirst (isTestBearingKindTarget_of_example hexample) (Or.inr honly)) hfilter maxTests
    refine ⟨listed, ?_, ?_, hlists⟩
    · rw [hitem] at hstands
      change listed.StandsFor package target (targetKindName target) at hstands
      rw [hexample] at hstands
      exact hstands
    · rw [hlistedOnly, hitem]
      exact honly
  · intro hbearing hflags hbuild
    refine ⟨⟨sanitizeId package.name ++ "--unsupported--" ++ sanitizeId target.name, .unsupportedConfiguration,
      s!"target {target.name} has an unsupported test target kind"⟩, ?_, rfl, rfl⟩
    refine List.mem_append_left _ (List.mem_flatMap.mpr ⟨package, List.mem_filter.mpr hscope,
      List.mem_flatMap.mpr ⟨target, htarget, ?_⟩⟩)
    unfold targetSkipped
    rw [if_neg (by rw [hbearing]; decide), if_pos (by simpa using ⟨hflags, hbuild⟩)]
    exact List.mem_singleton.mpr rfl

/-! ## The whole plan -/

lemma exists_bindTestSelection (hrequest : request.Unrestricted)
    {drafts : List PlannedItem} (howners : resolveMappings snapshot request.testMappings.zipIdx = .ok owners)
    (hbind : ∀ selection, Gate.resolve snapshot.view
        (selectedOptions snapshot request.testConfiguration) = .ok (some selection) →
      ∃ bound, bindItems snapshot isAlphanumeric request.testConfiguration selection.evidence drafts
        (exactMappings request) = .ok bound) :
    ∃ bound, bindTestSelection snapshot request owners drafts = .ok (bound, false) ∧ Keeps snapshot drafts bound ∧
      (bound.map fun item => item.id).Sublist (drafts.map fun item => item.id) := by
  have hexplicit : (decide (request.testConfiguration.packages ≠ []) ||
      request.testConfiguration.cargoTarget.isSome) = false := by
    rw [hrequest.packages, hrequest.cargoTarget]
    rfl
  by_cases hmembers : snapshot.members = []
  · refine ⟨drafts, ?_, fun item hitem _ _ => hitem, List.Sublist.refl _⟩
    have hresolve : Gate.resolve snapshot.view (selectedOptions snapshot request.testConfiguration) = .ok none := by
      unfold Gate.resolve selectedOptions
      rw [if_pos hrequest.packages, hmembers]
      rfl
    unfold bindTestSelection
    dsimp only
    rw [request.configuration_valid, hresolve, hexplicit]
  · obtain ⟨selection, hresolve, hmem⟩ := resolve_members hrequest hmembers
    obtain ⟨bound, hbound⟩ := hbind selection hresolve
    obtain ⟨hids, hstay⟩ := of_bindItems hbound
    have howned : (owners.any fun owner => owner.any fun package =>
        !selection.evidence.packageIds.contains package.id) = false := by
      rw [List.any_eq_false]
      intro owner howner
      cases owner with
      | none => simp
      | some package =>
        have hpackage := hmem package (mem_members_of_resolveMappings howners howner)
        simpa using hpackage
    refine ⟨keptItems request.testConfiguration selection.evidence bound, ?_, ?_, ?_⟩
    · unfold bindTestSelection
      dsimp only
      rw [request.configuration_valid, hresolve]
      dsimp only
      rw [howned, hbound, hexplicit, hrequest.testFilter]
      rfl
    · intro item hitem hexact hpackage
      obtain ⟨package, hpackage, hid⟩ := hpackage
      refine List.mem_filter.mpr ⟨hstay item hitem hexact, ?_⟩
      rw [hrequest.cargoTarget, hid, List.contains_iff_mem.mpr (hmem package hpackage)]
      simp
    · rw [← hids]
      exact (List.filter_sublist).map _

lemma status_packageSkipped (snapshot : TestSnapshot) (request : TestRequest isAlphanumeric)
    (scope : PlanScope) : ∀ row ∈ packageSkipped snapshot request scope, row.status ≠ .skippedBudget := by
  intro row hrow
  obtain ⟨package, -, hrow⟩ := List.mem_flatMap.mp hrow
  obtain ⟨target, -, hrow⟩ := List.mem_flatMap.mp hrow
  unfold targetSkipped at hrow
  split_ifs at hrow
  all_goals first
    | exact absurd hrow List.not_mem_nil
    | rw [List.mem_singleton.mp hrow]; exact fun hstatus => CellStatus.noConfusion hstatus

lemma exists_planTests (hrequest : request.Unrestricted) (hmappings : MappingsResolve snapshot request)
    (maxTests : ℕ) :
    ∃ owners bound, planTests snapshot request maxTests = finishPlan request (planScope snapshot request owners)
          (packageSkipped snapshot request (planScope snapshot request owners)) maxTests bound false ∧
      Keeps snapshot (draftItems snapshot request (planScope snapshot request owners) owners) bound ∧
      (planTests snapshot request maxTests).itemIds.Nodup := by
  obtain ⟨owners, howners, hbind⟩ := hmappings
  obtain ⟨bound, hbound, hkeeps, hids⟩ := exists_bindTestSelection hrequest howners hbind
  have hplan : planTests snapshot request maxTests = finishPlan request (planScope snapshot request owners)
        (packageSkipped snapshot request (planScope snapshot request owners)) maxTests bound false := by
    unfold planTests
    rw [howners]
    dsimp only
    rw [hbound]
  refine ⟨owners, bound, hplan, hkeeps, ?_⟩
  rw [hplan, (itemIds_finishPlan (status_packageSkipped snapshot request _) maxTests false).nodup_iff]
  exact hids.nodup (nodup_nameItems _ []).1

lemma of_full {maxTests : ℕ} (h : (planTests snapshot request maxTests).full = true) :
    (planTests snapshot request maxTests).widenedBecause ≠ [] ∧
      (planTests snapshot request maxTests).skipped = [] := by
  unfold planTests at h ⊢
  split at h
  · exact absurd h (by simp)
  · dsimp only at h ⊢
    split at h
    · exact absurd h (by simp)
    next bound explicit hbound =>
      unfold finishPlan at h ⊢
      dsimp only at h ⊢
      simp only [Bool.and_eq_true, PlanScope.widened, Bool.not_eq_true', List.isEmpty_iff] at h
      exact ⟨List.isEmpty_eq_false_iff.mp h.1.1, h.2⟩

lemma inScope_of_changed {ownerId : String} (hmember : package ∈ snapshot.members)
    (howner : ownerId ∈ changedPackages snapshot request)
    (hchain : Relation.ReflTransGen (Depends snapshot.metadata) package.id ownerId) :
    InScope snapshot request (planScope snapshot request owners) package := by
  refine ⟨hmember, ?_⟩
  obtain ⟨result, hresult, hmem⟩ :=
    Workspace.exists_reverseDependents snapshot.metadata (changedPackages snapshot request)
  have hreached : package.id ∈ result := (hmem package.id).mpr ⟨ownerId, howner, hchain⟩
  unfold PlanScope.includes
  simp only [Bool.or_eq_true]
  by_cases hchanged : package.id ∈ changedPackages snapshot request
  · exact Or.inl (Or.inl (Or.inl (Or.inl (List.contains_iff_mem.mpr hchanged))))
  · refine Or.inl (Or.inl (Or.inl (Or.inr (decide_eq_true ?_))))
    change package.id ∈ ((snapshot.graph.reverseDependents (changedPackages snapshot request)).getD ∅) \
      (changedPackages snapshot request).toFinset
    unfold TestSnapshot.graph
    rw [hresult, Option.getD_some, Finset.mem_sdiff, List.mem_toFinset]
    exact ⟨hreached, hchanged⟩

lemma inScope_of_widened (hmember : package ∈ snapshot.members)
    (hwidened : scope.widenedBecause ≠ []) : InScope snapshot request scope package := by
  refine ⟨hmember, ?_⟩
  have hisMember : snapshot.isMember package = true := (List.mem_filter.mp hmember).2
  have hscope : scope.widened = true := by
    unfold PlanScope.widened
    simpa using hwidened
  unfold PlanScope.includes
  rw [hscope, hisMember]
  simp

lemma widenedBecause_ne_nil {reason : String} (h : reason ∈ wideningReasons snapshot request) :
    (planScope snapshot request owners).widenedBecause ≠ [] := by
  have hmem : reason ∈ (planScope snapshot request owners).widenedBecause := by
    unfold planScope
    dsimp only
    rw [List.mem_insertionSort, List.mem_dedup]
    exact List.mem_append_left _ h
  exact List.ne_nil_of_mem hmem

/-- A package owns a changed path. -/
def Owns (snapshot : TestSnapshot) (raw : String) (packageId : String) : Prop :=
  ∃ path node, boundedPath snapshot.canonicalWorktree raw = .ok path ∧
    ownerNode snapshot path = some node ∧ node.packageId = packageId

/-- A full plan was widened and skips nothing.  Otherwise, when all mappings resolve, a plan
accounts for the tests of every member that owns a changed path or leads to an owner, and of every
member when a path widens it; no two items share an identifier. -/
theorem test_plan_covers (snapshot : TestSnapshot) (request : TestRequest isAlphanumeric) (maxTests : ℕ) :
    ((planTests snapshot request maxTests).full = true → (planTests snapshot request maxTests).widenedBecause ≠ [] ∧
        (planTests snapshot request maxTests).skipped = []) ∧
    (request.Unrestricted → MappingsResolve snapshot request →
      (∀ raw ∈ rawChangedPaths request, ∀ ownerId, Owns snapshot raw ownerId → ∀ package ∈ snapshot.members,
          Relation.ReflTransGen (Depends snapshot.metadata) package.id ownerId →
            ∀ target ∈ package.targets, (planTests snapshot request maxTests).Accounts package target) ∧
      ((∃ raw ∈ rawChangedPaths request, (wideningReason snapshot raw).isSome) →
        (planTests snapshot request maxTests).widenedBecause ≠ [] ∧
          ∀ package ∈ snapshot.members, ∀ target ∈ package.targets,
            (planTests snapshot request maxTests).Accounts package target) ∧
      (planTests snapshot request maxTests).itemIds.Nodup) := by
  refine ⟨of_full, fun hrequest hmappings => ?_⟩
  obtain ⟨owners, bound, hplan, hkeeps, hnodup⟩ := exists_planTests hrequest hmappings maxTests
  -- A reason of a changed path is one for all members.
  have hwidened : ∀ raw ∈ rawChangedPaths request, ∀ reason, wideningReason snapshot raw = some reason →
      (planScope snapshot request owners).widenedBecause ≠ [] ∧
        ∀ package ∈ snapshot.members, ∀ target ∈ package.targets,
          (planTests snapshot request maxTests).Accounts package target := by
    intro raw hraw reason hreason
    have hne : (planScope snapshot request owners).widenedBecause ≠ [] :=
      widenedBecause_ne_nil (mem_wideningReasons hraw hreason)
    refine ⟨hne, fun package hpackage target htarget => ?_⟩
    rw [hplan]
    exact accounts_of_inScope hrequest hkeeps (inScope_of_widened hpackage hne) htarget maxTests
  refine ⟨?_, ?_, hnodup⟩
  · rintro raw hraw ownerId ⟨path, node, hbounded, hnode, rfl⟩ package hpackage hchain target htarget
    rcases narrowPath_of_ownerNode hnode with hok | ⟨reason, herror⟩
    · rw [hplan]
      have hscope : InScope snapshot request (planScope snapshot request owners) package :=
        inScope_of_changed hpackage (mem_changedPackages hraw hbounded hok) hchain
      exact accounts_of_inScope hrequest hkeeps hscope htarget maxTests
    · refine (hwidened raw hraw reason ?_).2 package hpackage target htarget
      unfold wideningReason
      rw [hbounded]
      dsimp only
      rw [herror]
  · rintro ⟨raw, hraw, hsome⟩
    obtain ⟨reason, hreason⟩ := Option.isSome_iff_exists.mp hsome
    obtain ⟨hne, hall⟩ := hwidened raw hraw reason hreason
    refine ⟨?_, hall⟩
    rw [hplan]
    exact hne

/-! ## A consumer -/

/-- A target below `/ws`. -/
def targetAt (name : String) (kind : Gate.TargetKind) (path : FsPath) : CargoTarget where
  name := name
  kind := [kind]
  doctest := kind = .lib
  test := true
  srcPath := "ws" :: path
  requiredFeatures := []

def libraryPackage : MetadataPackage where
  id := "a 0.1.0"
  name := "a"
  version := "0.1.0"
  manifestPath := ["ws", "a", "Cargo.toml"]
  source := none
  targets := [targetAt "a" .lib ["a", "src", "lib.rs"]]
  name_valid := Workspace.a_valid

def consumerPackage : MetadataPackage where
  id := "b 0.1.0"
  name := "b"
  version := "0.1.0"
  manifestPath := ["ws", "b", "Cargo.toml"]
  source := none
  targets := [targetAt "b" .lib ["b", "src", "lib.rs"], targetAt "flow" .test ["b", "tests", "flow.rs"]]
  name_valid := Workspace.b_valid

lemma manifest_rooted : "/ws/Cargo.toml".toList.head? = some '/' := by decide +kernel

/-- A workspace whose member `b` depends on `a`. -/
def consumerWorkspace : TestSnapshot where
  metadata :=
    { packages := [libraryPackage, consumerPackage]
      workspaceMembers := ["a 0.1.0", "b 0.1.0"]
      resolve := some [⟨"a 0.1.0", [], [], []⟩, ⟨"b 0.1.0", [], ["a 0.1.0"], [⟨"a", "a 0.1.0", [.normal]⟩]⟩] }
  canonicalWorktree := ["ws"]
  manifestPath := "/ws/Cargo.toml"
  isVirtual := true
  externalPaths := []
  manifest_absolute := manifest_rooted
  names_unique := by decide +kernel

/-- A request for an edit of `a`, with a mapping to a test of `b`. -/
def editRequest : TestRequest Char.isAlphanum where
  change := .unnamed
  recordFiles := []
  changedPaths := ["a/src/util.rs"]
  semanticReferences := []
  testConfiguration := {}
  testMappings := [{ package := some "b", target := some "flow", testName := some "flow_works" }]
  configuration_valid := rfl

lemma unrestricted_editRequest : editRequest.Unrestricted where
  packages := rfl
  cargoTarget := rfl
  testFilter := rfl

/-- What the members of the workspace are selected as. -/
def consumerScope : Gate.CheckScope :=
  ⟨⟨.explicit, ["a", "b"], ["a 0.1.0", "b 0.1.0"], [], []⟩, ["-p", "a", "-p", "b"]⟩

lemma mappingsResolve_editRequest : MappingsResolve consumerWorkspace editRequest := by
  refine ⟨[some consumerPackage], by rfl, fun selection hselection => ?_⟩
  have hscope : Gate.resolve consumerWorkspace.view
      (selectedOptions consumerWorkspace editRequest.testConfiguration) = .ok (some consumerScope) := by
    rfl
  obtain rfl : consumerScope = selection := Option.some.inj (Except.ok.inj (hscope.symm.trans hselection))
  have hok : (bindItems consumerWorkspace Char.isAlphanum editRequest.testConfiguration
      consumerScope.evidence (draftItems consumerWorkspace editRequest
        (planScope consumerWorkspace editRequest [some consumerPackage]) [some consumerPackage])
      (exactMappings editRequest)).isOk = true := by decide +kernel
  cases hbind : bindItems consumerWorkspace Char.isAlphanum editRequest.testConfiguration
      consumerScope.evidence (draftItems consumerWorkspace editRequest
        (planScope consumerWorkspace editRequest [some consumerPackage]) [some consumerPackage])
      (exactMappings editRequest) with
  | error reason =>
    rw [hbind] at hok
    exact absurd hok (by simp [Except.isOk, Except.toBool])
  | ok bound => exact ⟨bound, rfl⟩

/-- The edit of `a` has the tests of `b` planned, although only `a` was changed. -/
theorem test_plan_covers_consumer : ∃ item : PlannedItem,
    item.StandsFor consumerPackage (targetAt "flow" .test ["b", "tests", "flow.rs"]) "test" ∧
      item.compileOnly = false ∧ (planTests consumerWorkspace editRequest 64).Lists item := by
  have hcovers := ((test_plan_covers consumerWorkspace editRequest 64).2 unrestricted_editRequest
    mappingsResolve_editRequest).1
  have howns : Owns consumerWorkspace "a/src/util.rs" "a 0.1.0" := by
    refine ⟨["ws", "a", "src", "util.rs"], Workspace.packageNode consumerWorkspace.metadata libraryPackage,
      by rfl, by decide +kernel, rfl⟩
  have hdepends : Depends consumerWorkspace.metadata "b 0.1.0" "a 0.1.0" := by
    refine ⟨⟨consumerPackage, by decide, rfl⟩, ⟨libraryPackage, by decide, rfl⟩,
      ⟨"b 0.1.0", [], ["a 0.1.0"], [⟨"a", "a 0.1.0", [.normal]⟩]⟩, by decide, rfl, by decide⟩
  exact (hcovers "a/src/util.rs" (by decide) "a 0.1.0" howns consumerPackage (by decide)
    (.single hdepends) (targetAt "flow" .test ["b", "tests", "flow.rs"]) (by decide)).tested rfl rfl

end AgzRustMcp.Verify
