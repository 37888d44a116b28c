import AgzRustMcp.Workspace.Graph

/-!
# What a change affects

Following the edges of a built graph back from the packages of the changed paths gives every package
with a chain of dependencies to one of these, on cycles too (`affected_scope`).
-/

namespace AgzRustMcp.Workspace

open Gate (FsPath)

variable {graph : PackageGraph} {edges : Set PackageEdge} {edge : PackageEdge} {metadata : Metadata}

/-! ## Edges -/

/-- The edges of a graph, found from both ends. -/
structure Tracks (graph : PackageGraph) (edges : Set PackageEdge) : Prop where
  outgoing : ∀ packageId edge, edge ∈ graph.outgoingOf packageId ↔ edge ∈ edges ∧ edge.fromPackageId = packageId
  incoming : ∀ packageId edge, edge ∈ graph.incomingOf packageId ↔ edge ∈ edges ∧ edge.toPackageId = packageId

lemma tracks_empty (nodes : Std.ExtTreeMap String PackageNode) : Tracks ⟨nodes, ∅, ∅⟩ ∅ := by
  constructor <;> simp [PackageGraph.outgoingOf, PackageGraph.incomingOf]

@[simp] lemma nodes_addEdge (graph : PackageGraph) (edge : PackageEdge) :
    (addEdge graph edge).nodes = graph.nodes := by
  unfold addEdge
  split_ifs <;> rfl

lemma mem_getD_insert (lists : Std.ExtTreeMap String (List PackageEdge)) (key packageId : String)
    (edge other : PackageEdge) : other ∈ (lists.insert key (lists[key]?.getD [] ++ [edge]))[packageId]?.getD [] ↔
      other ∈ lists[packageId]?.getD [] ∨ other = edge ∧ key = packageId := by
  rw [Std.ExtTreeMap.getElem?_insert]
  by_cases hkey : key = packageId
  · subst hkey
    simp
  · have hne : compare key packageId ≠ .eq := by simpa using hkey
    rw [if_neg hne]
    simp [hkey]

lemma Tracks.addEdge (h : Tracks graph edges) (edge : PackageEdge) : Tracks (addEdge graph edge)
      (edges ∪ {other | other = edge ∧ graph.nodes.contains edge.toPackageId = true}) := by
  unfold Workspace.addEdge
  split_ifs with hnode hknown
  · convert h using 1
    ext other
    simp [hnode]
  · -- The edge is there already.
    have hmem : edge ∈ edges := by
      refine ((h.outgoing edge.fromPackageId edge).mp ?_).1
      unfold PackageGraph.outgoingOf
      cases hlist : graph.outgoing[edge.fromPackageId]? with
      | none => simp [hlist] at hknown
      | some list => simpa [hlist] using hknown
    convert h using 1
    ext other
    constructor
    · rintro (hother | ⟨rfl, -⟩)
      · exact hother
      · exact hmem
    · exact Or.inl
  · have hcontains : graph.nodes.contains edge.toPackageId = true := by simpa using hnode
    constructor
    · intro packageId other
      have hold := h.outgoing packageId other
      unfold PackageGraph.outgoingOf at hold ⊢
      rw [mem_getD_insert, hold]
      constructor
      · rintro (⟨hother, hfrom⟩ | ⟨rfl, hfrom⟩)
        · exact ⟨Or.inl hother, hfrom⟩
        · exact ⟨Or.inr ⟨rfl, hcontains⟩, hfrom⟩
      · rintro ⟨hother | ⟨rfl, -⟩, hfrom⟩
        · exact Or.inl ⟨hother, hfrom⟩
        · exact Or.inr ⟨rfl, hfrom⟩
    · intro packageId other
      have hold := h.incoming packageId other
      unfold PackageGraph.incomingOf at hold ⊢
      rw [mem_getD_insert, hold]
      constructor
      · rintro (⟨hother, hto⟩ | ⟨rfl, hto⟩)
        · exact ⟨Or.inl hother, hto⟩
        · exact ⟨Or.inr ⟨rfl, hcontains⟩, hto⟩
      · rintro ⟨hother | ⟨rfl, -⟩, hto⟩
        · exact Or.inl ⟨hother, hto⟩
        · exact Or.inr ⟨rfl, hto⟩

lemma Tracks.addEdges (h : Tracks graph edges) (new : List PackageEdge) :
    (new.foldl Workspace.addEdge graph).nodes = graph.nodes ∧ Tracks (new.foldl Workspace.addEdge graph)
        (edges ∪ {other | other ∈ new ∧ graph.nodes.contains other.toPackageId = true}) := by
  induction new generalizing graph edges with
  | nil => exact ⟨rfl, by simpa using h⟩
  | cons edge new ih =>
    obtain ⟨hnodes, htracks⟩ := ih (h.addEdge edge)
    rw [nodes_addEdge] at hnodes htracks
    refine ⟨hnodes, ?_⟩
    rw [List.foldl_cons]
    convert htracks using 1
    ext other
    simp only [Set.mem_union, Set.mem_ofPred_eq, List.mem_cons]
    constructor
    · rintro (hold | ⟨rfl | hnew, hcontains⟩)
      · exact Or.inl (Or.inl hold)
      · exact Or.inl (Or.inr ⟨rfl, hcontains⟩)
      · exact Or.inr ⟨hnew, hcontains⟩
    · rintro ((hold | ⟨rfl, hcontains⟩) | ⟨hnew, hcontains⟩)
      · exact Or.inl hold
      · exact Or.inr ⟨Or.inl rfl, hcontains⟩
      · exact Or.inr ⟨Or.inr hnew, hcontains⟩

/-- The packages that a node of the metadata depends on. -/
def ResolveNode.dependencyIds (node : ResolveNode) : List String :=
  if node.deps.isEmpty then node.dependencies else node.deps.map NodeDep.pkg

lemma exists_requestedEdge_iff (graph : PackageGraph) (node : ResolveNode) (source target : String) :
    (∃ edge ∈ requestedEdges graph node, edge.fromPackageId = source ∧ edge.toPackageId = target) ↔
      node.id = source ∧ target ∈ node.dependencyIds := by
  unfold requestedEdges ResolveNode.dependencyIds
  split_ifs
  · simp only [List.mem_map, exists_exists_and_eq_and]
    constructor
    · rintro ⟨dependency, hmem, hsource, rfl⟩
      exact ⟨hsource, hmem⟩
    · rintro ⟨hsource, hmem⟩
      exact ⟨target, hmem, hsource, rfl⟩
  · simp only [List.mem_map, exists_exists_and_eq_and]
    constructor
    · rintro ⟨dependency, hmem, hsource, rfl⟩
      exact ⟨hsource, dependency, hmem, rfl⟩
    · rintro ⟨hsource, dependency, hmem, rfl⟩
      exact ⟨dependency, hmem, hsource, rfl⟩

/-- Edges between known packages that the metadata asks for. -/
def requested (graph : PackageGraph) (nodes : List ResolveNode) : Set PackageEdge :=
  {edge | ∃ node ∈ nodes, graph.nodes.contains node.id = true ∧ edge ∈ requestedEdges graph node ∧
    graph.nodes.contains edge.toPackageId = true}

lemma Tracks.addDependencies (h : Tracks graph edges) (nodes : List ResolveNode) :
    (nodes.foldl Workspace.addDependencies graph).nodes = graph.nodes ∧
      Tracks (nodes.foldl Workspace.addDependencies graph) (edges ∪ requested graph nodes) := by
  induction nodes generalizing graph edges with
  | nil => exact ⟨rfl, by simpa [requested] using h⟩
  | cons node nodes ih =>
    -- The edges of later nodes depend on the nodes of the graph only.
    have hsame : ∀ other : PackageGraph, other.nodes = graph.nodes →
        requested other nodes = requested graph nodes := by
      intro other hother
      unfold requested requestedEdges PackageGraph.node
      rw [hother]
    by_cases hnode : graph.nodes.contains node.id = true
    · obtain ⟨hnodes, htracks⟩ := h.addEdges (requestedEdges graph node)
      obtain ⟨hlast, hrest⟩ := ih htracks
      have hstep : Workspace.addDependencies graph node =
          (requestedEdges graph node).foldl Workspace.addEdge graph := if_pos hnode
      rw [List.foldl_cons, hstep]
      refine ⟨hlast.trans hnodes, ?_⟩
      rw [hsame _ hnodes] at hrest
      convert hrest using 1
      ext edge
      simp only [requested, Set.mem_union, Set.mem_ofPred_eq, List.mem_cons, exists_eq_or_imp, hnode,
        true_and, or_assoc]
    · have hstep : Workspace.addDependencies graph node = graph := if_neg hnode
      obtain ⟨hlast, hrest⟩ := ih h
      rw [List.foldl_cons, hstep]
      refine ⟨hlast, ?_⟩
      convert hrest using 1
      ext edge
      simp only [requested, Set.mem_union, Set.mem_ofPred_eq, List.mem_cons, exists_eq_or_imp, hnode,
        Bool.false_eq_true, false_and, false_or]

/-! ## The graph of some metadata -/

/-- A package of the metadata depends on another one. -/
def Depends (metadata : Metadata) (source target : String) : Prop :=
  (∃ package ∈ metadata.packages, package.id = source) ∧ (∃ package ∈ metadata.packages, package.id = target) ∧
      ∃ node ∈ metadata.resolve.getD [], node.id = source ∧ target ∈ node.dependencyIds

lemma contains_nodes_iff (metadata : Metadata) (packages : List MetadataPackage)
    (nodes : Std.ExtTreeMap String PackageNode) (packageId : String) :
    (packages.foldl (fun nodes package => nodes.insert package.id (packageNode metadata package))
        nodes).contains packageId = true ↔
      nodes.contains packageId = true ∨ ∃ package ∈ packages, package.id = packageId := by
  induction packages generalizing nodes with
  | nil => simp
  | cons package packages ih =>
    rw [List.foldl_cons, ih, Std.ExtTreeMap.contains_insert]
    simp only [Bool.or_eq_true, beq_iff_eq, Std.LawfulEqCmp.compare_eq_iff_eq, List.mem_cons, exists_eq_or_imp]
    tauto

lemma mem_sorted (lists : Std.ExtTreeMap String (List PackageEdge)) (place : PackageEdge → String)
    (packageId : String) (edge : PackageEdge) :
    edge ∈ (lists.map fun _ edges => sortEdges place edges)[packageId]?.getD [] ↔
      edge ∈ lists[packageId]?.getD [] := by
  rw [Std.ExtTreeMap.getElem?_map]
  cases lists[packageId]? with
  | none => simp
  | some list => exact (List.perm_insertionSort _ list).mem_iff

lemma nodes_buildPackageGraph (metadata : Metadata) : (buildPackageGraph metadata).nodes = packageNodes metadata :=
  ((tracks_empty (packageNodes metadata)).addDependencies (metadata.resolve.getD [])).1

/-- A built graph has the requested edges between known packages, at both ends. -/
theorem tracks_buildPackageGraph (metadata : Metadata) : Tracks (buildPackageGraph metadata)
      (requested (buildPackageGraph metadata) (metadata.resolve.getD [])) := by
  have htracks :=
    ((tracks_empty (packageNodes metadata)).addDependencies (metadata.resolve.getD [])).2
  have hrequested : requested (buildPackageGraph metadata) (metadata.resolve.getD []) =
      requested ⟨packageNodes metadata, ∅, ∅⟩ (metadata.resolve.getD []) := by
    unfold requested requestedEdges PackageGraph.node
    rw [nodes_buildPackageGraph]
  rw [Set.empty_union] at htracks
  rw [hrequested]
  refine ⟨fun packageId edge => ?_, fun packageId edge => ?_⟩
  · rw [← htracks.outgoing]
    exact mem_sorted _ _ _ _
  · rw [← htracks.incoming]
    exact mem_sorted _ _ _ _

lemma contains_buildPackageGraph (metadata : Metadata) (packageId : String) :
    (buildPackageGraph metadata).nodes.contains packageId = true ↔
      ∃ package ∈ metadata.packages, package.id = packageId := by
  rw [nodes_buildPackageGraph, packageNodes, contains_nodes_iff]
  simp

/-- The edges to a package begin at what depends on it. -/
theorem exists_incoming_iff (metadata : Metadata) (source target : String) :
    source ∈ ((buildPackageGraph metadata).incomingOf target).map PackageEdge.fromPackageId ↔
      Depends metadata source target := by
  simp only [List.mem_map, (tracks_buildPackageGraph metadata).incoming, requested, Set.mem_ofPred_eq,
    contains_buildPackageGraph]
  constructor
  · rintro ⟨edge, ⟨⟨node, hnode, hsource, hedge, htarget⟩, hto⟩, hfrom⟩
    obtain ⟨hid, hdependency⟩ := (exists_requestedEdge_iff _ node source target).mp ⟨edge, hedge, hfrom, hto⟩
    rw [hid] at hsource
    rw [hto] at htarget
    exact ⟨hsource, htarget, node, hnode, hid, hdependency⟩
  · rintro ⟨hsource, htarget, node, hnode, hid, hdependency⟩
    obtain ⟨edge, hedge, hfrom, hto⟩ :=
      (exists_requestedEdge_iff (buildPackageGraph metadata) node source target).mpr ⟨hid, hdependency⟩
    refine ⟨edge, ⟨⟨node, hnode, ?_, hedge, ?_⟩, hto⟩, hfrom⟩
    · rw [hid]
      exact hsource
    · rw [hto]
      exact htarget

lemma reached_iff {next : String → List String}
    (hnext : ∀ source target, source ∈ next target ↔ Depends metadata source target)
    (seeds : List String) (packageId : String) : Worklist.Reached next {seed | seed ∈ seeds} packageId ↔
      ∃ seed ∈ seeds, Relation.ReflTransGen (Depends metadata) packageId seed := by
  have hrel : (fun target source => source ∈ next target) = Function.swap (Depends metadata) := by
    ext target source
    exact hnext source target
  unfold Worklist.Reached
  rw [hrel]
  simp only [Set.mem_ofPred_eq, Relation.reflTransGen_swap]

/-- `reverse_dependents` ends with what dependencies lead from. -/
theorem exists_reverseDependents (metadata : Metadata) (seeds : List String) :
    ∃ result, (buildPackageGraph metadata).reverseDependents seeds = some result ∧ ∀ packageId, packageId ∈ result ↔
        ∃ seed ∈ seeds, Relation.ReflTransGen (Depends metadata) packageId seed := by
  obtain ⟨sources, hsources⟩ : ∃ sources, sources = ((buildPackageGraph metadata).incoming.toList.flatMap
    Prod.snd).map PackageEdge.fromPackageId := ⟨_, rfl⟩
  have hall : ∀ packageId source,
      source ∈ ((buildPackageGraph metadata).incomingOf packageId).map PackageEdge.fromPackageId →
        source ∈ sources := by
    intro packageId source hmem
    obtain ⟨edge, hedge, rfl⟩ := List.mem_map.mp hmem
    rw [hsources]
    refine List.mem_map_of_mem (List.mem_flatMap.mpr ?_)
    unfold PackageGraph.incomingOf at hedge
    cases hlist : (buildPackageGraph metadata).incoming[packageId]? with
    | none => simp [hlist] at hedge
    | some list =>
      rw [hlist] at hedge
      exact ⟨(packageId, list), Std.ExtTreeMap.mem_toList_iff_getElem?_eq_some.mpr hlist, hedge⟩
  have hcard : (seeds.toFinset ∪ sources.toFinset).card ≤ (buildPackageGraph metadata).queueBound seeds := by
    refine (Finset.card_union_le _ _).trans (Nat.add_le_add (List.toFinset_card_le _) ?_)
    refine (List.toFinset_card_le _).trans ?_
    rw [hsources, List.length_map]
  obtain ⟨result, hresult, hmem⟩ := Worklist.exists_closeFrom
    (fun x hx => Finset.mem_union_left _ (List.mem_toFinset.mpr hx))
    (fun x _ y hy => Finset.mem_union_right _ (List.mem_toFinset.mpr (hall x y hy))) hcard
  refine ⟨result, hresult, fun packageId => ?_⟩
  rw [hmem, reached_iff (exists_incoming_iff metadata)]

/-- A set with some packages and whatever depends on its own. -/
def ClosedOver (metadata : Metadata) (seeds : List String) (closed : Set String) : Prop :=
  (∀ seed ∈ seeds, seed ∈ closed) ∧
    ∀ source target, target ∈ closed → Depends metadata source target → source ∈ closed

/-- `reverse_dependents` is the least closed set of packages. -/
theorem isLeast_reverseDependents (metadata : Metadata) (seeds : List String) :
    ∃ result, (buildPackageGraph metadata).reverseDependents seeds = some result ∧
      IsLeast {closed | ClosedOver metadata seeds closed} (↑result : Set String) := by
  obtain ⟨result, hresult, hmem⟩ := exists_reverseDependents metadata seeds
  refine ⟨result, hresult, ⟨fun seed hseed => ?_, fun source target htarget hdepends => ?_⟩,
    fun closed hclosed packageId hpackage => ?_⟩
  · exact (hmem seed).mpr ⟨seed, hseed, .refl⟩
  · obtain ⟨seed, hseed, hchain⟩ := (hmem target).mp htarget
    exact (hmem source).mpr ⟨seed, hseed, .head hdepends hchain⟩
  · obtain ⟨seed, hseed, hchain⟩ := (hmem packageId).mp hpackage
    clear hpackage
    induction hchain using Relation.ReflTransGen.head_induction_on with
    | refl => exact hclosed.1 seed hseed
    | head hdepends _ ih => exact hclosed.2 _ _ ih hdepends

/-- The dependents of two lists of packages together are those of the one and those of the other, and
dependents have no others among theirs. -/
theorem reverse_dependents_of_union (metadata : Metadata) (seeds more : List String) :
    ∃ first second, (buildPackageGraph metadata).reverseDependents seeds = some first ∧
      (buildPackageGraph metadata).reverseDependents more = some second ∧
      (buildPackageGraph metadata).reverseDependents (seeds ++ more) = some (first ∪ second) ∧
      ∀ again : List String, again.toFinset = first →
        (buildPackageGraph metadata).reverseDependents again = some first := by
  obtain ⟨first, hfirst, hmemFirst⟩ := exists_reverseDependents metadata seeds
  obtain ⟨second, hsecond, hmemSecond⟩ := exists_reverseDependents metadata more
  obtain ⟨both, hboth, hmemBoth⟩ := exists_reverseDependents metadata (seeds ++ more)
  have hunion : both = first ∪ second := by
    ext packageId
    simp only [hmemBoth, Finset.mem_union, hmemFirst, hmemSecond, List.mem_append, or_and_right, exists_or]
  refine ⟨first, second, hfirst, hsecond, hunion ▸ hboth, fun again hagain => ?_⟩
  obtain ⟨result, hresult, hmem⟩ := exists_reverseDependents metadata again
  have hsame : result = first := by
    ext packageId
    rw [hmem, hmemFirst]
    constructor
    · rintro ⟨dependent, hdependent, hchain⟩
      obtain ⟨seed, hseed, hrest⟩ := (hmemFirst dependent).mp (hagain ▸ List.mem_toFinset.mpr hdependent)
      exact ⟨seed, hseed, hchain.trans hrest⟩
    · rintro ⟨seed, hseed, hchain⟩
      have hself := (hmemFirst packageId).mpr ⟨seed, hseed, hchain⟩
      exact ⟨packageId, List.mem_toFinset.mp (hagain ▸ hself), .refl⟩
  rw [hresult, hsame]

/-- The packages that depend on one, by a list of edges. -/
def sourcesOf (edges : List (String × String)) (packageId : String) : List String :=
  (edges.filter fun edge => edge.2 = packageId).map Prod.fst

lemma mem_dependentsFrom {edges : List (String × String)} {seeds : Set String} {all : Finset String}
    (hall : ∀ edge ∈ edges, edge.1 ∈ all) {fuel : ℕ} {affected queue : List String}
    (hinv : Worklist.Inv (sourcesOf edges) seeds {x | x ∈ affected} queue) (hnodup : affected.Nodup)
    (hsubset : ∀ x ∈ affected, x ∈ all) (hfuel : queue.length + all.card ≤ fuel + affected.length)
    (packageId : String) : packageId ∈ Gate.dependentsFrom edges fuel affected queue ↔
      Worklist.Reached (sourcesOf edges) seeds packageId := by
  induction fuel generalizing affected queue with
  | zero =>
    have hcard : affected.length ≤ all.card := by
      rw [← List.toFinset_card_of_nodup hnodup]
      exact Finset.card_le_card fun x hx => hsubset x (List.mem_toFinset.mp hx)
    obtain rfl : queue = [] := List.eq_nil_of_length_eq_zero (by omega)
    exact hinv.mem_iff packageId
  | succ fuel ih =>
    cases queue with
    | nil => exact hinv.mem_iff packageId
    | cons first queue =>
      rw [Gate.dependentsFrom]
      obtain ⟨new, hnew⟩ : ∃ new, new = ((edges.filter fun edge => edge.2 = first).map Prod.fst).dedup.filter
        fun dependent => dependent ∉ affected := ⟨_, rfl⟩
      have hmem : ∀ x, x ∈ new ↔ x ∈ sourcesOf edges first ∧ x ∉ affected := by
        intro x
        rw [hnew, List.mem_filter, List.mem_dedup, decide_eq_true_eq]
        rfl
      have hnewNodup : new.Nodup := by
        rw [hnew]
        exact (List.nodup_dedup _).filter _
      rw [← hnew]
      refine ih (hinv.step (fun x => ?_) fun x => ?_) ?_ ?_ ?_
      · simp only [Set.mem_ofPred_eq, List.mem_append, hmem]
        tauto
      · rw [List.mem_append, hmem]
        rfl
      · exact hnodup.append hnewNodup fun x hx hx' => ((hmem x).mp hx').2 hx
      · intro x hx
        rcases List.mem_append.mp hx with hx | hx
        · exact hsubset x hx
        · obtain ⟨edge, hedge, rfl⟩ := List.mem_map.mp ((hmem x).mp hx).1
          exact hall edge (List.mem_of_mem_filter hedge)
      · simp only [List.length_cons, List.length_append] at hfuel ⊢
        omega

lemma mem_gate_reverseDependents (edges : List (String × String)) (seeds : List String) (packageId : String) :
    packageId ∈ Gate.reverseDependents edges seeds ↔
      Worklist.Reached (sourcesOf edges) {seed | seed ∈ seeds} packageId := by
  unfold Gate.reverseDependents
  refine @mem_dependentsFrom edges _ (seeds.toFinset ∪ (edges.map Prod.fst).toFinset) ?_ _ _ _ ?_
    (List.nodup_dedup _) ?_ ?_ packageId
  · exact fun edge hedge => Finset.mem_union_right _ (List.mem_toFinset.mpr (List.mem_map_of_mem hedge))
  · have hseeds : {x | x ∈ seeds.dedup} = {seed | seed ∈ seeds} := by
      ext x
      exact List.mem_dedup
    rw [hseeds]
    exact Worklist.inv_seeds fun x => List.mem_dedup
  · exact fun x hx => Finset.mem_union_left _ (List.mem_toFinset.mpr (List.mem_dedup.mp hx))
  · have hcard := Finset.card_union_le seeds.toFinset (edges.map Prod.fst).toFinset
    have hseeds := List.toFinset_card_le seeds
    have hedges := List.toFinset_card_le (edges.map Prod.fst)
    rw [List.length_map] at hedges
    omega

/-! ## The affected scope -/

variable {canonicalWorktree : FsPath} {manifestPath : String} {isVirtual : Bool}
  {externalPaths : List FsPath} {manifest_absolute : manifestPath.toList.head? = some '/'}

lemma exists_package_of_fold (metadata : Metadata) (packages : List MetadataPackage)
    {nodes : Std.ExtTreeMap String PackageNode} {key : String} {found : PackageNode}
    (h : (packages.foldl (fun nodes package => nodes.insert package.id (packageNode metadata package))
      nodes)[key]? = some found) :
    nodes[key]? = some found ∨ ∃ package ∈ packages, package.id = key ∧ packageNode metadata package = found := by
  induction packages generalizing nodes with
  | nil => exact Or.inl h
  | cons package packages ih =>
    rcases ih h with hfound | ⟨other, hother, hid⟩
    · rw [Std.ExtTreeMap.getElem?_insert] at hfound
      split_ifs at hfound with hkey
      · exact Or.inr ⟨package, List.mem_cons_self, Std.LawfulEqCmp.eq_of_compare hkey, Option.some.inj hfound⟩
      · exact Or.inl hfound
    · exact Or.inr ⟨other, List.mem_cons_of_mem _ hother, hid⟩

lemma exists_package_of_node {packageId : String} {node : PackageNode}
    (h : (buildPackageGraph metadata).node packageId = some node) :
    ∃ package ∈ metadata.packages, package.id = packageId ∧ packageNode metadata package = node := by
  unfold PackageGraph.node at h
  rw [nodes_buildPackageGraph, packageNodes] at h
  rcases exists_package_of_fold metadata metadata.packages h with hempty | hpackage
  · simp at hempty
  · exact hpackage

lemma packageId_of_node {packageId : String} {node : PackageNode}
    (h : (buildPackageGraph metadata).node packageId = some node) : node.packageId = packageId := by
  obtain ⟨package, -, hid, rfl⟩ := exists_package_of_node h
  exact hid

def PackageNode.view (node : PackageNode) : Gate.PackageNode where
  packageId := node.packageId
  name := node.name
  root := node.root
  workspaceMember := node.workspaceMember
  name_valid := node.name_valid

lemma view_mem_snapshotOf {packageId : String} {node : PackageNode}
    (h : (buildPackageGraph metadata).node packageId = some node) :
    node.view ∈ (snapshotOf metadata canonicalWorktree manifestPath isVirtual externalPaths
      manifest_absolute).nodes :=
  List.mem_map.mpr ⟨(packageId, node), Std.ExtTreeMap.mem_toList_iff_getElem?_eq_some.mpr h, rfl⟩

lemma mem_sourcesOf_snapshotOf (source target : String) :
    source ∈ sourcesOf (snapshotOf metadata canonicalWorktree manifestPath isVirtual externalPaths
      manifest_absolute).edges target ↔ Depends metadata source target := by
  rw [← exists_incoming_iff]
  unfold sourcesOf snapshotOf
  simp only [List.mem_map, List.mem_filter, List.mem_flatMap, decide_eq_true_eq, Prod.exists, PackageGraph.incomingOf]
  constructor
  · rintro ⟨source', target', ⟨⟨edge, ⟨key, list, hlist, hedge⟩, hpair⟩, rfl⟩, rfl⟩
    obtain ⟨rfl, rfl⟩ := Prod.mk.inj hpair
    have hfound := Std.ExtTreeMap.mem_toList_iff_getElem?_eq_some.mp hlist
    -- The edges under a key lead to it.
    have hkey : edge.toPackageId = key := by
      refine ((tracks_buildPackageGraph metadata).incoming key edge |>.mp ?_).2
      unfold PackageGraph.incomingOf
      rw [hfound]
      exact hedge
    refine ⟨edge, ?_, rfl⟩
    rw [hkey, hfound]
    exact hedge
  · rintro ⟨edge, hedge, rfl⟩
    have hto : edge.toPackageId = target :=
      ((tracks_buildPackageGraph metadata).incoming target edge |>.mp hedge).2
    cases hlist : (buildPackageGraph metadata).incoming[target]? with
    | none => simp [hlist] at hedge
    | some list =>
      rw [hlist] at hedge
      exact ⟨_, target, ⟨⟨edge, ⟨target, list, Std.ExtTreeMap.mem_toList_iff_getElem?_eq_some.mpr hlist,
        hedge⟩, by rw [hto]⟩, rfl⟩, rfl⟩

lemma mem_affectedByPaths {paths : List FsPath} {packageId ownerId : String} {owner : PackageNode}
    (howner : (buildPackageGraph metadata).node ownerId = some owner) (hpath : ∃ path ∈ paths, owner.root <+: path)
    (hchain : Relation.ReflTransGen (Depends metadata) packageId ownerId) :
    packageId ∈ Gate.affectedByPaths (snapshotOf metadata canonicalWorktree manifestPath isVirtual
      externalPaths manifest_absolute) paths := by
  unfold Gate.affectedByPaths
  rw [mem_gate_reverseDependents, reached_iff mem_sourcesOf_snapshotOf]
  refine ⟨ownerId, ?_, hchain⟩
  obtain ⟨path, hmem, hprefix⟩ := hpath
  refine List.mem_map.mpr ⟨owner.view, List.mem_filter.mpr ⟨view_mem_snapshotOf howner, ?_⟩, packageId_of_node howner⟩
  exact List.any_eq_true.mpr ⟨path, hmem, List.isPrefixOf_iff_prefix.mpr hprefix⟩

lemma packageIds_of_affected {snapshot : Gate.WorkspaceSnapshot} {target : Gate.GateTargetId}
    {configured : Gate.ConfigGateScope} {changedPaths : List FsPath}
    (h : (Gate.checkScope snapshot target configured changedPaths).evidence.strategy = .affected) :
    (Gate.checkScope snapshot target configured changedPaths).evidence.packageIds =
      (snapshot.nodes.filter fun node => node.workspaceMember &&
        (Gate.affectedByPaths snapshot (changedPaths.map fun path =>
          snapshot.canonicalWorktree ++ path)).any (· = node.packageId)).map Gate.PackageNode.packageId := by
  have hpackages : ∀ packages packageIds, Gate.affectedPackages snapshot changedPaths = .ok (packages, packageIds) →
        packageIds = (snapshot.nodes.filter fun node => node.workspaceMember &&
          (Gate.affectedByPaths snapshot (changedPaths.map fun path =>
            snapshot.canonicalWorktree ++ path)).any (· = node.packageId)).map
              Gate.PackageNode.packageId := by
    intro packages packageIds hok
    unfold Gate.affectedPackages at hok
    split_ifs at hok
    dsimp only at hok
    split_ifs at hok
    rw [Except.ok.injEq, Prod.mk.injEq] at hok
    rw [← hok.2, List.map_map]
    rfl
  unfold Gate.checkScope at h ⊢
  split_ifs at h ⊢
  · simp [Gate.GateScope.ofWorkspace] at h
  · cases configured with
    | workspace => simp [Gate.GateScope.ofWorkspace] at h
    | shadow =>
      dsimp only at h
      split at h <;> simp at h
    | affected =>
      dsimp only at h ⊢
      cases haffected : Gate.affectedPackages snapshot changedPaths with
      | error reason => simp [haffected, Gate.GateScope.ofWorkspace] at h
      | ok found => exact hpackages found.1 found.2 haffected

/-- An affected scope has every member that contains a changed path or leads to such a member, and
`reverse_dependents` is the least set that is closed under being depended on. -/
theorem affected_scope (metadata : Metadata) (canonicalWorktree : FsPath) (manifestPath : String)
    (isVirtual : Bool) (externalPaths : List FsPath)
    (manifest_absolute : manifestPath.toList.head? = some '/') (target : Gate.GateTargetId)
    (configured : Gate.ConfigGateScope) (changedPaths : List FsPath) :
    (∀ seeds, ∃ result, (buildPackageGraph metadata).reverseDependents seeds = some result ∧
      IsLeast {closed | ClosedOver metadata seeds closed} (↑result : Set String)) ∧
    ((Gate.checkScope (snapshotOf metadata canonicalWorktree manifestPath isVirtual externalPaths
        manifest_absolute) target configured changedPaths).evidence.strategy = .affected →
      ∀ packageId node, (buildPackageGraph metadata).node packageId = some node → node.workspaceMember = true →
        (∃ ownerId owner, (buildPackageGraph metadata).node ownerId = some owner ∧
          (∃ path ∈ changedPaths, owner.root <+: canonicalWorktree ++ path) ∧
          Relation.ReflTransGen (Depends metadata) packageId ownerId) →
        packageId ∈ (Gate.checkScope (snapshotOf metadata canonicalWorktree manifestPath isVirtual
          externalPaths manifest_absolute) target configured changedPaths).evidence.packageIds) := by
  refine ⟨isLeast_reverseDependents metadata, fun hstrategy packageId node hnode hmember howned => ?_⟩
  obtain ⟨ownerId, owner, howner, ⟨path, hpath, hprefix⟩, hchain⟩ := howned
  rw [packageIds_of_affected hstrategy]
  have hid := packageId_of_node hnode
  refine List.mem_map.mpr ⟨node.view, List.mem_filter.mpr ⟨view_mem_snapshotOf hnode, ?_⟩, hid⟩
  rw [Bool.and_eq_true]
  refine ⟨hmember, List.any_eq_true.mpr ⟨packageId, ?_, decide_eq_true hid.symm⟩⟩
  exact mem_affectedByPaths howner
    ⟨canonicalWorktree ++ path, List.mem_map_of_mem hpath, hprefix⟩ hchain

/-! ## A dependent package -/

/-- A package below `/ws`. -/
def packageAt (name : String) (hname : name.toList.head? ≠ some '-') : MetadataPackage where
  id := name ++ " 0.1.0"
  name := name
  version := "0.1.0"
  manifestPath := ["ws", name, "Cargo.toml"]
  source := none
  targets := []
  name_valid := hname

lemma a_valid : "a".toList.head? ≠ some '-' := by decide

lemma b_valid : "b".toList.head? ≠ some '-' := by decide

/-- A workspace whose member `b` depends on `a`. -/
def dependentMembers : Metadata where
  packages := [packageAt "a" a_valid, packageAt "b" b_valid]
  workspaceMembers := ["a 0.1.0", "b 0.1.0"]
  resolve := some [⟨"a 0.1.0", [], [], []⟩, ⟨"b 0.1.0", [], ["a 0.1.0"], []⟩]

/-- The affected scope of an edit of `a` has `b`. -/
theorem affected_scope_dependent : "b 0.1.0" ∈ (Gate.checkScope (snapshotOf dependentMembers ["ws"]
    "/ws/Cargo.toml" true [] (by decide)) .check .affected [["a", "src", "lib.rs"]]).evidence.packageIds := by
  refine (affected_scope dependentMembers ["ws"] "/ws/Cargo.toml" true [] (by decide) .check .affected
    [["a", "src", "lib.rs"]]).2 (by decide +kernel) "b 0.1.0"
      (packageNode dependentMembers (packageAt "b" (by decide))) ?_ (by decide) ?_
  · decide +kernel
  · refine ⟨"a 0.1.0", packageNode dependentMembers (packageAt "a" (by decide)), ?_, ?_, ?_⟩
    · decide +kernel
    · exact ⟨_, List.mem_cons_self, by decide⟩
    · exact .single ⟨⟨packageAt "b" (by decide), by decide, by decide⟩,
        ⟨packageAt "a" (by decide), by decide, by decide⟩,
        ⟨"b 0.1.0", [], ["a 0.1.0"], []⟩, by decide, rfl, by decide⟩

end AgzRustMcp.Workspace
