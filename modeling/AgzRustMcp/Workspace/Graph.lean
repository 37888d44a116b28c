import AgzRustMcp.Foundation.Worklist
import AgzRustMcp.Gate.Scope

/-!
# The package graph

`build_package_graph` keeps every edge twice, by the package that depends and by the one it depends
on (`tracks_buildPackageGraph`).  `reverse_dependents` follows the second kind with a worklist.
-/

namespace AgzRustMcp.Workspace

open Gate (FsPath CargoTarget)

inductive DependencyKind
  | normal
  | development
  | build
  | unknown
  deriving Repr, DecidableEq

/-- A package of the metadata, as far as the graph and the gate read it. -/
@[ext] structure MetadataPackage where
  id : String
  name : String
  version : String
  manifestPath : FsPath
  source : Option String
  targets : List CargoTarget
  name_valid : name.toList.head? ≠ some '-' := by decide +kernel

instance : DecidableEq MetadataPackage := fun _ _ => decidable_of_iff _ MetadataPackage.ext_iff.symm

structure NodeDep where
  name : String
  pkg : String
  depKinds : List DependencyKind
  deriving DecidableEq

structure ResolveNode where
  id : String
  features : List String
  dependencies : List String
  deps : List NodeDep
  deriving DecidableEq

structure Metadata where
  packages : List MetadataPackage
  workspaceMembers : List String
  resolve : Option (List ResolveNode)
  deriving DecidableEq

/-! ## The graph -/

@[ext] structure PackageNode where
  packageId : String
  name : String
  version : String
  manifestPath : FsPath
  root : FsPath
  workspaceMember : Bool
  externalPath : Bool
  enabledFeatures : List String
  name_valid : name.toList.head? ≠ some '-' := by decide +kernel

instance : DecidableEq PackageNode := fun _ _ => decidable_of_iff _ PackageNode.ext_iff.symm

structure PackageEdge where
  fromPackageId : String
  toPackageId : String
  dependencyName : String
  kinds : List DependencyKind
  deriving DecidableEq

structure PackageGraph where
  nodes : Std.ExtTreeMap String PackageNode
  outgoing : Std.ExtTreeMap String (List PackageEdge)
  incoming : Std.ExtTreeMap String (List PackageEdge)

namespace PackageGraph

def node (graph : PackageGraph) (packageId : String) : Option PackageNode := graph.nodes[packageId]?

def outgoingOf (graph : PackageGraph) (packageId : String) : List PackageEdge :=
  graph.outgoing[packageId]?.getD []

def incomingOf (graph : PackageGraph) (packageId : String) : List PackageEdge :=
  graph.incoming[packageId]?.getD []

/-- A queue never holds more than the seeds and the edges. -/
def queueBound (graph : PackageGraph) (seeds : List String) : ℕ :=
  seeds.length + (graph.incoming.toList.flatMap Prod.snd).length

/-- `reverse_dependents`; the answer says that the loop has ended. -/
def reverseDependents (graph : PackageGraph) (seeds : List String) : Option (Finset String) :=
  Worklist.closeFrom (fun packageId => (graph.incomingOf packageId).map PackageEdge.fromPackageId)
    (graph.queueBound seeds) seeds

end PackageGraph

/-! ## Building it -/

def dependencyKindRank : DependencyKind → ℕ
  | .normal => 0
  | .development => 1
  | .build => 2
  | .unknown => 3

def sortedDependencyKinds (kinds : List DependencyKind) : List DependencyKind :=
  (kinds.insertionSort fun left right => dependencyKindRank left ≤ dependencyKindRank right).eraseReps

def compareDependencyKinds (left right : List DependencyKind) : Ordering :=
  compare (left.map dependencyKindRank) (right.map dependencyKindRank)

def addEdge (graph : PackageGraph) (edge : PackageEdge) : PackageGraph :=
  if graph.nodes.contains edge.toPackageId = false then graph
  else if graph.outgoing[edge.fromPackageId]?.any (·.contains edge) then graph
  else
    { graph with
      outgoing := graph.outgoing.insert edge.fromPackageId (graph.outgoingOf edge.fromPackageId ++ [edge])
      incoming := graph.incoming.insert edge.toPackageId (graph.incomingOf edge.toPackageId ++ [edge]) }

def packageNode (metadata : Metadata) (package : MetadataPackage) : PackageNode :=
  let workspaceMember := metadata.workspaceMembers.contains package.id
  { packageId := package.id
    name := package.name
    version := package.version
    manifestPath := package.manifestPath
    root := package.manifestPath.dropLast
    workspaceMember
    externalPath := package.source.isNone && !workspaceMember
    enabledFeatures :=
      (((metadata.resolve.getD []).find? fun node => node.id == package.id).map ResolveNode.features).getD []
    name_valid := package.name_valid }

def packageNodes (metadata : Metadata) : Std.ExtTreeMap String PackageNode :=
  metadata.packages.foldl (fun nodes package => nodes.insert package.id (packageNode metadata package)) ∅

/-- The edges that a node of the resolved metadata asks for. -/
def requestedEdges (graph : PackageGraph) (node : ResolveNode) : List PackageEdge :=
  if node.deps.isEmpty then
    node.dependencies.map fun dependency =>
      { fromPackageId := node.id
        toPackageId := dependency
        dependencyName := ((graph.node dependency).map PackageNode.name).getD ""
        kinds := [.normal] }
  else
    node.deps.map fun dependency =>
      { fromPackageId := node.id
        toPackageId := dependency.pkg
        dependencyName := dependency.name
        kinds := sortedDependencyKinds dependency.depKinds }

def addDependencies (graph : PackageGraph) (node : ResolveNode) : PackageGraph :=
  if graph.nodes.contains node.id then (requestedEdges graph node).foldl addEdge graph else graph

/-- The order of edges, by one of their ends. -/
def edgeLe (place : PackageEdge → String) (left right : PackageEdge) : Bool :=
  ((compare (place left) (place right)).then
    ((compare left.dependencyName right.dependencyName).then
      (compareDependencyKinds left.kinds right.kinds))).isLE

def sortEdges (place : PackageEdge → String) (edges : List PackageEdge) : List PackageEdge :=
  edges.insertionSort fun left right => edgeLe place left right = true

def buildPackageGraph (metadata : Metadata) : PackageGraph :=
  let graph := (metadata.resolve.getD []).foldl addDependencies ⟨packageNodes metadata, ∅, ∅⟩
  { nodes := graph.nodes
    outgoing := graph.outgoing.map fun _ edges => sortEdges PackageEdge.toPackageId edges
    incoming := graph.incoming.map fun _ edges => sortEdges PackageEdge.fromPackageId edges }

/-- What the gate reads of the metadata and the graph. -/
def snapshotOf (metadata : Metadata) (canonicalWorktree : FsPath) (manifestPath : String) (isVirtual : Bool)
    (externalPaths : List FsPath) (manifest_absolute : manifestPath.toList.head? = some '/') :
    Gate.WorkspaceSnapshot :=
  let graph := buildPackageGraph metadata
  { canonicalWorktree, manifestPath, isVirtual, externalPaths, manifest_absolute
    packages := metadata.packages.map fun package => ⟨package.id, package.name, package.targets⟩
    workspaceMembers := metadata.workspaceMembers
    nodes := graph.nodes.toList.map fun (_, node) =>
      { packageId := node.packageId
        name := node.name
        root := node.root
        workspaceMember := node.workspaceMember
        name_valid := node.name_valid }
    edges := (graph.incoming.toList.flatMap Prod.snd).map fun edge =>
      (edge.fromPackageId, edge.toPackageId) }

end AgzRustMcp.Workspace
