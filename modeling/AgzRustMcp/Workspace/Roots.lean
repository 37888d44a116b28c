import AgzRustMcp.Foundation.Distinct
import AgzRustMcp.Workspace.Paths

/-!
# Authorized roots

A server is started with configured roots, and what a client may read is a snapshot: these roots cut
down to the client's.  The guard gives its last snapshot again while the client names the same
roots.  A directory that the code has opened is the path it was opened under.
-/

namespace AgzRustMcp.Workspace

open Distinct (insertNew)
open Utf8Text

inductive EntryKind
  | directory
  | file
  | symlink
  | other
  deriving Repr, DecidableEq

/-- What is learnt from the file system, in normalized form. -/
structure Disk where
  currentDir : Except RootError Text
  canonicalize : Text → Except RootError Text
  symlinkMetadata : Text → Except RootError EntryKind
  metadata : Text → Except RootError EntryKind
  openDir : Text → Except RootError Unit
  normalizedAbsolute_of_canonicalize :
    ∀ path canonical, canonicalize path = .ok canonical → NormalizedAbsolute canonical

/-! ## Paths -/

/-- `Path::strip_prefix`: the components of a path behind those of another. -/
def stripComponents (path base : Text) : Option (List Component) :=
  if (components base).isPrefixOf (components path) then
    some ((components path).drop (components base).length)
  else none

def pathIsWithin (root candidate : Text) : Bool :=
  match normalizePath root with
  | .error _ => false
  | .ok root =>
    match normalizePath candidate with
    | .error _ => false
    | .ok candidate =>
      components candidate == components root ||
        (stripComponents candidate root).any (fun relative => relative.head? != some .rootDir)

/-- `normalize_relative` of `workspace/roots.rs`: the plain names of a path. -/
def normalizeRelativeParts (parts : List Component) : Text :=
  parts.foldl (fun normalized part =>
    match part with
    | .normal name => pushPath normalized name.toList
    | _ => normalized) []

def absolutePath (disk : Disk) (path : Text) : Except RootError Text :=
  if isAbsolute path then normalizePath path
  else do
    let current ← disk.currentDir
    normalizePath (pushPath current path)

/-- The loop of `check_no_symlink_components`. -/
def checkComponents (disk : Disk) (current : Text) : List Component → Except RootError Unit
  | [] => .ok ()
  | .curDir :: rest => checkComponents disk current rest
  | .parentDir :: _ => .error .parentComponent
  | .rootDir :: rest => checkComponents disk (pushPath current ['/']) rest
  | .normal name :: rest => do
    let current := pushPath current name.toList
    let kind ← disk.symlinkMetadata current
    if kind = .symlink then .error (.symlink current) else checkComponents disk current rest

def checkNoSymlinkComponents (disk : Disk) (path : Text) : Except RootError Unit := do
  let absolute ← absolutePath disk path
  checkComponents disk [] (components absolute)

def canonicalDirectory (disk : Disk) (path : Text) : Except RootError Text := do
  let absolute ← absolutePath disk path
  let canonical ← disk.canonicalize absolute
  checkNoSymlinkComponents disk canonical
  let kind ← disk.metadata canonical
  if kind = .directory then .ok canonical else .error (.notDirectory canonical)

/-! ## Roots -/

inductive RootKind
  | workspace
  | dependency
  deriving Repr, DecidableEq

structure AuthorizedRoot where
  canonical : Text
  kind : RootKind
  deriving DecidableEq

namespace AuthorizedRoot

variable (disk : Disk) (root : AuthorizedRoot)

/-- `AuthorizedRoot::open`. -/
def openRoot (path : Text) (kind : RootKind) : Except RootError AuthorizedRoot := do
  let canonical ← canonicalDirectory disk path
  disk.openDir canonical
  .ok ⟨canonical, kind⟩

def relativeInput (path : Text) : Except RootError Text := do
  let normalized ← normalizePath path
  if isAbsolute path then
    match stripComponents normalized root.canonical with
    | none => .error (.pathOutsideRoot normalized)
    | some relative => .ok (normalizeRelativeParts relative)
  else .ok normalized

def relativePath (path : Text) : Except RootError Text := do
  let relative ← root.relativeInput path
  let absolute := pushPath root.canonical relative
  checkNoSymlinkComponents disk absolute
  let canonical ← disk.canonicalize absolute
  if pathIsWithin root.canonical canonical then
    match stripComponents canonical root.canonical with
    | none => .error (.pathOutsideRoot canonical)
    | some relative => .ok (normalizeRelativeParts relative)
  else .error (.pathOutsideRoot canonical)

/-- The loop of `open_dir_relative`: one directory after the other is opened. -/
def openComponents (relative directory : Text) : List Component → Except RootError Unit
  | [] => .ok ()
  | .normal name :: rest => do
    let kind ← disk.symlinkMetadata (pushPath directory name.toList)
    if kind = .symlink then .error (.symlink (pushPath root.canonical relative))
    else if kind ≠ .directory then .error (.notDirectory (pushPath root.canonical relative))
    else do
      disk.openDir (pushPath directory name.toList)
      openComponents relative (pushPath directory name.toList) rest
  | _ => .error (.invalidPath relative)

def openDirRelative (relative : Text) : Except RootError AuthorizedRoot := do
  let relative := normalizeRelativeParts (components relative)
  root.openComponents disk relative root.canonical (components relative)
  .ok ⟨pushPath root.canonical relative, root.kind⟩

def authorizeDir (path : Text) : Except RootError AuthorizedRoot := do
  let relative ← root.relativePath disk path
  root.openDirRelative disk relative

end AuthorizedRoot

/-- What paths are compared by when they are sorted. -/
def Component.sortKey : Component → List ℕ
  | .rootDir => [1]
  | .curDir => [2]
  | .parentDir => [3]
  | .normal name => 4 :: name.toList.map Char.toNat

def pathLe (left right : Text) : Bool :=
  decide ((components left).map Component.sortKey ≤ (components right).map Component.sortKey)

/-- What roots are told apart by. -/
def AuthorizedRoot.key (root : AuthorizedRoot) : List Component := components root.canonical

def sortRoots (roots : List AuthorizedRoot) : List AuthorizedRoot :=
  roots.insertionSort fun left right => pathLe left.canonical right.canonical = true

def openRoots (disk : Disk) (paths : List Text) (kind : RootKind) : Except RootError (List AuthorizedRoot) := do
  let roots ← paths.foldlM (fun roots path => do
    let root ← AuthorizedRoot.openRoot disk path kind
    .ok (insertNew AuthorizedRoot.key roots root)) []
  .ok (sortRoots roots)

/-! ## The guard -/

inductive ClientRoots
  | unsupported
  | available (paths : List Text)
  | failed
  deriving DecidableEq

inductive NormalizedClientRoots
  | unsupported
  | available (paths : List Text)
  | failed
  deriving DecidableEq

/-- Two lists of roots are equal when their paths are. -/
def NormalizedClientRoots.same : NormalizedClientRoots → NormalizedClientRoots → Bool
  | .unsupported, .unsupported | .failed, .failed => true
  | .available left, .available right => left.map components == right.map components
  | _, _ => false

def normalizeClientRoots (disk : Disk) : ClientRoots → Except RootError NormalizedClientRoots
  | .unsupported => .ok .unsupported
  | .failed => .ok .failed
  | .available [] => .error .clientRootsEmpty
  | .available paths => do
    let normalized ← paths.foldlM (fun normalized path => do
      let canonical ← canonicalDirectory disk path
      .ok (insertNew components normalized canonical)) []
    if normalized = [] then .error .clientRootsEmpty
    else .ok (.available (normalized.insertionSort fun left right => pathLe left right = true))

structure RootSnapshot where
  epoch : ℕ
  roots : List AuthorizedRoot
  deriving DecidableEq

structure ClientEpoch where
  epoch : ℕ
  state : Option NormalizedClientRoots
  snapshot : Option RootSnapshot
  deriving DecidableEq

/-- `u64::saturating_add(1)`. -/
def nextEpoch (epoch : ℕ) : ℕ := min (epoch + 1) (2 ^ 64 - 1)

/-- The snapshot that is kept for these client roots. -/
def ClientEpoch.cached (client : ClientEpoch) (normalized : NormalizedClientRoots) : Option RootSnapshot :=
  if client.state.any (fun state => state.same normalized) then client.snapshot else none

structure RootGuard where
  configured : List AuthorizedRoot
  dependencies : List AuthorizedRoot
  deriving DecidableEq

namespace RootGuard

/-- `RootGuard::new`, and what it knows of the client. -/
def new (disk : Disk) (configured dependencies : List Text) : Except RootError RootGuard := do
  let configured ← openRoots disk configured .workspace
  if configured = [] then .error .emptyConfiguredRoots
  else
    let dependencies ← openRoots disk dependencies .dependency
    .ok ⟨configured, dependencies⟩

/-- The client's state of a new guard. -/
def newClient : ClientEpoch := ⟨0, none, none⟩

variable (disk : Disk) (guard : RootGuard)

/-- The root that a client root and a configured root have in common. -/
def commonRoot (client : Text) (configured : AuthorizedRoot) : Except RootError (Option AuthorizedRoot) :=
  if pathIsWithin configured.canonical client then (configured.authorizeDir disk client).map some
  else if pathIsWithin client configured.canonical then .ok (some configured)
  else .ok none

def intersectClientRoots (clients : List Text) : Except RootError (List AuthorizedRoot) := do
  let roots ← clients.foldlM (fun roots client => do
    let client ← canonicalDirectory disk client
    guard.configured.foldlM (fun roots configured => do
      let candidate ← commonRoot disk client configured
      .ok (candidate.elim roots (insertNew AuthorizedRoot.key roots))) roots) []
  .ok (sortRoots roots)

/-- The roots of a snapshot for client roots that could be read. -/
def rootsFor : NormalizedClientRoots → Except RootError (List AuthorizedRoot)
  | .unsupported => .ok guard.configured
  | .available clients => guard.intersectClientRoots disk clients
  | .failed => .error .clientRootsUnavailable

/-- The end of `snapshot`, under the write lock. -/
def storeSnapshot (client : ClientEpoch) (normalized : NormalizedClientRoots)
    (roots : List AuthorizedRoot) : RootSnapshot × ClientEpoch :=
  match client.cached normalized with
  | some snapshot => (snapshot, client)
  | none =>
    let snapshot := ⟨nextEpoch client.epoch, roots⟩
    (snapshot, ⟨nextEpoch client.epoch, some normalized, some snapshot⟩)

/-- `snapshot`, with the client's state under its two locks. -/
def snapshot (read write : ClientEpoch) (clientRoots : ClientRoots) : Except RootError RootSnapshot × ClientEpoch :=
  match normalizeClientRoots disk clientRoots with
  | .error error => (.error error, write)
  | .ok .failed => (.error .clientRootsUnavailable, ⟨nextEpoch write.epoch, some .failed, none⟩)
  | .ok normalized =>
    match read.cached normalized with
    | some snapshot => (.ok snapshot, write)
    | none =>
      match guard.rootsFor disk normalized with
      | .error error => (.error error, write)
      | .ok [] => (.error .noRootIntersection, write)
      | .ok roots =>
        let (snapshot, next) := storeSnapshot write normalized roots
        (.ok snapshot, next)

def invalidateClientRoots (client : ClientEpoch) : ClientEpoch := ⟨nextEpoch client.epoch, none, none⟩

/-- The states of the client between calls of `snapshot` and `invalidate_client_roots`. -/
inductive Reachable : ClientEpoch → Prop
  | new : Reachable newClient
  | snapshot {read write : ClientEpoch} (hread : Reachable read) (hwrite : Reachable write)
      (clientRoots : ClientRoots) : Reachable (guard.snapshot disk read write clientRoots).2
  | invalidate {client : ClientEpoch} (h : Reachable client) : Reachable (invalidateClientRoots client)

end RootGuard

end AgzRustMcp.Workspace
