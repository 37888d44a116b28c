import AgzRustMcp.Cache.EntryTree

/-!
# Retention of cache entries

`prune_at` of `cache/retention.rs` removes the entries that are too old, and then the least recently
used ones until the budgets hold.  An entry is a directory with a complete marker, and the root is
listed again for every pass.
-/

namespace AgzRustMcp.Cache

open Std (ExtTreeMap)

/-! ## The root -/

/-- A direct child of the root, with the time of its last modification. -/
structure Child where
  name : String
  node : Node
  modified : Option ℕ

def completeMarker : String := ".complete.json"

def isReservedName (name : String) : Bool :=
  name == completeMarker || ".lock".toList.isSuffixOf name.toList || decide (".tmp.".toList <:+: name.toList)

def Node.children : Node → List (String × Node)
  | .directory children _ _ => children
  | _ => []

def Node.isFile : Node → Bool
  | .file _ _ => true
  | _ => false

def Node.isDirectory : Node → Bool
  | .directory _ _ _ => true
  | _ => false

def hasCompleteMarker (node : Node) : Bool :=
  node.children.any fun child => child.1 == completeMarker && child.2.isFile

/-- What is left of a child; a directory that has lost one is modified. -/
def Child.left (clock : ℕ) (child : Child) : Option Child :=
  (removeEntry child.node).map fun node =>
    { child with
      node := node
      modified :=
        if node.children.length = child.node.children.length then child.modified
        else child.modified.map fun _ => clock }

/-- The root as a list of its children, with the time that changes take. -/
structure CacheRoot where
  children : List Child
  distinct : (children.map (·.name)).Nodup
  clock : ℕ

def CacheRoot.names (root : CacheRoot) : List String := root.children.map (·.name)

/-- The children that an attempt to remove the one of a name leaves. -/
def leftOf (clock : ℕ) (name : String) (children : List Child) : List Child :=
  children.filterMap fun child => if child.name = name then child.left clock else some child

lemma name_of_left {clock : ℕ} {child left : Child} (h : child.left clock = some left) : left.name = child.name := by
  obtain ⟨node, -, rfl⟩ := Option.map_eq_some_iff.mp h
  rfl

lemma names_leftOf_sublist (clock : ℕ) (name : String) (children : List Child) :
    ((leftOf clock name children).map (·.name)).Sublist (children.map (·.name)) := by
  unfold leftOf
  induction children with
  | nil => exact List.Sublist.refl _
  | cons child children ih =>
    rw [List.filterMap_cons]
    split
    · exact ih.cons _
    next left hleft =>
      have hname : left.name = child.name := by
        split_ifs at hleft with hsame
        · exact name_of_left hleft
        · exact (Option.some.inj hleft) ▸ rfl
      rw [List.map_cons, List.map_cons, hname]
      exact ih.cons_cons _

/-- `remove_entry` of the child of a name. -/
def CacheRoot.remove (root : CacheRoot) (name : String) : CacheRoot where
  children := leftOf root.clock name root.children
  distinct := root.distinct.sublist (names_leftOf_sublist root.clock name root.children)
  clock := root.clock

/-- The child of a name is removed as a whole. -/
def CacheRoot.removable (root : CacheRoot) (name : String) : Bool :=
  root.children.any fun child => child.name == name && (removeEntry child.node).isNone

/-! ## Entries -/

structure RetentionLimits where
  maxAge : ℕ
  maxBytes : ℕ
  maxEntries : ℕ
  maxNodes : ℕ
  deriving Repr, DecidableEq

structure CacheEntry where
  name : String
  stats : TreeStats
  lastUsed : ℕ
  deriving Repr, DecidableEq

/-- `OwnedCacheRetention`, with its root and whether that is safe and can be listed. -/
structure OwnedCacheRetention where
  root : CacheRoot
  safeRoot : Bool
  listable : Bool
  limits : RetentionLimits
  active : ExtTreeMap String ℕ
  touched : ExtTreeMap String ℕ

def Child.entry (touched : ExtTreeMap String ℕ) (child : Child) : Option CacheEntry :=
  if isReservedName child.name || !child.node.isDirectory || !hasCompleteMarker child.node then none
  else child.modified.map fun modified =>
    { name := child.name
      stats := inspectTree child.node
      lastUsed := match touched[child.name]? with
        | some touch => max touch modified
        | none => modified }

namespace OwnedCacheRetention

def entries (retention : OwnedCacheRetention) : List CacheEntry :=
  if retention.safeRoot && retention.listable then
    retention.root.children.filterMap (Child.entry retention.touched)
  else []

/-- `is_active_locked`. -/
def isActive (retention : OwnedCacheRetention) (name : String) : Bool :=
  (retention.active[name]?).any (0 < ·)

/-- An entry is removed, and its touch with it when that succeeds. -/
def remove (retention : OwnedCacheRetention) (name : String) : OwnedCacheRetention :=
  { retention with
    root := retention.root.remove name
    touched :=
      if retention.root.removable name then retention.touched.erase name else retention.touched }

def totalBytes (entries : List CacheEntry) : ℕ :=
  entries.foldl (fun total entry => saturatingAdd total entry.stats.bytes) 0

def totalNodes (entries : List CacheEntry) : ℕ :=
  entries.foldl (fun total entry => saturatingAdd total entry.stats.nodes) 0

end OwnedCacheRetention

open OwnedCacheRetention

/-- A pass: the retention, and how many entries it has removed. -/
structure Pass where
  retention : OwnedCacheRetention
  removed : ℕ

/-- The entry is removed. -/
def Pass.remove (pass : Pass) (name : String) : Pass where
  retention := pass.retention.remove name
  removed := if pass.retention.root.removable name then pass.removed + 1 else pass.removed

/-- The second pass, with what it takes the totals to be. -/
structure BudgetPass extends Pass where
  count : ℕ
  bytes : ℕ
  nodes : ℕ

def BudgetPass.overBudget (pass : BudgetPass) : Bool :=
  decide (pass.retention.limits.maxEntries < pass.count) || decide (pass.retention.limits.maxBytes < pass.bytes) ||
    decide (pass.retention.limits.maxNodes < pass.nodes)

/-- The entry is removed, and the totals are less by what it had when that succeeds. -/
def BudgetPass.evict (pass : BudgetPass) (entry : CacheEntry) : BudgetPass :=
  if pass.retention.root.removable entry.name then
    { toPass := pass.toPass.remove entry.name
      count := pass.count - 1
      bytes := pass.bytes - entry.stats.bytes
      nodes := pass.nodes - entry.stats.nodes }
  else { pass with toPass := pass.toPass.remove entry.name }

/-- The entry is removed if a budget does not hold and it is not leased. -/
def BudgetPass.turn (pass : BudgetPass) (entry : CacheEntry) : BudgetPass :=
  if !pass.overBudget || pass.retention.isActive entry.name then pass else pass.evict entry

/-- The most recently used entries first, then the smaller names. -/
def newer (left right : CacheEntry) : Prop :=
  right.lastUsed < left.lastUsed ∨ (right.lastUsed = left.lastUsed ∧ left.name ≤ right.name)

instance : DecidableRel newer := fun left right =>
  inferInstanceAs (Decidable (right.lastUsed < left.lastUsed ∨
    (right.lastUsed = left.lastUsed ∧ left.name ≤ right.name)))

/-- The entries from the least recently used one on. -/
def evictionOrder (entries : List CacheEntry) : List CacheEntry := (entries.insertionSort newer).reverse

/-- What the second pass begins with. -/
def budgetStart (pass : Pass) : BudgetPass where
  toPass := pass
  count := pass.retention.entries.length
  bytes := totalBytes pass.retention.entries
  nodes := totalNodes pass.retention.entries

end AgzRustMcp.Cache
