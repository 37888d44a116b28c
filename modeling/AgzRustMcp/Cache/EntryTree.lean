import AgzRustMcp.Change.Model

/-!
# The tree of a cache entry

Before a cache entry is removed, `inspectTree` walks its tree with a stack, and keeps it when
something in it may not belong to the cache.  `removeNode` stops at the first thing that it cannot
remove; what it has removed by then is gone (`Left`).
-/

namespace AgzRustMcp.Cache

def maxScanNodes : ℕ := 100000

/-- A node, with the answers to its listing and removal; `other`: nothing can be learnt. -/
inductive Node
  | file (bytes : ℕ) (removable : Bool)
  | directory (children : List (String × Node)) (listable removable : Bool)
  | symlink
  | other

structure TreeStats where
  bytes : ℕ
  nodes : ℕ
  containsSymlink : Bool
  safeToRemove : Bool
  deriving Repr, DecidableEq

mutual

/-- The number of nodes of a tree, of whatever kind. -/
def Node.size : Node → ℕ
  | .directory children _ _ => childrenSize children + 1
  | _ => 1

def childrenSize : List (String × Node) → ℕ
  | [] => 0
  | child :: children => child.2.size + childrenSize children

end

/-- The walk over a tree, with the stack.  Every turn takes one node off it. -/
def inspectLoop : ℕ → List Node → TreeStats → TreeStats
  | 0, _, stats => stats
  | _, [], stats => stats
  | turns + 1, node :: stack, stats =>
    if maxScanNodes ≤ stats.nodes then { stats with safeToRemove := false }
    else
      match node with
      | .other => inspectLoop turns stack { stats with safeToRemove := false }
      | .symlink => inspectLoop turns stack { stats with containsSymlink := true, safeToRemove := false }
      | .file bytes _ =>
        inspectLoop turns stack
          { stats with nodes := stats.nodes + 1, bytes := saturatingAdd stats.bytes bytes }
      | .directory children true _ =>
        inspectLoop turns ((children.map (·.2)).reverse ++ stack) { stats with nodes := stats.nodes + 1 }
      | .directory _ false _ =>
        inspectLoop turns stack { stats with nodes := stats.nodes + 1, safeToRemove := false }

def inspectTree (root : Node) : TreeStats := inspectLoop root.size [root] ⟨0, 0, false, true⟩

mutual

/-- `remove_file` and `remove_directory`: what is left of a node, if anything. -/
def removeNode : Node → Option Node
  | .file bytes removable => if removable then none else some (.file bytes removable)
  | .directory children true removable =>
    match removeChildren children with
    | [] => if removable then none else some (.directory [] true removable)
    | left => some (.directory left true removable)
  | .directory children false removable => some (.directory children false removable)
  | .symlink => some .symlink
  | .other => some .other

/-- The children are removed up to the first one that is not removed. -/
def removeChildren : List (String × Node) → List (String × Node)
  | [] => []
  | child :: children =>
    match removeNode child.2 with
    | none => removeChildren children
    | some left => (child.1, left) :: children

end

/-- `remove_entry`: what is left of an entry, if anything. -/
def removeEntry (entry : Node) : Option Node :=
  match entry with
  | .file _ _ => removeNode entry
  | .directory _ _ _ =>
    if !(inspectTree entry).safeToRemove || (inspectTree entry).containsSymlink then some entry
    else removeNode entry
  | .symlink => some entry
  | .other => some entry

/-! ## What a walk counts -/

mutual

/-- A tree of files and of directories that can be listed. -/
def Node.plain : Node → Bool
  | .file _ _ => true
  | .directory children listable _ => listable && childrenPlain children
  | _ => false

def childrenPlain : List (String × Node) → Bool
  | [] => true
  | child :: children => child.2.plain && childrenPlain children

end

mutual

/-- The number of files and directories. -/
def Node.count : Node → ℕ
  | .file _ _ => 1
  | .directory children _ _ => childrenCount children + 1
  | _ => 0

def childrenCount : List (String × Node) → ℕ
  | [] => 0
  | child :: children => child.2.count + childrenCount children

end

mutual

def Node.bytes : Node → ℕ
  | .file bytes _ => bytes
  | .directory children _ _ => childrenBytes children
  | _ => 0

def childrenBytes : List (String × Node) → ℕ
  | [] => 0
  | child :: children => child.2.bytes + childrenBytes children

end

/-- A number of each node, over a stack. -/
def stackSum (f : Node → ℕ) (stack : List Node) : ℕ := (stack.map f).sum

variable {f : Node → ℕ} {stack : List Node} {stats : TreeStats} {turns : ℕ} {node : Node}
  {children : List (String × Node)}

@[simp]
lemma stackSum_cons : stackSum f (node :: stack) = f node + stackSum f stack := rfl

@[simp]
lemma stackSum_push :
    stackSum f ((children.map (·.2)).reverse ++ stack) = stackSum f (children.map (·.2)) + stackSum f stack := by
  unfold stackSum
  rw [List.map_append, List.map_reverse, List.sum_append, List.sum_reverse]

lemma childrenSize_eq (children : List (String × Node)) :
    childrenSize children = stackSum Node.size (children.map (·.2)) := by
  induction children with
  | nil => rfl
  | cons child children ih => rw [childrenSize, ih, List.map_cons, stackSum_cons]

lemma childrenCount_eq (children : List (String × Node)) :
    childrenCount children = stackSum Node.count (children.map (·.2)) := by
  induction children with
  | nil => rfl
  | cons child children ih => rw [childrenCount, ih, List.map_cons, stackSum_cons]

lemma childrenBytes_eq (children : List (String × Node)) :
    childrenBytes children = stackSum Node.bytes (children.map (·.2)) := by
  induction children with
  | nil => rfl
  | cons child children ih => rw [childrenBytes, ih, List.map_cons, stackSum_cons]

lemma childrenPlain_eq (children : List (String × Node)) :
    childrenPlain children = (children.map (·.2)).all Node.plain := by
  induction children with
  | nil => rfl
  | cons child children ih => rw [childrenPlain, ih, List.map_cons, List.all_cons]

lemma inspectLoop_of_plain (hturns : stackSum Node.size stack ≤ turns) (hplain : stack.all Node.plain = true)
    (hcount : stats.nodes + stackSum Node.count stack ≤ maxScanNodes) (hbytes : stats.bytes ≤ u64Max) :
    inspectLoop turns stack stats = { stats with
        bytes := saturatingAdd stats.bytes (stackSum Node.bytes stack)
        nodes := stats.nodes + stackSum Node.count stack } := by
  induction turns generalizing stack stats with
  | zero =>
    cases stack with
    | nil =>
      simp only [inspectLoop, stackSum, List.map_nil, List.sum_nil, saturatingAdd, Nat.add_zero,
        Nat.min_eq_left hbytes]
    | cons node stack =>
      have hpos : 0 < node.size := by cases node <;> simp [Node.size]
      rw [stackSum_cons] at hturns
      omega
  | succ turns ih =>
    cases stack with
    | nil =>
      simp only [inspectLoop, stackSum, List.map_nil, List.sum_nil, saturatingAdd, Nat.add_zero,
        Nat.min_eq_left hbytes]
    | cons node stack =>
      rw [List.all_cons, Bool.and_eq_true] at hplain
      obtain ⟨hnode, hstack⟩ := hplain
      rw [stackSum_cons] at hturns hcount
      rw [stackSum_cons, stackSum_cons]
      cases node with
      | symlink | other => simp [Node.plain] at hnode
      | file bytes removable =>
        simp only [Node.size, Node.count, Node.bytes] at hturns hcount ⊢
        rw [inspectLoop, if_neg (by omega)]
        rw [ih (by omega) hstack (by dsimp only; omega) (Nat.min_le_right _ _)]
        congr 1
        · simp only [saturatingAdd]
          omega
        · dsimp only
          omega
      | directory children listable removable =>
        simp only [Node.plain, Bool.and_eq_true] at hnode
        obtain ⟨rfl, hchildren⟩ := hnode
        rw [childrenPlain_eq] at hchildren
        simp only [Node.size, Node.count, Node.bytes] at hturns hcount ⊢
        rw [childrenSize_eq] at hturns
        rw [childrenCount_eq] at hcount ⊢
        rw [childrenBytes_eq]
        rw [inspectLoop, if_neg (by omega)]
        refine (ih ?_ ?_ ?_ ?_).trans ?_
        · rw [stackSum_push]
          omega
        · rw [List.all_append, List.all_reverse, hchildren, hstack]
          rfl
        · rw [stackSum_push]
          dsimp only
          omega
        · exact hbytes
        · simp only [stackSum_push, TreeStats.mk.injEq, true_and, and_true]
          omega

lemma plain_of_inspectLoop (hsafe : (inspectLoop turns stack stats).safeToRemove = true)
    (hturns : stackSum Node.size stack ≤ turns) (hnodes : stats.nodes ≤ maxScanNodes) :
    stats.safeToRemove = true ∧ stack.all Node.plain = true ∧
      stats.nodes + stackSum Node.count stack ≤ maxScanNodes := by
  induction turns generalizing stack stats with
  | zero =>
    cases stack with
    | nil => exact ⟨hsafe, rfl, hnodes⟩
    | cons node stack =>
      have hpos : 0 < node.size := by cases node <;> simp [Node.size]
      rw [stackSum_cons] at hturns
      omega
  | succ turns ih =>
    cases stack with
    | nil => exact ⟨hsafe, rfl, hnodes⟩
    | cons node stack =>
      rw [stackSum_cons] at hturns ⊢
      by_cases hlimit : maxScanNodes ≤ stats.nodes
      · have hstop : inspectLoop (turns + 1) (node :: stack) stats = { stats with safeToRemove := false } := by
          cases node with
          | directory children listable removable =>
            cases listable <;> rw [inspectLoop, if_pos hlimit]
          | _ => rw [inspectLoop, if_pos hlimit]
        rw [hstop] at hsafe
        exact absurd hsafe Bool.false_ne_true
      · cases node with
        | symlink | other =>
          rw [inspectLoop, if_neg hlimit] at hsafe
          simp only [Node.size] at hturns
          exact absurd (ih hsafe (by omega) hnodes).1 Bool.false_ne_true
        | file bytes removable =>
          rw [inspectLoop, if_neg hlimit] at hsafe
          simp only [Node.size, Node.count] at hturns ⊢
          obtain ⟨hstats, hstack, hcount⟩ := ih hsafe (by omega) (by dsimp only; omega)
          refine ⟨hstats, ?_, ?_⟩
          · rw [List.all_cons, hstack]
            rfl
          · dsimp only at hcount
            omega
        | directory children listable removable =>
          simp only [Node.size, Node.count] at hturns ⊢
          rw [childrenSize_eq] at hturns
          rw [childrenCount_eq]
          cases listable with
          | false =>
            rw [inspectLoop, if_neg hlimit] at hsafe
            exact absurd (ih hsafe (by omega) (by dsimp only; omega)).1 Bool.false_ne_true
          | true =>
            rw [inspectLoop, if_neg hlimit] at hsafe
            obtain ⟨hstats, hstack, hcount⟩ :=
              ih hsafe (by rw [stackSum_push]; omega) (by dsimp only; omega)
            rw [List.all_append, List.all_reverse, Bool.and_eq_true] at hstack
            rw [stackSum_push] at hcount
            refine ⟨hstats, ?_, ?_⟩
            · rw [List.all_cons, Node.plain, childrenPlain_eq, hstack.1, hstack.2]
              rfl
            · dsimp only at hcount
              omega

lemma inspectTree_eq (hplain : node.plain = true) (hcount : node.count ≤ maxScanNodes) :
    inspectTree node = ⟨min node.bytes u64Max, node.count, false, true⟩ := by
  unfold inspectTree
  rw [inspectLoop_of_plain]
  · simp [stackSum, saturatingAdd]
  · simp [stackSum]
  · simpa using hplain
  · simpa [stackSum] using hcount
  · exact Nat.zero_le _

lemma plain_of_inspectTree (hsafe : (inspectTree node).safeToRemove = true) :
    node.plain = true ∧ node.count ≤ maxScanNodes := by
  obtain ⟨-, hplain, hcount⟩ := plain_of_inspectLoop hsafe (by simp [stackSum]) (Nat.zero_le _)
  exact ⟨by simpa using hplain, by simpa [stackSum] using hcount⟩

/-! ## What a removal leaves -/

/-- Of a plain tree nothing larger is left; another attempt leaves the same. -/
structure Left (before after : Node) : Prop where
  plain : before.plain = true → after.plain = true
  count_le : after.count ≤ before.count
  bytes_le : after.bytes ≤ before.bytes
  again : removeNode after = some after

structure LeftChildren (before after : List (String × Node)) : Prop where
  plain : childrenPlain before = true → childrenPlain after = true
  count_le : childrenCount after ≤ childrenCount before
  bytes_le : childrenBytes after ≤ childrenBytes before
  again : removeChildren after = after

mutual

lemma left_of_removeNode : {before after : Node} → removeNode before = some after → Left before after
  | .file bytes removable, after, h => by
    rw [removeNode] at h
    split_ifs at h with hremovable
    obtain rfl := Option.some.inj h
    exact ⟨id, le_rfl, le_rfl, by rw [removeNode, if_neg hremovable]⟩
  | .directory children true removable, after, h => by
    have hchildren := left_of_removeChildren children
    rw [removeNode] at h
    generalize hleft : removeChildren children = left at h hchildren
    cases left with
    | nil =>
      dsimp only at h
      split_ifs at h with hremovable
      obtain rfl := Option.some.inj h
      refine ⟨fun _ => rfl, ?_, Nat.zero_le _, ?_⟩
      · simp [Node.count, childrenCount]
      · rw [removeNode, removeChildren]
        dsimp only
        rw [if_neg hremovable]
    | cons child left =>
      obtain rfl := Option.some.inj h
      refine ⟨fun hplain => ?_, Nat.succ_le_succ hchildren.count_le, hchildren.bytes_le, ?_⟩
      · rw [Node.plain, Bool.true_and] at hplain ⊢
        exact hchildren.plain hplain
      · rw [removeNode, hchildren.again]
  | .directory children false removable, after, h => by
    obtain rfl := Option.some.inj h
    exact ⟨id, le_rfl, le_rfl, rfl⟩
  | .symlink, after, h => by
    obtain rfl := Option.some.inj h
    exact ⟨id, le_rfl, le_rfl, rfl⟩
  | .other, after, h => by
    obtain rfl := Option.some.inj h
    exact ⟨id, le_rfl, le_rfl, rfl⟩

lemma left_of_removeChildren : (before : List (String × Node)) → LeftChildren before (removeChildren before)
  | [] => ⟨id, le_rfl, le_rfl, rfl⟩
  | (name, node) :: children => by
    rw [removeChildren]
    dsimp only
    cases hnode : removeNode node with
    | none =>
      have hrest := left_of_removeChildren children
      refine ⟨fun hplain => ?_, le_trans hrest.count_le (Nat.le_add_left _ _),
        le_trans hrest.bytes_le (Nat.le_add_left _ _), hrest.again⟩
      rw [childrenPlain, Bool.and_eq_true] at hplain
      exact hrest.plain hplain.2
    | some left =>
      have hleft := left_of_removeNode hnode
      refine ⟨fun hplain => ?_, Nat.add_le_add_right hleft.count_le _, Nat.add_le_add_right hleft.bytes_le _, ?_⟩
      · rw [childrenPlain, Bool.and_eq_true] at hplain ⊢
        exact ⟨hleft.plain hplain.1, hplain.2⟩
      · rw [removeChildren]
        dsimp only
        rw [hleft.again]

end

/-- A walk counts no more behind an attempt, and another one leaves the same. -/
structure LeftEntry (before after : Node) : Prop where
  nodes_le : (inspectTree after).nodes ≤ (inspectTree before).nodes
  bytes_le : (inspectTree after).bytes ≤ (inspectTree before).bytes
  again : removeEntry after = some after

lemma leftEntry_of_removeEntry {before after : Node} (h : removeEntry before = some after) :
    LeftEntry before after := by
  cases before with
  | symlink | other =>
    obtain rfl := Option.some.inj h
    exact ⟨le_rfl, le_rfl, rfl⟩
  | file bytes removable =>
    have hsame : removeEntry (.file bytes removable) = some after := h
    rw [removeEntry, removeNode] at h
    split_ifs at h with hremovable
    obtain rfl := Option.some.inj h
    exact ⟨le_rfl, le_rfl, hsame⟩
  | directory children listable removable =>
    by_cases hunsafe : (!(inspectTree (.directory children listable removable)).safeToRemove ||
        (inspectTree (.directory children listable removable)).containsSymlink) = true
    · have hsame : removeEntry (.directory children listable removable) =
          some (.directory children listable removable) := by
        rw [removeEntry, if_pos hunsafe]
      obtain rfl := Option.some.inj (hsame.symm.trans h)
      exact ⟨le_rfl, le_rfl, hsame⟩
    · rw [removeEntry, if_neg hunsafe] at h
      have hsafe : (inspectTree (.directory children listable removable)).safeToRemove = true := by
        rw [Bool.not_eq_true, Bool.or_eq_false_iff] at hunsafe
        simpa using hunsafe.1
      obtain ⟨hplain, hcount⟩ := plain_of_inspectTree hsafe
      have hleft := left_of_removeNode h
      have hbefore := inspectTree_eq hplain hcount
      have hafter := inspectTree_eq (hleft.plain hplain) (le_trans hleft.count_le hcount)
      refine ⟨?_, ?_, ?_⟩
      · rw [hbefore, hafter]
        exact hleft.count_le
      · rw [hbefore, hafter]
        exact min_le_min hleft.bytes_le le_rfl
      · cases after with
        | symlink | other => rfl
        | file bytes removable => exact hleft.again
        | directory children listable removable =>
          rw [removeEntry, hafter]
          exact hleft.again

end AgzRustMcp.Cache
