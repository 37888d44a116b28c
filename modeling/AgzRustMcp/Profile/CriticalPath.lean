import AgzRustMcp.Foundation.LongestPath

/-!
# The critical path of a timing report

`build_critical_path` of `tools/profile.rs` walks the units in a topological order and relaxes the
edges to the units that each of them unblocks.  Positions stand for units, and durations are exact
fractions.  `KahnInv` is what the walk keeps, for any graph on the positions.
-/

namespace AgzRustMcp.Profile

open LongestPath
open scoped Finset

def maxCriticalPathDepth : ℕ := 64

structure TimingUnit where
  i : ℕ
  name : String
  version : String
  target : String
  start : ℚ
  duration : ℚ
  unblockedUnits : List ℕ

structure CriticalPathUnit where
  name : String
  version : String
  target : String
  durationSecs : ℚ
  startSecs : ℚ
  deriving DecidableEq

/-- The edges found: targets in order, and how many come in. -/
structure UnitGraph where
  adjacency : ℕ → List ℕ
  indegree : ℕ → ℕ

/-- `index_of.get`: the last position of an index. -/
def indexOf (units : List TimingUnit) (i : ℕ) : Option ℕ :=
  (units.zipIdx.reverse.find? fun entry => entry.1.i = i).map (·.2)

/-- A turn of the inner loop over the unblocked units of a position. -/
def addEdge (units : List TimingUnit) (graph : UnitGraph) (edge : ℕ × ℕ) : UnitGraph :=
  match indexOf units edge.2 with
  | none => graph
  | some target =>
    if target ∈ graph.adjacency edge.1 then graph
    else
      { adjacency := Function.update graph.adjacency edge.1
          ((graph.adjacency edge.1).orderedInsert (· ≤ ·) target)
        indegree := Function.update graph.indegree target (graph.indegree target + 1) }

/-- The unblocked units of all positions, one by one. -/
def listedEdges (units : List TimingUnit) : List (ℕ × ℕ) :=
  units.zipIdx.flatMap fun entry => entry.1.unblockedUnits.map fun unblocked => (entry.2, unblocked)

def unitGraph (units : List TimingUnit) : UnitGraph :=
  (listedEdges units).foldl (addEdge units) ⟨fun _ => [], fun _ => 0⟩

/-! ## The walk -/

structure WalkState where
  indegree : ℕ → ℕ
  best : ℕ → ℚ
  previous : ℕ → Option ℕ
  queue : List ℕ
  processed : ℕ

/-- A turn of the loop over the targets of a position. -/
def relax (weight : ℕ → ℚ) (node : ℕ) (state : WalkState) (next : ℕ) : WalkState :=
  let improved := state.best next < state.best node + weight next
  { state with
    best := if improved then Function.update state.best next (state.best node + weight next) else state.best
    previous := if improved then Function.update state.previous next (some node) else state.previous
    indegree := Function.update state.indegree next (state.indegree next - 1)
    queue := if state.indegree next - 1 = 0 then state.queue ++ [next] else state.queue }

/-- A turn of the loop over the queue. -/
def visit (adjacency : ℕ → List ℕ) (weight : ℕ → ℚ) (state : WalkState) : WalkState :=
  match state.queue with
  | [] => state
  | node :: queue =>
    (adjacency node).foldl (relax weight node) { state with queue, processed := state.processed + 1 }

/-- `max(duration, 0)` at a position. -/
def weight (units : List TimingUnit) (position : ℕ) : ℚ :=
  max ((units[position]?.map (·.duration)).getD 0) 0

/-- The loop over the queue, which no position enters twice. -/
def walk (units : List TimingUnit) : WalkState :=
  let graph := unitGraph units
  (visit graph.adjacency (weight units))^[units.length]
    { indegree := graph.indegree
      best := weight units
      previous := fun _ => none
      queue := (List.range units.length).filter (graph.indegree · = 0)
      processed := 0 }

/-- `max_by`: the last one of the positions with the greatest label. -/
def lastBest (best : ℕ → ℚ) (positions : List ℕ) : Option ℕ :=
  positions.foldl (fun found position =>
    match found with
    | none => some position
    | some other => if best position < best other then some other else some position) none

/-- The row of the result for a unit. -/
def criticalUnit (unit : TimingUnit) : CriticalPathUnit :=
  ⟨unit.name, unit.version, unit.target, max unit.duration 0, unit.start⟩

def buildCriticalPath (units : List TimingUnit) : Except String (ℚ × List CriticalPathUnit) :=
  if units = [] then .error "timing report contained no compilable units"
  else
    let state := walk units
    if state.processed ≠ units.length then
      .error "timing unit graph contains a cycle; critical path is not measurable"
    else
      match lastBest state.best (List.range units.length) with
      | none => .error "timing unit graph is empty"
      | some last =>
        let chain := (back state.previous maxCriticalPathDepth last).reverse
        .ok (state.best last, chain.filterMap fun position => units[position]?.map criticalUnit)

/-! ## Edges -/

section

variable {units : List TimingUnit}

/-- The unit of a position lists the unit of another one. -/
def Edge (units : List TimingUnit) (p q : ℕ) : Prop :=
  ∃ a b, units[p]? = some a ∧ units[q]? = some b ∧ b.i ∈ a.unblockedUnits

lemma Edge.lt {p q : ℕ} (h : Edge units p q) : p < units.length ∧ q < units.length := by
  obtain ⟨a, b, ha, hb, -⟩ := h
  exact ⟨(List.getElem?_eq_some_iff.mp ha).1, (List.getElem?_eq_some_iff.mp hb).1⟩

lemma position_unique (hdistinct : (units.map (·.i)).Nodup) {p q : ℕ} {a b : TimingUnit} (ha : units[p]? = some a)
    (hb : units[q]? = some b) (h : a.i = b.i) : p = q := by
  have hp : p < (units.map (·.i)).length := by simpa using (List.getElem?_eq_some_iff.mp ha).1
  refine (List.getElem?_inj hp hdistinct).mp ?_
  rw [List.getElem?_map, List.getElem?_map, ha, hb, Option.map_some, Option.map_some, h]

lemma exists_unit_of_indexOf {i q : ℕ} (h : indexOf units i = some q) : ∃ b, units[q]? = some b ∧ b.i = i := by
  obtain ⟨entry, hentry, rfl⟩ := Option.map_eq_some_iff.mp h
  have hmem := List.mem_reverse.mp (List.mem_of_find?_eq_some hentry)
  exact ⟨entry.1, List.mem_zipIdx_iff_getElem?.mp hmem, by simpa using List.find?_some hentry⟩

lemma indexOf_eq_some_iff (hdistinct : (units.map (·.i)).Nodup) {i q : ℕ} :
    indexOf units i = some q ↔ ∃ b, units[q]? = some b ∧ b.i = i := by
  refine ⟨exists_unit_of_indexOf, ?_⟩
  rintro ⟨b, hb, hi⟩
  have hin : (b, q) ∈ units.zipIdx.reverse := List.mem_reverse.mpr (List.mem_zipIdx_iff_getElem?.mpr hb)
  have hfound : (indexOf units i).isSome := by
    rw [indexOf, Option.isSome_map, List.find?_isSome]
    exact ⟨(b, q), hin, by simpa using hi⟩
  obtain ⟨q', hq'⟩ := Option.isSome_iff_exists.mp hfound
  obtain ⟨b', hb', hi'⟩ := exists_unit_of_indexOf hq'
  rw [hq', position_unique hdistinct hb' hb (hi'.trans hi.symm)]

lemma mem_listedEdges {p i : ℕ} : (p, i) ∈ listedEdges units ↔ ∃ a, units[p]? = some a ∧ i ∈ a.unblockedUnits := by
  constructor
  · intro h
    obtain ⟨entry, hentry, hi⟩ := List.mem_flatMap.mp h
    obtain ⟨unblocked, hunblocked, heq⟩ := List.mem_map.mp hi
    obtain ⟨rfl, rfl⟩ := Prod.mk.inj heq
    exact ⟨entry.1, List.mem_zipIdx_iff_getElem?.mp hentry, hunblocked⟩
  · rintro ⟨a, ha, hi⟩
    exact List.mem_flatMap.mpr ⟨(a, p), List.mem_zipIdx_iff_getElem?.mpr ha, List.mem_map.mpr ⟨i, hi, rfl⟩⟩

/-- What the loops over the unblocked units keep. -/
structure GraphInv (units : List TimingUnit) (edges : List (ℕ × ℕ)) (graph : UnitGraph) : Prop where
  nodup : ∀ p, (graph.adjacency p).Nodup
  mem_iff : ∀ p q, q ∈ graph.adjacency p ↔ ∃ i, (p, i) ∈ edges ∧ indexOf units i = some q
  indegree : ∀ q, graph.indegree q = #{p ∈ Finset.range units.length | q ∈ graph.adjacency p}

lemma GraphInv.step {edges : List (ℕ × ℕ)} {graph : UnitGraph} (h : GraphInv units edges graph) {p₀ i₀ : ℕ}
    (hp₀ : p₀ < units.length) : GraphInv units (edges ++ [(p₀, i₀)]) (addEdge units graph (p₀, i₀)) := by
  have hedges : ∀ p q, (∃ i, (p, i) ∈ edges ++ [(p₀, i₀)] ∧ indexOf units i = some q) ↔
      q ∈ graph.adjacency p ∨ p = p₀ ∧ indexOf units i₀ = some q := by
    intro p q
    rw [h.mem_iff]
    constructor
    · rintro ⟨i, hi, hq⟩
      rcases List.mem_append.mp hi with hi | hi
      · exact Or.inl ⟨i, hi, hq⟩
      · obtain ⟨rfl, rfl⟩ := Prod.mk.inj (List.mem_singleton.mp hi)
        exact Or.inr ⟨rfl, hq⟩
    · rintro (⟨i, hi, hq⟩ | ⟨rfl, hq⟩)
      · exact ⟨i, List.mem_append_left _ hi, hq⟩
      · exact ⟨i₀, by simp, hq⟩
  unfold addEdge
  cases htarget : indexOf units i₀ with
  | none => exact ⟨h.nodup, fun p q => by rw [hedges, htarget]; simp, h.indegree⟩
  | some target =>
    dsimp only
    split_ifs with hold
    · refine ⟨h.nodup, fun p q => ?_, h.indegree⟩
      rw [hedges, htarget]
      constructor
      · exact Or.inl
      · rintro (hq | ⟨rfl, hq⟩)
        · exact hq
        · exact Option.some.inj hq ▸ hold
    · have hperm := List.perm_orderedInsert (· ≤ ·) target (graph.adjacency p₀)
      have hmem : ∀ p q, q ∈ Function.update graph.adjacency p₀
          ((graph.adjacency p₀).orderedInsert (· ≤ ·) target) p ↔ q ∈ graph.adjacency p ∨ p = p₀ ∧ target = q := by
        intro p q
        by_cases hp : p = p₀
        · subst hp
          rw [Function.update_self, List.mem_orderedInsert]
          tauto
        · simp [hp]
      refine ⟨fun p => ?_, fun p q => ?_, fun q => ?_⟩
      · dsimp only
        by_cases hp : p = p₀
        · subst hp
          rw [Function.update_self]
          exact hperm.nodup_iff.mpr (List.nodup_cons.mpr ⟨hold, h.nodup p⟩)
        · rw [Function.update_of_ne hp]
          exact h.nodup p
      · rw [hmem, hedges, htarget, Option.some.injEq]
      · simp only [hmem]
        by_cases hq : q = target
        · subst hq
          have hset : ({p ∈ Finset.range units.length | q ∈ graph.adjacency p ∨ p = p₀ ∧ q = q} : Finset ℕ) =
              insert p₀ {p ∈ Finset.range units.length | q ∈ graph.adjacency p} := by
            ext p
            simp only [Finset.mem_filter, Finset.mem_range, Finset.mem_insert]
            constructor
            · tauto
            · rintro (rfl | hp) <;> tauto
          rw [hset, Finset.card_insert_of_notMem (by simp [hold]), Function.update_self, h.indegree]
        · have hne : ¬ target = q := fun heq => hq heq.symm
          simp only [Function.update_of_ne hq, hne, and_false, or_false]
          exact h.indegree q

lemma graphInv_unitGraph (units : List TimingUnit) : GraphInv units (listedEdges units) (unitGraph units) := by
  have hall : ∀ edges : List (ℕ × ℕ), (∀ edge ∈ edges, edge.1 < units.length) →
      GraphInv units edges (edges.foldl (addEdge units) ⟨fun _ => [], fun _ => 0⟩) := by
    intro edges hedges
    induction edges using List.reverseRecOn with
    | nil => exact ⟨fun p => List.nodup_nil, fun p q => by simp, fun q => by simp⟩
    | append_singleton edges edge ih =>
      rw [List.foldl_append]
      exact (ih fun e he => hedges e (List.mem_append_left _ he)).step (hedges edge (by simp))
  refine hall _ fun edge hedge => ?_
  obtain ⟨a, ha, -⟩ := mem_listedEdges.mp (show (edge.1, edge.2) ∈ listedEdges units from hedge)
  exact (List.getElem?_eq_some_iff.mp ha).1

lemma mem_adjacency_iff (hdistinct : (units.map (·.i)).Nodup) {p q : ℕ} :
    q ∈ (unitGraph units).adjacency p ↔ Edge units p q := by
  rw [(graphInv_unitGraph units).mem_iff]
  constructor
  · rintro ⟨i, hi, hq⟩
    obtain ⟨a, ha, hmem⟩ := mem_listedEdges.mp hi
    obtain ⟨b, hb, rfl⟩ := (indexOf_eq_some_iff hdistinct).mp hq
    exact ⟨a, b, ha, hb, hmem⟩
  · rintro ⟨a, b, ha, hb, hmem⟩
    exact ⟨b.i, mem_listedEdges.mpr ⟨a, ha, hmem⟩, (indexOf_eq_some_iff hdistinct).mpr ⟨b, hb, rfl⟩⟩

end

/-! ## Turns of the walk -/

section

variable {w : ℕ → ℚ} {node : ℕ}

section

variable (state : WalkState) (next q : ℕ)

lemma relax_best : (relax w node state next).best q =
    if q = next then max (state.best q) (state.best node + w q) else state.best q := by
  simp only [relax]
  split_ifs with himproved hq hq
  · rw [hq, Function.update_self, max_eq_right himproved.le]
  · exact Function.update_of_ne hq _ _
  · rw [hq, max_eq_left (not_lt.mp himproved)]
  · rfl

lemma relax_previous : (relax w node state next).previous q =
    if q = next ∧ state.best q < state.best node + w q then some node else state.previous q := by
  simp only [relax]
  by_cases hq : q = next
  · subst hq
    by_cases himproved : state.best q < state.best node + w q <;> simp [himproved]
  · by_cases himproved : state.best next < state.best node + w next <;> simp [himproved, hq]

lemma relax_indegree : (relax w node state next).indegree q =
    if q = next then state.indegree q - 1 else state.indegree q := by
  by_cases hq : q = next
  · subst hq
    simp [relax]
  · simp [relax, hq]

end

/-- What the turns over the targets of a position come to. -/
structure RelaxedTo (w : ℕ → ℚ) (node : ℕ) (nexts : List ℕ) (state state' : WalkState) : Prop where
  best : ∀ q, state'.best q = if q ∈ nexts then max (state.best q) (state.best node + w q) else state.best q
  previous : ∀ q, state'.previous q =
    if q ∈ nexts ∧ state.best q < state.best node + w q then some node else state.previous q
  indegree : ∀ q, state'.indegree q = if q ∈ nexts then state.indegree q - 1 else state.indegree q
  queue : state'.queue = state.queue ++ nexts.filter fun q => state.indegree q - 1 = 0
  processed : state'.processed = state.processed

lemma relaxedTo_foldl {nexts : List ℕ} (hnodup : nexts.Nodup) (hnode : node ∉ nexts) (state : WalkState) :
    RelaxedTo w node nexts state (nexts.foldl (relax w node) state) := by
  induction nexts generalizing state with
  | nil => exact ⟨by simp, by simp, by simp, by simp, rfl⟩
  | cons next nexts ih =>
    obtain ⟨hnext, hnodup⟩ := List.nodup_cons.mp hnodup
    have hne : node ≠ next := fun h => hnode (h ▸ List.mem_cons_self)
    have hrest := ih hnodup (fun h => hnode (List.mem_cons_of_mem _ h)) (relax w node state next)
    have hbestnode : (relax w node state next).best node = state.best node := by rw [relax_best, if_neg hne]
    have hold : ∀ q ∈ nexts, q ≠ next := fun q hq h => hnext (h ▸ hq)
    rw [List.foldl_cons]
    refine ⟨fun q => ?_, fun q => ?_, fun q => ?_, ?_, hrest.processed⟩
    · rw [hrest.best, hbestnode, relax_best]
      by_cases hq : q = next
      · subst hq
        simp [hnext]
      · simp [hq]
    · rw [hrest.previous, hbestnode, relax_best, relax_previous]
      by_cases hq : q = next
      · subst hq
        simp [hnext]
      · simp [hq]
    · rw [hrest.indegree, relax_indegree]
      by_cases hq : q = next
      · subst hq
        simp [hnext]
      · simp [hq]
    · have hfilter : nexts.filter (fun q => decide ((relax w node state next).indegree q - 1 = 0)) =
          nexts.filter fun q => decide (state.indegree q - 1 = 0) := by
        refine List.filter_congr fun q hq => ?_
        rw [relax_indegree, if_neg (hold q hq)]
      rw [hrest.queue, hfilter, List.filter_cons]
      by_cases hzero : state.indegree next - 1 = 0 <;> simp [relax, hzero]

/-- What the walk keeps; `done`: what it took from the queue. -/
structure KahnInv (n : ℕ) (adjacency : ℕ → List ℕ) (w : ℕ → ℚ) (done : List ℕ) (state : WalkState) : Prop where
  nodup : (done ++ state.queue).Nodup
  lt : ∀ p ∈ done ++ state.queue, p < n
  indegree : ∀ q, state.indegree q = #{p ∈ Finset.range n | p ∉ done ∧ q ∈ adjacency p}
  ready : ∀ q < n, q ∈ done ++ state.queue ↔ state.indegree q = 0
  weight_le : ∀ q, w q ≤ state.best q
  relaxed : ∀ p ∈ done, ∀ q ∈ adjacency p, state.best p + w q ≤ state.best q
  start : ∀ q, state.previous q = none → state.best q = w q
  step : ∀ q p, state.previous q = some p → p ∈ done ∧ q ∈ adjacency p ∧ state.best q = state.best p + w q
  closed : ∀ front q rest, done = front ++ q :: rest → ∀ p, q ∈ adjacency p → p ∈ front
  processed : state.processed = done.length

variable {n : ℕ} {adjacency : ℕ → List ℕ} {done : List ℕ} {state : WalkState}

lemma KahnInv.source_mem (h : KahnInv n adjacency w done state) (hfield : ∀ p, ∀ q ∈ adjacency p, p < n ∧ q < n)
    {q : ℕ} (hq : q ∈ done ++ state.queue) {p : ℕ} (hp : q ∈ adjacency p) : p ∈ done := by
  by_contra hout
  have hzero := (h.ready q (h.lt q hq)).mp hq
  rw [h.indegree, Finset.card_eq_zero] at hzero
  exact Finset.eq_empty_iff_forall_notMem.mp hzero p
    (Finset.mem_filter.mpr ⟨Finset.mem_range.mpr (hfield p q hp).1, hout, hp⟩)

lemma closed_concat (h : ∀ front q rest, done = front ++ q :: rest → ∀ p, q ∈ adjacency p → p ∈ front)
    (hnode : ∀ p, node ∈ adjacency p → p ∈ done) :
    ∀ front q rest, done ++ [node] = front ++ q :: rest → ∀ p, q ∈ adjacency p → p ∈ front := by
  intro front q rest hsplit
  rcases List.eq_nil_or_concat rest with rfl | ⟨rest, last, rfl⟩
  · obtain ⟨rfl, hlast⟩ := List.append_inj' hsplit rfl
    obtain rfl := List.singleton_injective hlast
    exact hnode
  · have hshift : done ++ [node] = (front ++ q :: rest) ++ [last] := by simpa using hsplit
    exact h front q rest (List.append_inj' hshift rfl).1

lemma KahnInv.visit (h : KahnInv n adjacency w done state) (hnodup : ∀ p, (adjacency p).Nodup)
    (hfield : ∀ p, ∀ q ∈ adjacency p, p < n ∧ q < n) {queue : List ℕ} (hqueue : state.queue = node :: queue) :
    KahnInv n adjacency w (done ++ [node]) (visit adjacency w state) := by
  have hwaits : node ∈ done ++ state.queue := by simp [hqueue]
  have hfresh : node ∉ done := fun hdone =>
    List.disjoint_of_nodup_append h.nodup hdone (hqueue ▸ List.mem_cons_self)
  have hsource : ∀ p, node ∈ adjacency p → p ∈ done := fun p hp => h.source_mem hfield hwaits hp
  -- the targets of the position still count it, so they are not in the queue yet
  have htarget : ∀ q ∈ adjacency node, q ∉ done ++ state.queue :=
    fun q hq hin => hfresh (h.source_mem hfield hin hq)
  have hloop : node ∉ adjacency node := fun hself => htarget node hself hwaits
  have hfold := relaxedTo_foldl (w := w) (hnodup node) hloop { state with queue, processed := state.processed + 1 }
  have hvisit : Profile.visit adjacency w state =
      (adjacency node).foldl (relax w node) { state with queue, processed := state.processed + 1 } := by
    rw [Profile.visit, hqueue]
  rw [← hvisit] at hfold
  have hbestdone : ∀ p ∈ done ++ [node], (Profile.visit adjacency w state).best p = state.best p := by
    intro p hp
    have hin : p ∈ done ++ state.queue := by
      rcases List.mem_append.mp hp with hp | hp
      · exact List.mem_append_left _ hp
      · exact List.mem_singleton.mp hp ▸ hwaits
    rw [hfold.best, if_neg fun hq => htarget p hq hin]
  have hbestle : ∀ q, state.best q ≤ (Profile.visit adjacency w state).best q := by
    intro q
    rw [hfold.best]
    split_ifs
    · exact le_max_left _ _
    · exact le_rfl
  have hshift : (done ++ [node]) ++ (Profile.visit adjacency w state).queue =
      (done ++ state.queue) ++ (adjacency node).filter fun q => state.indegree q - 1 = 0 := by
    rw [hfold.queue, hqueue]
    simp
  refine ⟨?_, ?_, fun q => ?_, fun q hq => ?_, fun q => (h.weight_le q).trans (hbestle q), ?_, fun q hq => ?_,
    fun q p hp => ?_, closed_concat h.closed hsource, ?_⟩
  · rw [hshift]
    refine List.nodup_append'.mpr ⟨h.nodup, (hnodup node).filter _, fun q hq hnew => ?_⟩
    exact htarget q (List.mem_of_mem_filter hnew) hq
  · intro p hp
    rw [hshift] at hp
    rcases List.mem_append.mp hp with hp | hp
    · exact h.lt p hp
    · exact (hfield node p (List.mem_of_mem_filter hp)).2
  · rw [hfold.indegree, h.indegree]
    have hset : ({p ∈ Finset.range n | p ∉ done ++ [node] ∧ q ∈ adjacency p} : Finset ℕ) =
        ({p ∈ Finset.range n | p ∉ done ∧ q ∈ adjacency p} : Finset ℕ).erase node := by
      ext p
      simp only [Finset.mem_filter, Finset.mem_range, Finset.mem_erase, List.mem_append, List.mem_singleton]
      tauto
    rw [hset]
    split_ifs with hq
    · rw [Finset.card_erase_of_mem]
      exact Finset.mem_filter.mpr ⟨Finset.mem_range.mpr (hfield node q hq).1, hfresh, hq⟩
    · rw [Finset.erase_eq_of_notMem]
      simp [hq]
  · rw [hshift, hfold.indegree, List.mem_append, h.ready q hq, List.mem_filter, decide_eq_true_iff]
    by_cases hadj : q ∈ adjacency node
    · have hpositive : state.indegree q ≠ 0 := fun hzero => htarget q hadj ((h.ready q hq).mpr hzero)
      simp [hadj, hpositive]
    · simp [hadj]
  · intro p hp q hq
    rw [hbestdone p hp]
    rcases List.mem_append.mp hp with hp | hp
    · exact (h.relaxed p hp q hq).trans (hbestle q)
    · obtain rfl := List.mem_singleton.mp hp
      rw [hfold.best, if_pos hq]
      exact le_max_right _ _
  · rw [hfold.previous] at hq
    split_ifs at hq with himproved
    rw [hfold.best]
    split_ifs with hadj
    · exact (max_eq_left (not_lt.mp fun hlt => himproved ⟨hadj, hlt⟩)).trans (h.start q hq)
    · exact h.start q hq
  · rw [hfold.previous] at hp
    split_ifs at hp with himproved
    · obtain rfl := Option.some.inj hp
      refine ⟨by simp, himproved.1, ?_⟩
      rw [hbestdone node (by simp), hfold.best, if_pos himproved.1]
      exact max_eq_right himproved.2.le
    · obtain ⟨hdone, hadj, hbest⟩ := h.step q p hp
      refine ⟨List.mem_append_left _ hdone, hadj, ?_⟩
      rw [hbestdone p (List.mem_append_left _ hdone), ← hbest, hfold.best]
      split_ifs with hq
      · exact max_eq_left (not_lt.mp fun hlt => himproved ⟨hq, hlt⟩)
      · rfl
  · rw [hfold.processed, h.processed]
    simp

lemma KahnInv.iterate (h : KahnInv n adjacency w [] state) (hnodup : ∀ p, (adjacency p).Nodup)
    (hfield : ∀ p, ∀ q ∈ adjacency p, p < n ∧ q < n) :
    ∃ done, KahnInv n adjacency w done ((Profile.visit adjacency w)^[n] state) ∧
      ((Profile.visit adjacency w)^[n] state).queue = [] := by
  have hrun : ∀ turns, ∃ done, KahnInv n adjacency w done ((Profile.visit adjacency w)^[turns] state) ∧
      (((Profile.visit adjacency w)^[turns] state).queue = [] ∨ done.length = turns) := by
    intro turns
    induction turns with
    | zero => exact ⟨[], h, Or.inr rfl⟩
    | succ turns ih =>
      obtain ⟨done, hinv, hlen⟩ := ih
      rw [Function.iterate_succ_apply']
      cases hqueue : ((Profile.visit adjacency w)^[turns] state).queue with
      | nil =>
        have hend : Profile.visit adjacency w ((Profile.visit adjacency w)^[turns] state) =
            (Profile.visit adjacency w)^[turns] state := by
          rw [Profile.visit, hqueue]
        rw [hend]
        exact ⟨done, hinv, Or.inl hqueue⟩
      | cons node queue =>
        refine ⟨done ++ [node], hinv.visit hnodup hfield hqueue, Or.inr ?_⟩
        have hlen := hlen.resolve_left (by simp [hqueue])
        simp [hlen]
  obtain ⟨done, hinv, hlen⟩ := hrun n
  refine ⟨done, hinv, ?_⟩
  rcases hlen with hempty | hfull
  · exact hempty
  · have hlength : (done ++ ((Profile.visit adjacency w)^[n] state).queue).length ≤ (List.range n).length :=
      (hinv.nodup.subperm fun p hp => List.mem_range.mpr (hinv.lt p hp)).length_le
    rw [List.length_append, List.length_range, hfull] at hlength
    exact List.eq_nil_of_length_eq_zero (by omega)

lemma KahnInv.processed_eq_iff_mem (h : KahnInv n adjacency w done state) :
    state.processed = n ↔ ∀ q < n, q ∈ done := by
  have hnodup : done.Nodup := h.nodup.of_append_left
  have hlt : ∀ p ∈ done, p ∈ List.range n := fun p hp => List.mem_range.mpr (h.lt p (List.mem_append_left _ hp))
  rw [h.processed]
  constructor
  · intro hlen q hq
    have hperm : done.Perm (List.range n) := (hnodup.subperm hlt).perm_of_length_le (by simp [hlen])
    exact hperm.mem_iff.mpr (List.mem_range.mpr hq)
  · intro hall
    have hperm : done.Perm (List.range n) :=
      (List.perm_ext_iff_of_nodup hnodup List.nodup_range).mpr fun p =>
        ⟨hlt p, fun hp => hall p (List.mem_range.mp hp)⟩
    rw [hperm.length_eq, List.length_range]

lemma KahnInv.processed_eq_iff (h : KahnInv n adjacency w done state) (hend : state.queue = [])
    (hfield : ∀ p, ∀ q ∈ adjacency p, p < n ∧ q < n) :
    state.processed = n ↔ ¬ ∃ p, Relation.TransGen (fun p q => q ∈ adjacency p) p p := by
  have hnodup : done.Nodup := h.nodup.of_append_left
  have hready : ∀ q < n, q ∈ done ↔ state.indegree q = 0 := by simpa [hend] using h.ready
  rw [h.processed_eq_iff_mem]
  constructor
  · intro hall
    refine not_cycle_of_rank (fun p => done.idxOf p) fun p q hpq => ?_
    obtain ⟨front, rest, hsplit⟩ := List.append_of_mem (hall q (hfield p q hpq).2)
    have hp : p ∈ front := h.closed front q rest hsplit p hpq
    have hq : q ∉ front := by
      rw [hsplit] at hnodup
      exact fun hq => List.disjoint_of_nodup_append hnodup hq List.mem_cons_self
    rw [hsplit, List.idxOf_append_of_mem hp, List.idxOf_append_of_notMem hq]
    have := List.idxOf_lt_length_iff.mpr hp
    omega
  · intro hacyclic q hq
    have hsource : ∀ p q, q ∈ adjacency p → p ∈ Finset.range n :=
      fun p q hpq => Finset.mem_range.mpr (hfield p q hpq).1
    refine forall_of_acyclic hsource hacyclic (fun q hq hsources => ?_) q (Finset.mem_range.mpr hq)
    rw [hready q (Finset.mem_range.mp hq), h.indegree, Finset.card_eq_zero]
    refine Finset.filter_eq_empty_iff.mpr fun p _ hp => hp.1 (hsources p hp.2)

end

/-! ## The longest path -/

lemma lastBest_spec (best : ℕ → ℚ) (positions : List ℕ) : match lastBest best positions with
    | none => positions = []
    | some last => last ∈ positions ∧ ∀ p ∈ positions, best p ≤ best last := by
  induction positions using List.reverseRecOn with
  | nil => rfl
  | append_singleton positions position ih =>
    rw [lastBest, List.foldl_concat, ← lastBest]
    cases hlast : lastBest best positions with
    | none =>
      rw [hlast] at ih
      simp [ih]
    | some other =>
      rw [hlast] at ih
      obtain ⟨hmem, hle⟩ := ih
      dsimp only
      split_ifs with hless
      · refine ⟨List.mem_append_left _ hmem, fun p hp => ?_⟩
        rcases List.mem_append.mp hp with hp | hp
        · exact hle p hp
        · exact List.mem_singleton.mp hp ▸ hless.le
      · refine ⟨by simp, fun p hp => ?_⟩
        rcases List.mem_append.mp hp with hp | hp
        · exact (hle p hp).trans (not_lt.mp hless)
        · rw [List.mem_singleton.mp hp]

/-- A path of the edge graph. -/
structure IsPath (units : List TimingUnit) (path : List ℕ) : Prop where
  nonempty : path ≠ []
  isChain : path.IsChain (Edge units)
  lt : ∀ p ∈ path, p < units.length

section

variable {units : List TimingUnit}

lemma adjacency_lt {p q : ℕ} (h : q ∈ (unitGraph units).adjacency p) : p < units.length ∧ q < units.length := by
  obtain ⟨i, hi, hq⟩ := ((graphInv_unitGraph units).mem_iff p q).mp h
  obtain ⟨a, ha, -⟩ := mem_listedEdges.mp hi
  obtain ⟨b, hb, -⟩ := exists_unit_of_indexOf hq
  exact ⟨(List.getElem?_eq_some_iff.mp ha).1, (List.getElem?_eq_some_iff.mp hb).1⟩

lemma exists_kahnInv_walk (units : List TimingUnit) :
    ∃ done, KahnInv units.length (unitGraph units).adjacency (weight units) done (walk units) ∧
      (walk units).queue = [] := by
  have hgraph := graphInv_unitGraph units
  refine KahnInv.iterate ⟨?_, ?_, fun q => ?_, fun q hq => ?_, fun _ => le_rfl, ?_, fun _ _ => rfl, ?_, ?_, rfl⟩
    hgraph.nodup fun p q => adjacency_lt
  · exact List.nodup_range.filter _
  · exact fun p hp => List.mem_range.mp (List.mem_of_mem_filter hp)
  · simpa using hgraph.indegree q
  · simp [hq]
  · exact fun p hp => absurd hp List.not_mem_nil
  · exact fun q p hp => nomatch hp
  · exact fun front q rest hsplit => absurd hsplit (by simp)

lemma walk_spec (hdistinct : (units.map (·.i)).Nodup) :
    ((walk units).processed = units.length ↔ ¬ ∃ p, Relation.TransGen (Edge units) p p) ∧
    LongestPath.Accounted (Edge units) (weight units) (walk units).best (walk units).previous ∧
    ((walk units).processed = units.length → Relaxed (Edge units) (weight units) (walk units).best) := by
  obtain ⟨done, hinv, hend⟩ := exists_kahnInv_walk units
  have hcycle := hinv.processed_eq_iff hend fun p q => adjacency_lt
  have hedge : (fun p q => q ∈ (unitGraph units).adjacency p) = Edge units :=
    funext₂ fun p q => propext (mem_adjacency_iff hdistinct)
  rw [hedge] at hcycle
  refine ⟨hcycle, ⟨hinv.start, fun q p hp => ?_⟩, fun hfull => ⟨hinv.weight_le, fun p q hpq => ?_⟩⟩
  · obtain ⟨-, hadj, hbest⟩ := hinv.step q p hp
    exact ⟨(mem_adjacency_iff hdistinct).mp hadj, hbest⟩
  · refine hinv.relaxed p ?_ q ((mem_adjacency_iff hdistinct).mpr hpq)
    exact hinv.processed_eq_iff_mem.mp hfull p hpq.lt.1

lemma isPath_back (h : LongestPath.Accounted (Edge units) (weight units) (walk units).best (walk units).previous)
    {depth : ℕ} (hdepth : 0 < depth) {last : ℕ} (hlast : last < units.length) :
    IsPath units (back (walk units).previous depth last).reverse := by
  refine ⟨?_, List.isChain_reverse.mpr (isChain_back h depth last), fun p hp => ?_⟩
  · obtain ⟨depth, rfl⟩ := Nat.exists_eq_add_of_lt hdepth
    rw [Ne, List.reverse_eq_nil_iff, back]
    cases (walk units).previous last <;> simp
  · rcases source_of_mem_back h (List.mem_reverse.mp hp) with rfl | ⟨q, hpq⟩
    · exact hlast
    · exact hpq.lt.1

lemma IsPath.length_le {path : List ℕ} (h : IsPath units path)
    (hacyclic : ¬ ∃ p, Relation.TransGen (Edge units) p p) : path.length ≤ units.length := by
  have hsub : path.Subperm (List.range units.length) :=
    (nodup_of_isChain hacyclic h.isChain).subperm fun p hp => List.mem_range.mpr (h.lt p hp)
  simpa using hsub.length_le

lemma isGreatest_best (hdistinct : (units.map (·.i)).Nodup) (hfull : (walk units).processed = units.length)
    {last : ℕ} (hlast : last < units.length)
    (hgreatest : ∀ p ∈ List.range units.length, (walk units).best p ≤ (walk units).best last) :
    IsGreatest {total | ∃ path, IsPath units path ∧ total = (path.map (weight units)).sum}
      ((walk units).best last) := by
  obtain ⟨hcycle, haccounted, hrelaxed⟩ := walk_spec hdistinct
  constructor
  · have hpath := isPath_back haccounted (Nat.succ_pos units.length) hlast
    refine ⟨_, hpath, ?_⟩
    have hlen : (back (walk units).previous (units.length + 1) last).length < units.length + 1 := by
      simpa using Nat.lt_succ_of_le (hpath.length_le (hcycle.mp hfull))
    rw [List.map_reverse, List.sum_reverse, sum_back haccounted hlen]
  · rintro total ⟨path, hpath, rfl⟩
    obtain ⟨front, p, hsplit⟩ := (List.eq_nil_or_concat path).resolve_left hpath.nonempty
    rw [List.concat_eq_append] at hsplit
    subst hsplit
    calc ((front ++ [p]).map (weight units)).sum ≤ (walk units).best p :=
          sum_le_of_isChain (hrelaxed hfull) hpath.isChain
      _ ≤ (walk units).best last := hgreatest p (List.mem_range.mpr (hpath.lt p (by simp)))

lemma forall₂_rows {path : List ℕ} (h : ∀ p ∈ path, p < units.length) :
    List.Forall₂ (fun p row => ∃ unit, units[p]? = some unit ∧ row = criticalUnit unit) path
      (path.filterMap fun p => units[p]?.map criticalUnit) := by
  induction path with
  | nil => exact .nil
  | cons p path ih =>
    obtain ⟨unit, hunit⟩ : ∃ unit, units[p]? = some unit :=
      ⟨_, List.getElem?_eq_getElem (h p List.mem_cons_self)⟩
    have hrow : units[p]?.map criticalUnit = some (criticalUnit unit) := by rw [hunit, Option.map_some]
    rw [List.filterMap_cons, hrow]
    exact .cons ⟨unit, hunit, rfl⟩ (ih fun q hq => h q (List.mem_cons_of_mem _ hq))

lemma map_durationSecs {path : List ℕ} {rows : List CriticalPathUnit}
    (h : List.Forall₂ (fun p row => ∃ unit, units[p]? = some unit ∧ row = criticalUnit unit) path rows) :
    rows.map (·.durationSecs) = path.map (weight units) := by
  induction h with
  | nil => rfl
  | cons hrow _ ih =>
    obtain ⟨unit, hunit, rfl⟩ := hrow
    simp [ih, weight, hunit, criticalUnit]

/-- The critical path is a longest chain, missing only for an empty list and cycles. -/
theorem critical_path_longest (units : List TimingUnit) (hdistinct : (units.map (·.i)).Nodup) :
    ((∃ message, buildCriticalPath units = .error message) ↔ units = [] ∨ ∃ p, Relation.TransGen (Edge units) p p) ∧
    ∀ duration rows, buildCriticalPath units = .ok (duration, rows) →
      IsGreatest {total | ∃ path, IsPath units path ∧ total = (path.map (weight units)).sum} duration ∧
      (∃ path, IsPath units path ∧
        List.Forall₂ (fun p row => ∃ unit, units[p]? = some unit ∧ row = criticalUnit unit) path rows) ∧
      (rows.length < maxCriticalPathDepth → (rows.map (·.durationSecs)).sum = duration) := by
  obtain ⟨hcycle, haccounted, -⟩ := walk_spec hdistinct
  unfold buildCriticalPath
  by_cases hempty : units = []
  · rw [if_pos hempty]
    exact ⟨by simp [hempty], fun duration rows h => nomatch h⟩
  rw [if_neg hempty]
  by_cases hfull : (walk units).processed = units.length
  swap
  · have hcyclic := not_not.mp ((not_congr hcycle).mp hfull)
    dsimp only
    rw [if_pos hfull]
    exact ⟨by simp [hcyclic], fun duration rows h => nomatch h⟩
  · dsimp only
    rw [if_neg (not_not.mpr hfull)]
    have hspec := lastBest_spec (walk units).best (List.range units.length)
    cases hlast : lastBest (walk units).best (List.range units.length) with
    | none =>
      rw [hlast] at hspec
      exact absurd (List.length_eq_zero_iff.mp (List.range_eq_nil.mp hspec)) hempty
    | some last =>
      rw [hlast] at hspec
      obtain ⟨hmem, hgreatest⟩ := hspec
      have hlt : last < units.length := List.mem_range.mp hmem
      refine ⟨by simpa [hempty] using hcycle.mp hfull, fun duration rows h => ?_⟩
      obtain ⟨rfl, rfl⟩ := Prod.mk.inj (Except.ok.inj h)
      have hpath := isPath_back haccounted (show 0 < maxCriticalPathDepth by decide) hlt
      have hrows := forall₂_rows hpath.lt
      refine ⟨isGreatest_best hdistinct hfull hlt hgreatest, ⟨_, hpath, hrows⟩, fun hshort => ?_⟩
      rw [← hrows.length_eq, List.length_reverse] at hshort
      rw [map_durationSecs hrows, List.map_reverse, List.sum_reverse, sum_back haccounted hshort]

/-- The fixed report of a chain and a shortcut. -/
theorem critical_path_longest_chain :
    let units : List TimingUnit :=
      [⟨0, "base", "1.0.0", "lib", 0, 2, [1, 2, 9]⟩, ⟨1, "middle", "1.0.0", "lib", 2, 3, [2]⟩,
        ⟨2, "top", "1.0.0", "bin", 5, 4, []⟩]
    ∃ rows, buildCriticalPath units = .ok (9, rows) ∧
      IsGreatest {total | ∃ path, IsPath units path ∧ total = (path.map (weight units)).sum} 9 := by
  intro units
  have hpath : ∃ rows, buildCriticalPath units = .ok (9, rows) := by
    refine ⟨units.map criticalUnit, ?_⟩
    decide +kernel
  obtain ⟨rows, hrows⟩ := hpath
  exact ⟨rows, hrows, ((critical_path_longest units (by decide)).2 9 rows hrows).1⟩

end

end AgzRustMcp.Profile
