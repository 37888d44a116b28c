import AgzRustMcp.Foundation.Table
import AgzRustMcp.Lsp.Pool

/-!
# How many analyzers run

`ensure_capacity` lets a start go ahead when there is room besides all other starts, or, while there
is no instance yet, when it is one of the first `max_instances` pending starts in the order of their
roots.  That order changes when a start arrives: `running_le_iff` says that this is the only way to
exceed the bound, and when it does.
-/

namespace AgzRustMcp.Lsp

open Std (ExtTreeMap)

def StartOwner.isPending (owner : StartOwner) : Bool := decide (owner.phase ≠ .over)

/-- The owner has passed `ensure_capacity` and has not completed its start. -/
def StartOwner.isAdmitted (owner : StartOwner) : Bool := decide (owner.phase = .admitted)

namespace AnalyzerPool

variable {pool : AnalyzerPool} {k id : ℕ} {owner : StartOwner} {root : WorkspaceRoot}

/-- The pending owners are those of the starts, without instances. -/
structure StartsInv (pool : AnalyzerPool) : Prop where
  pending : ∀ (k : ℕ) (owner : StartOwner), pool.owners[k]? = some owner →
    owner.isPending = true → pool.starts[owner.root]? = some k
  unused : ∀ (root : WorkspaceRoot) (k : ℕ), pool.starts[root]? = some k → pool.instances[root]? = none
  size : pool.starts.size = pool.owners.countP StartOwner.isPending

/-- A start is let through because of its place only. -/
def PassesByPlace (pool : AnalyzerPool) : PoolEvent → Prop
  | .checkCapacity k => ∃ owner, pool.owners[k]? = some owner ∧ pool.mayCheck owner = true ∧
      pool.closing = false ∧ ¬ pool.reservedElsewhere < pool.maxInstances ∧
      pool.startupSlot owner.root = true
  | _ => False

/-- A start is let through while fewer than `max_instances` others are. -/
def PlacesHold (pool : AnalyzerPool) (event : PoolEvent) : Prop :=
  pool.PassesByPlace event → pool.owners.countP StartOwner.isAdmitted < pool.maxInstances

/-! ## What a step does to the starts -/

/-- What a step can do to the starts and to the number of instances. -/
inductive StartMove (pool : AnalyzerPool) (event : PoolEvent) (next : AnalyzerPool) : Prop
  | quiet (hmax : next.maxInstances = pool.maxInstances) (hstarts : next.starts = pool.starts)
      (howners : next.owners = pool.owners)
      (hinstances : next.instances = pool.instances ∨ ∃ root, next.instances = pool.instances.erase root)
  | begun (root : WorkspaceRoot) (hmax : next.maxInstances = pool.maxInstances) (hfree : pool.starts[root]? = none)
      (hunused : pool.instances[root]? = none)
      (hstarts : next.starts = pool.starts.insert root pool.owners.length)
      (howners : next.owners = pool.owners ++ [⟨root, .checking⟩])
      (hinstances : next.instances = pool.instances)
  | moved (k : ℕ) (owner : StartOwner) (phase : StartPhase)
      (hmax : next.maxInstances = pool.maxInstances) (hk : pool.owners[k]? = some owner)
      (hmay : pool.mayCheck owner = true) (hphase : phase ≠ .over)
      (howners : next.owners = (pool.setOwner k phase).owners) (hstarts : next.starts = pool.starts)
      (hinstances : next.instances = pool.instances)
      (hready : phase = .admitted → event = .checkCapacity k ∧ pool.closing = false ∧
        pool.capacityAction owner.root = .ready)
  | finished (k : ℕ) (owner : StartOwner) (hmax : next.maxInstances = pool.maxInstances)
      (hk : pool.owners[k]? = some owner)
      (hpending : owner.isPending = true) (howners : next.owners = (pool.setOwner k .over).owners)
      (hstarts : next.starts = pool.starts.erase owner.root)
      (hinstances : next.instances = pool.instances ∨
        owner.isAdmitted = true ∧ ∃ id, next.instances = pool.instances.insert owner.root id)

lemma pending_of_mayCheck (h : pool.mayCheck owner = true) : owner.isPending = true ∧ owner.isAdmitted = false := by
  obtain ⟨root, phase⟩ := owner
  cases phase <;> simp_all [mayCheck, StartOwner.isPending, StartOwner.isAdmitted]

lemma StartsInv.finishStart_eq (h : StartsInv pool) (hk : pool.owners[k]? = some owner)
    (hpending : owner.isPending = true) :
    pool.finishStart k owner = { pool.setOwner k .over with starts := pool.starts.erase owner.root } := by
  rw [finishStart, if_pos (h.pending k owner hk hpending)]

lemma fields_unregister (object : Instance) :
    (pool.unregister id object).maxInstances = pool.maxInstances ∧ (pool.unregister id object).starts = pool.starts ∧
      (pool.unregister id object).owners = pool.owners ∧ ((pool.unregister id object).instances = pool.instances ∨
        ∃ root, (pool.unregister id object).instances = pool.instances.erase root) := by
  unfold unregister
  split
  · exact ⟨rfl, rfl, rfl, Or.inr ⟨object.root, rfl⟩⟩
  · exact ⟨rfl, rfl, rfl, Or.inl rfl⟩

lemma StartMove.refl {event : PoolEvent} {next : AnalyzerPool} (hmax : next.maxInstances = pool.maxInstances)
    (hstarts : next.starts = pool.starts)
    (howners : next.owners = pool.owners) (hinstances : next.instances = pool.instances) :
    pool.StartMove event next :=
  .quiet hmax hstarts howners (Or.inl hinstances)

lemma startMove_acquire (root : WorkspaceRoot) (authorized : Bool) :
    pool.StartMove (.acquire root authorized) (pool.acquire root authorized) := by
  unfold acquire
  split
  · exact .refl rfl rfl rfl rfl
  split
  · split
    · exact .refl rfl rfl rfl rfl
    split
    · exact .refl rfl rfl rfl rfl
    split
    · exact .refl rfl rfl rfl rfl
    split <;> exact .refl rfl rfl rfl rfl
  · rename_i hunused
    by_cases hroot : pool.starts.contains root = true
    · rw [if_pos hroot]
      exact .refl rfl rfl rfl rfl
    · rw [if_neg hroot]
      refine .begun root rfl ?_ hunused rfl rfl rfl
      exact ExtTreeMap.getElem?_eq_none (by simpa using hroot)

lemma startMove_tryLease (root : WorkspaceRoot) (authorized cancelled : Bool) :
    pool.StartMove (.tryLease root authorized cancelled) (pool.tryLease root authorized cancelled).1 := by
  unfold tryLease
  split
  · exact .refl rfl rfl rfl rfl
  split
  · exact .refl rfl rfl rfl rfl
  split
  · exact .refl rfl rfl rfl rfl
  split
  · exact .refl rfl rfl rfl rfl
  split
  · exact .refl rfl rfl rfl rfl
  split <;> exact .refl rfl rfl rfl rfl

lemma StartsInv.startMove_checkCapacity (h : StartsInv pool) :
    pool.StartMove (.checkCapacity k) (pool.checkCapacity k) := by
  unfold checkCapacity
  split
  · exact .refl rfl rfl rfl rfl
  rename_i owner hk
  split
  case isFalse => exact .refl rfl rfl rfl rfl
  rename_i hmay
  have hpending := pending_of_mayCheck hmay
  split
  · rw [h.finishStart_eq hk hpending.1]
    exact .finished k owner rfl hk hpending.1 rfl rfl (Or.inl rfl)
  rename_i hopen
  split
  · rename_i hready
    exact .moved k owner .admitted rfl hk hmay (by simp) rfl rfl rfl
      fun _ => ⟨rfl, by simpa using hopen, hready⟩
  · exact .moved k owner _ rfl hk hmay (by simp) rfl rfl rfl (by simp)
  · exact .moved k owner .checking rfl hk hmay (by simp) rfl rfl rfl (by simp)

lemma StartsInv.startMove_failStart (h : StartsInv pool) : pool.StartMove (.failStart k) (pool.failStart k) := by
  unfold failStart
  split
  · exact .refl rfl rfl rfl rfl
  rename_i owner hk
  split
  case isFalse => exact .refl rfl rfl rfl rfl
  rename_i hphase
  have hpending : owner.isPending = true := by
    rcases hphase with hmay | hadmitted
    · exact (pending_of_mayCheck hmay).1
    · simp [StartOwner.isPending, hadmitted]
  rw [h.finishStart_eq hk hpending]
  exact .finished k owner rfl hk hpending rfl rfl (Or.inl rfl)

lemma StartsInv.startMove_completeStart (h : StartsInv pool) (closed : Bool) :
    pool.StartMove (.completeStart k closed) (pool.completeStart k closed) := by
  unfold completeStart
  split
  · exact .refl rfl rfl rfl rfl
  rename_i owner hk
  split
  case isFalse => exact .refl rfl rfl rfl rfl
  rename_i hadmitted
  have hpending : owner.isPending = true := by simp [StartOwner.isPending, hadmitted]
  have hcurrent := h.pending k owner hk hpending
  have hpassed : owner.isAdmitted = true := by simp [StartOwner.isAdmitted, hadmitted]
  dsimp only
  unfold finishStart
  rw [if_pos hcurrent]
  split <;> exact .finished k owner rfl hk hpending rfl rfl
    (Or.inr ⟨hpassed, _, rfl⟩)

lemma StartsInv.startMove (h : StartsInv pool) (event : PoolEvent) : pool.StartMove event (pool.step event) := by
  cases event with
  | tick => exact .refl rfl rfl rfl rfl
  | acquire root authorized => exact startMove_acquire root authorized
  | tryLease root authorized cancelled => exact startMove_tryLease root authorized cancelled
  | dropLease index =>
    change pool.StartMove _ (pool.dropLease index)
    unfold dropLease
    split <;> exact .refl rfl rfl rfl rfl
  | checkCapacity k => exact h.startMove_checkCapacity
  | failStart k => exact h.startMove_failStart
  | completeStart k closed => exact h.startMove_completeStart closed
  | sweepIdle =>
    change pool.StartMove _ pool.sweepIdle
    unfold sweepIdle
    split <;> exact .refl rfl rfl rfl rfl
  | markStopping k =>
    change pool.StartMove _ (pool.markStopping k)
    unfold markStopping
    split
    · split
      · exact .refl rfl rfl rfl rfl
      split <;> exact .refl rfl rfl rfl rfl
    · exact .refl rfl rfl rfl rfl
  | shutdown k outcome =>
    change pool.StartMove _ (pool.shutdown k outcome)
    unfold shutdown
    split
    · split
      · exact .refl rfl rfl rfl rfl
      rename_i object _
      split
      · exact .quiet (fields_unregister object).1 (fields_unregister object).2.1
          (fields_unregister object).2.2.1 (fields_unregister object).2.2.2
      · exact .refl rfl rfl rfl rfl
    · exact .refl rfl rfl rfl rfl
  | waitEnds k =>
    change pool.StartMove _ (pool.waitEnds k)
    unfold waitEnds
    split <;> exact .refl rfl rfl rfl rfl
  | clientCloses id => exact .refl rfl rfl rfl rfl
  | processExits id =>
    change pool.StartMove _ (pool.processExits id)
    unfold processExits
    split
    · exact .refl rfl rfl rfl rfl
    rename_i object _
    split
    · exact .quiet (fields_unregister object).1 (fields_unregister object).2.1
        (fields_unregister object).2.2.1 (fields_unregister object).2.2.2
    · exact .refl rfl rfl rfl rfl
  | beginClose => exact .refl rfl rfl rfl rfl
  | closeVisits id expired =>
    change pool.StartMove _ (pool.closeVisits id expired)
    unfold closeVisits
    split
    · exact .refl rfl rfl rfl rfl
    split <;> exact .refl rfl rfl rfl rfl

lemma startsInv_empty (maxInstances idle : ℕ) : StartsInv (empty maxInstances idle) where
  pending k owner hk := by simp [empty] at hk
  unused root k hk := by simp [empty] at hk
  size := by simp [empty]

/-- A step keeps the starts and their owners together. -/
lemma StartsInv.step (h : StartsInv pool) (event : PoolEvent) : StartsInv (pool.step event) := by
  cases h.startMove event with
  | quiet _ hstarts howners hinstances =>
    constructor
    · rw [hstarts, howners]
      exact h.pending
    · intro root k hk
      rw [hstarts] at hk
      have hunused := h.unused root k hk
      rcases hinstances with hsame | ⟨other, herased⟩
      · rw [hsame, hunused]
      · rw [herased, ExtTreeMap.getElem?_erase, hunused, ite_self]
    · rw [hstarts, howners]
      exact h.size
  | begun root _ hfree hunused hstarts howners hinstances =>
    constructor
    · intro k owner hk hpending
      rw [howners, Table.getElem?_append_singleton_eq_some_iff] at hk
      rw [hstarts, ExtTreeMap.getElem?_insert]
      rcases hk with hold | ⟨rfl, rfl⟩
      · have hcurrent := h.pending k owner hold hpending
        have hne : root ≠ owner.root := by
          rintro rfl
          rw [hfree] at hcurrent
          cases hcurrent
        rw [if_neg (by simpa using hne)]
        exact hcurrent
      · rw [if_pos (by simp)]
    · intro other k hk
      rw [hstarts, ExtTreeMap.getElem?_insert] at hk
      rw [hinstances]
      split at hk
      · rename_i heq
        obtain rfl : root = other := by simpa using heq
        exact hunused
      · exact h.unused other k hk
    · have hnew : pool.starts.contains root = false := by
        rw [ExtTreeMap.contains_eq_isSome_getElem?, hfree]
        rfl
      rw [hstarts, howners, ExtTreeMap.size_insert, hnew, List.countP_append, h.size]
      simp [StartOwner.isPending]
  | moved k owner phase _ hk hmay hphase howners hstarts hinstances _ =>
    have hpending := (pending_of_mayCheck hmay).1
    have hstays : ({ owner with phase } : StartOwner).isPending = true := by
      simpa [StartOwner.isPending] using hphase
    constructor
    · intro j other hj hother
      rw [howners, owners_setOwner, Table.getElem?_modify_eq_some_iff] at hj
      obtain ⟨before, hbefore, rfl⟩ := hj
      rw [hstarts]
      by_cases hkj : k = j
      · subst hkj
        obtain rfl : before = owner := Option.some.inj (hbefore.symm.trans hk)
        rw [if_pos rfl]
        exact h.pending k before hk hpending
      · rw [if_neg hkj] at hother ⊢
        exact h.pending j before hbefore hother
    · intro root j hj
      rw [hinstances]
      exact h.unused root j (hstarts ▸ hj)
    · have hcount := Table.countP_modify (p := StartOwner.isPending)
        (f := fun owner => { owner with phase }) hk
      rw [if_pos hpending, if_pos hstays] at hcount
      rw [hstarts, howners, owners_setOwner, h.size]
      omega
  | finished k owner _ hk hpending howners hstarts hinstances =>
    have hcurrent := h.pending k owner hk hpending
    constructor
    · intro j other hj hother
      rw [howners, owners_setOwner, Table.getElem?_modify_eq_some_iff] at hj
      obtain ⟨before, hbefore, rfl⟩ := hj
      by_cases hkj : k = j
      · rw [if_pos hkj] at hother
        simp [StartOwner.isPending] at hother
      · rw [if_neg hkj] at hother ⊢
        have hother' := h.pending j before hbefore hother
        have hne : owner.root ≠ before.root := by
          intro heq
          rw [heq, hother'] at hcurrent
          exact hkj (Option.some.inj hcurrent).symm
        rw [hstarts, ExtTreeMap.getElem?_erase, if_neg (by simpa using hne)]
        exact hother'
    · intro root j hj
      rw [hstarts, ExtTreeMap.getElem?_erase] at hj
      split at hj
      · cases hj
      · rename_i hne
        have hunused := h.unused root j hj
        rcases hinstances with hsame | ⟨-, id, hinserted⟩
        · rw [hsame, hunused]
        · rw [hinserted, ExtTreeMap.getElem?_insert, if_neg hne, hunused]
    · have hcount := Table.countP_modify (p := StartOwner.isPending)
        (f := fun owner => { owner with phase := .over }) hk
      have hover : ({ owner with phase := .over } : StartOwner).isPending = false := by
        simp [StartOwner.isPending]
      have hmem : pool.starts.contains owner.root = true := by
        rw [ExtTreeMap.contains_eq_isSome_getElem?, hcurrent]
        rfl
      rw [if_pos hpending, hover] at hcount
      rw [hstarts, howners, owners_setOwner, ExtTreeMap.size_erase, if_pos hmem, h.size]
      simp only [Bool.false_eq_true, if_false] at hcount
      omega

/-! ## The number of analyzers -/

lemma running_eq (pool : AnalyzerPool) :
    pool.running = pool.instances.size + pool.owners.countP StartOwner.isAdmitted := rfl

lemma countP_admitted_lt (hk : pool.owners[k]? = some owner) (hpending : owner.isPending = true)
    (hwaits : owner.isAdmitted = false) :
    pool.owners.countP StartOwner.isAdmitted < pool.owners.countP StartOwner.isPending := by
  -- If the owner were admitted as well, the admitted starts would still be among the pending ones.
  have hadmitted := Table.countP_modify (p := StartOwner.isAdmitted)
    (f := fun owner => { owner with phase := .admitted }) hk
  have hstays := Table.countP_modify (p := StartOwner.isPending)
    (f := fun owner => { owner with phase := .admitted }) hk
  have hle := List.countP_mono_left
    (l := pool.owners.modify k fun owner => { owner with phase := .admitted })
    (p := StartOwner.isAdmitted) (q := StartOwner.isPending) fun other _ hother => by
      simp only [StartOwner.isAdmitted, StartOwner.isPending, decide_eq_true_eq] at hother ⊢
      simp [hother]
  rw [hwaits] at hadmitted
  rw [hpending] at hstays
  simp [StartOwner.isAdmitted, StartOwner.isPending] at hadmitted hstays hle
  omega

lemma step_checkCapacity_of_ready (hk : pool.owners[k]? = some owner)
    (hmay : pool.mayCheck owner = true) (hopen : pool.closing = false)
    (hready : pool.capacityAction owner.root = .ready) :
    pool.step (.checkCapacity k) = pool.setOwner k .admitted := by
  change pool.checkCapacity k = _
  simp [checkCapacity, hk, hmay, hopen, hready]

lemma capacityAction_eq_ready_iff : pool.capacityAction root = .ready ↔
      pool.reservedElsewhere < pool.maxInstances ∨ pool.startupSlot root = true := by
  unfold capacityAction
  split
  · simp_all
  · rename_i hfull
    split <;> simp [hfull]

lemma size_eq_zero_of_startupSlot (h : pool.startupSlot root = true) : pool.instances.size = 0 := by
  simp only [startupSlot, Bool.and_eq_true] at h
  have hempty : pool.instances = ∅ := by simpa using h.1
  rw [hempty]
  exact ExtTreeMap.size_empty

lemma running_setOwner_admitted (hk : pool.owners[k]? = some owner) (hwaits : owner.isAdmitted = false) :
    (pool.setOwner k .admitted).running = pool.running + 1 := by
  have hcount := Table.countP_modify (p := StartOwner.isAdmitted)
    (f := fun owner => { owner with phase := .admitted }) hk
  rw [hwaits] at hcount
  rw [running_eq, running_eq, owners_setOwner]
  simp [StartOwner.isAdmitted] at hcount ⊢
  change pool.instances.size + _ = _
  omega

lemma running_of_passesByPlace {event : PoolEvent} (h : pool.PassesByPlace event) :
    (pool.step event).running ≤ (pool.step event).maxInstances ↔
      pool.owners.countP StartOwner.isAdmitted < pool.maxInstances := by
  cases event with
  | checkCapacity k =>
    obtain ⟨owner, hk, hmay, hopen, -, hslot⟩ := h
    have hready : pool.capacityAction owner.root = .ready :=
      capacityAction_eq_ready_iff.mpr (Or.inr hslot)
    have hzero := size_eq_zero_of_startupSlot hslot
    rw [step_checkCapacity_of_ready hk hmay hopen hready,
      running_setOwner_admitted hk (pending_of_mayCheck hmay).2, running_eq, hzero]
    change 0 + _ + 1 ≤ pool.maxInstances ↔ _
    omega
  | _ => exact h.elim

lemma StartsInv.running_of_not_passesByPlace (h : StartsInv pool)
    (hbound : pool.running ≤ pool.maxInstances) {event : PoolEvent} (hplace : ¬ pool.PassesByPlace event) :
    (pool.step event).running ≤ (pool.step event).maxInstances := by
  rw [running_eq] at hbound
  rw [running_eq]
  cases h.startMove event with
  | quiet hmax _ howners hinstances =>
    have hsize : (pool.step event).instances.size ≤ pool.instances.size := by
      rcases hinstances with hsame | ⟨root, herased⟩
      · rw [hsame]
      · rw [herased]
        exact ExtTreeMap.size_erase_le
    rw [hmax, howners]
    omega
  | begun root hmax _ _ _ howners hinstances =>
    rw [hmax, howners, hinstances, List.countP_append]
    simpa [StartOwner.isAdmitted] using hbound
  | moved k owner phase hmax hk hmay _ howners _ hinstances hready =>
    have hpending := pending_of_mayCheck hmay
    by_cases hphase : phase = .admitted
    · subst hphase
      obtain ⟨rfl, hopen, hroom⟩ := hready rfl
      have hfew : pool.reservedElsewhere < pool.maxInstances := by
        by_contra hfull
        refine hplace ⟨owner, hk, hmay, hopen, hfull, ?_⟩
        exact (capacityAction_eq_ready_iff.mp hroom).resolve_left hfull
      -- There is room for all pending starts, and the new one was pending but not admitted.
      have hlt := countP_admitted_lt hk hpending.1 hpending.2
      have hnext := running_setOwner_admitted hk hpending.2
      rw [running_eq, running_eq] at hnext
      change pool.instances.size + _ = _ at hnext
      rw [hmax, howners, hinstances, hnext]
      rw [reservedElsewhere, h.size] at hfew
      omega
    · have hcount := Table.countP_modify (p := StartOwner.isAdmitted)
        (f := fun owner => { owner with phase }) hk
      rw [hpending.2] at hcount
      rw [hmax, howners, hinstances, owners_setOwner]
      simp [StartOwner.isAdmitted, hphase] at hcount hbound ⊢
      omega
  | finished k owner hmax hk _ howners _ hinstances =>
    have hsize : (pool.step event).instances.size ≤ pool.instances.size + if owner.isAdmitted then 1 else 0 := by
      rcases hinstances with hsame | ⟨hpassed, id, hinserted⟩
      · rw [hsame]
        exact Nat.le_add_right _ _
      · rw [hinserted, if_pos hpassed]
        exact ExtTreeMap.size_insert_le
    have hcount := Table.countP_modify (p := StartOwner.isAdmitted)
      (f := fun owner => { owner with phase := .over }) hk
    have hover : ({ owner with phase := .over } : StartOwner).isAdmitted = false := by
      simp [StartOwner.isAdmitted]
    rw [hover] at hcount
    rw [hmax, howners, owners_setOwner]
    simp only [Bool.false_eq_true, if_false] at hcount
    omega

lemma StartsInv.running_step (h : StartsInv pool) (event : PoolEvent) (hbound : pool.running ≤ pool.maxInstances) :
    (pool.step event).running ≤ (pool.step event).maxInstances ↔ pool.PlacesHold event := by
  by_cases hplace : pool.PassesByPlace event
  · rw [running_of_passesByPlace hplace]
    exact ⟨fun hfew _ => hfew, fun hhold => hhold hplace⟩
  · exact iff_of_true (h.running_of_not_passesByPlace hbound hplace)
      fun hpasses => absurd hpasses hplace

/-- The instances and the admitted starts are never more than `max_instances`, exactly when no start
is let through by its place while that many are. -/
theorem running_le_iff (maxInstances idle : ℕ) (events : List PoolEvent) :
    Runs.Throughout step (fun pool => pool.running ≤ pool.maxInstances)
        (empty maxInstances idle) events ↔
      Runs.Along step PlacesHold (empty maxInstances idle) events := by
  refine Runs.throughout_iff_along (I := StartsInv) (fun _ event hpool => hpool.step event)
    (fun _ event hpool hbound => hpool.running_step event hbound)
    (startsInv_empty maxInstances idle) ?_
  simp [running_eq, empty]

/-- The start of `b` goes ahead of `a`, the first in the order. -/
theorem two_starts_exceed_one :
    (empty 1 60).maxInstances < ((empty 1 60).run [.acquire ["b"] true, .checkCapacity 0, .acquire ["a"] true,
        .checkCapacity 1, .completeStart 0 false, .completeStart 1 false]).running := by
  decide +kernel

end AnalyzerPool

end AgzRustMcp.Lsp
