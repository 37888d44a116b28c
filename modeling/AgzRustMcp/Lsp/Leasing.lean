import AgzRustMcp.Lsp.Capacity

/-!
# Leases

`mark_stopping` looks at the lease count under the lock under which `try_lease` raises it, and
`try_lease` looks at the mark.  So an instance that was stopped without force has no lease and gets
none (`leases_are_safe`).
-/

namespace AgzRustMcp.Lsp

open Std (ExtTreeMap)

/-- The attempt has marked its instance: it shuts its client down, or has tried to. -/
def StopAttempt.HasMarked (attempt : StopAttempt) : Prop :=
  attempt.phase = .shutting ∨ ∃ result, attempt.phase = .over true result

namespace AnalyzerPool

variable {pool next : AnalyzerPool} {k id : ℕ} {object : Instance}

/-! ## What a step does to the instances -/

/-- What a step can do to the objects, the registry, the stop attempts and the leases. -/
inductive StopMove (pool : AnalyzerPool) (event : PoolEvent) (next : AnalyzerPool) : Prop
  | keeps (hobjects : next.objects = pool.objects) (hinstances : next.instances = pool.instances)
      (hattempts : ∃ calls, (∀ call ∈ calls, StopAttempt.phase call = .marking) ∧
        next.attempts = pool.attempts ++ calls)
      (hleases : next.leases = pool.leases)
  | touches (id : ℕ) (change : Instance → Instance)
      (hchange : ∀ object, (change object).root = object.root ∧
        (change object).active = object.active ∧ (change object).stopping = object.stopping)
      (hobjects : next.objects = pool.objects.modify id change)
      (hinstances : next.instances = pool.instances)
      (hattempts : next.attempts = pool.attempts) (hleases : next.leases = pool.leases)
  | grants (id : ℕ) (object : Instance) (hid : pool.objects[id]? = some object)
      (hopen : object.stopping = false)
      (hobjects : next.objects = pool.objects.modify id fun object =>
        { object with active := object.active + 1, lastUsed := pool.now })
      (hinstances : next.instances = pool.instances)
      (hattempts : next.attempts = pool.attempts) (hleases : next.leases = pool.leases ++ [id])
  | drops (index id : ℕ) (hindex : pool.leases[index]? = some id)
      (hobjects : next.objects = pool.objects.modify id fun object =>
        if object.active = 0 then object
        else { object with active := object.active - 1, lastUsed := pool.now })
      (hinstances : next.instances = pool.instances)
      (hattempts : next.attempts = pool.attempts)
      (hleases : next.leases = pool.leases.eraseIdx index)
  | registers (root : WorkspaceRoot) (closed : Bool) (hunused : pool.instances[root]? = none)
      (hobjects : next.objects = pool.objects ++ [Instance.new root pool.now closed])
      (hinstances : next.instances = pool.instances.insert root pool.objects.length)
      (hattempts : ∃ calls, (∀ call ∈ calls, StopAttempt.phase call = .marking) ∧
        next.attempts = pool.attempts ++ calls)
      (hleases : next.leases = pool.leases)
  | marks (k id : ℕ) (cause : StopCause) (object : Instance)
      (hk : pool.attempts[k]? = some ⟨id, cause, .marking⟩) (hid : pool.objects[id]? = some object)
      (hmark : pool.canMark id object cause.force = true)
      (hobjects : next.objects = pool.objects.modify id fun object =>
        { object with stopping := true })
      (hinstances : next.instances = pool.instances)
      (hattempts : next.attempts = (pool.setAttempt k .shutting).attempts)
      (hleases : next.leases = pool.leases)
  | waits (k : ℕ) (attempt : StopAttempt) (phase : StopPhase)
      (hk : pool.attempts[k]? = some attempt)
      (hbefore : attempt.phase = .marking ∨ attempt.phase = .waiting)
      (hphase : phase = .waiting ∨ ∃ result, phase = .over false result)
      (hobjects : next.objects = pool.objects) (hinstances : next.instances = pool.instances)
      (hattempts : next.attempts = (pool.setAttempt k phase).attempts)
      (hleases : next.leases = pool.leases)
  | succeeds (k id : ℕ) (cause : StopCause) (object : Instance)
      (hk : pool.attempts[k]? = some ⟨id, cause, .shutting⟩) (hid : pool.objects[id]? = some object)
      (hobjects : next.objects = pool.objects.modify id fun object =>
        { object with stopped := true })
      (hinstances : next.instances = (pool.unregister id object).instances)
      (hattempts : next.attempts = (pool.setAttempt k (.over true true)).attempts)
      (hleases : next.leases = pool.leases)
  | fails (k id : ℕ) (cause : StopCause) (object : Instance) (outcome : ShutdownOutcome)
      (hevent : event = .shutdown k outcome)
      (hk : pool.attempts[k]? = some ⟨id, cause, .shutting⟩) (hid : pool.objects[id]? = some object)
      (hfailed : outcome.completed object = false)
      (hobjects : next.objects = pool.objects) (hinstances : next.instances = pool.instances)
      (hattempts : next.attempts = (pool.setAttempt k (.over true false)).attempts)
      (hleases : next.leases = pool.leases)
  | exits (id : ℕ) (object : Instance) (hevent : event = .processExits id)
      (hid : pool.objects[id]? = some object) (change : Instance → Instance)
      (hchange : ∀ object, (change object).root = object.root ∧
        (change object).active = object.active ∧ (change object).stopping = object.stopping)
      (hobjects : next.objects = pool.objects.modify id change)
      (hinstances : next.instances = (pool.unregister id object).instances)
      (hattempts : next.attempts = pool.attempts) (hleases : next.leases = pool.leases)

variable {event : PoolEvent} {change : Instance → Instance}

lemma StopMove.refl (hobjects : next.objects = pool.objects)
    (hinstances : next.instances = pool.instances) (hattempts : next.attempts = pool.attempts)
    (hleases : next.leases = pool.leases) : pool.StopMove event next :=
  .keeps hobjects hinstances ⟨[], by simp, by simp [hattempts]⟩ hleases

lemma stopMove_modifyObject (hchange : ∀ object, (change object).root = object.root ∧
      (change object).active = object.active ∧ (change object).stopping = object.stopping) :
    pool.StopMove event (pool.modifyObject id change) :=
  .touches id change hchange rfl rfl rfl rfl

lemma stopMove_addAttempt (cause : StopCause) : pool.StopMove event (pool.addAttempt id cause) :=
  .keeps rfl rfl ⟨[⟨id, cause, .marking⟩], by simp, rfl⟩ rfl

lemma stopMove_acquire (root : WorkspaceRoot) (authorized : Bool) :
    pool.StopMove (.acquire root authorized) (pool.acquire root authorized) := by
  unfold acquire
  split
  · exact .refl rfl rfl rfl rfl
  split
  · rename_i id _
    split
    · exact .refl rfl rfl rfl rfl
    split
    · exact .refl rfl rfl rfl rfl
    split
    · exact stopMove_addAttempt .closedClient
    split
    · exact stopMove_modifyObject fun _ => ⟨rfl, rfl, rfl⟩
    · exact .refl rfl rfl rfl rfl
  · split <;> exact .refl rfl rfl rfl rfl

lemma stopMove_tryLease (root : WorkspaceRoot) (authorized cancelled : Bool) :
    pool.StopMove (.tryLease root authorized cancelled) (pool.tryLease root authorized cancelled).1 := by
  unfold tryLease
  split
  · exact .refl rfl rfl rfl rfl
  split
  · exact .refl rfl rfl rfl rfl
  rename_i id _
  split
  · exact .refl rfl rfl rfl rfl
  rename_i object hid
  split
  · exact .refl rfl rfl rfl rfl
  rename_i hopen
  split
  · exact .refl rfl rfl rfl rfl
  split
  · exact stopMove_modifyObject fun _ => ⟨rfl, rfl, rfl⟩
  · exact .grants id object hid (by simpa using fun h => hopen (Or.inl h)) rfl rfl rfl rfl

lemma fields_finishStart (pool : AnalyzerPool) (k : ℕ) (owner : StartOwner) :
    (pool.finishStart k owner).objects = pool.objects ∧ (pool.finishStart k owner).instances = pool.instances ∧
      (pool.finishStart k owner).attempts = pool.attempts ∧ (pool.finishStart k owner).leases = pool.leases := by
  unfold finishStart
  split <;> exact ⟨rfl, rfl, rfl, rfl⟩

lemma stopMove_finishStart (owner : StartOwner) : pool.StopMove event (pool.finishStart k owner) := by
  obtain ⟨hobjects, hinstances, hattempts, hleases⟩ := fields_finishStart pool _ owner
  exact .refl hobjects hinstances hattempts hleases

lemma StartsInv.stopMove_completeStart (h : StartsInv pool) (closed : Bool) :
    pool.StopMove (.completeStart k closed) (pool.completeStart k closed) := by
  unfold completeStart
  split
  · exact .refl rfl rfl rfl rfl
  rename_i owner hk
  split
  case isFalse => exact .refl rfl rfl rfl rfl
  rename_i hadmitted
  have hpending : owner.isPending = true := by simp [StartOwner.isPending, hadmitted]
  have hunused := h.unused owner.root k (h.pending k owner hk hpending)
  dsimp only
  generalize hregistered : ({ pool with
    objects := pool.objects ++ [Instance.new owner.root pool.now closed]
    instances := pool.instances.insert owner.root pool.objects.length } : AnalyzerPool) = registered
  obtain ⟨hobjects, hinstances, hattempts, hleases⟩ :=
    fields_finishStart registered k owner
  subst hregistered
  split
  · exact .registers owner.root closed hunused hobjects hinstances
      ⟨[⟨pool.objects.length, .startedWhileClosing, .marking⟩], by simp, by
        rw [addAttempt, hattempts]⟩ hleases
  · exact .registers owner.root closed hunused hobjects hinstances ⟨[], by simp, by simp [hattempts]⟩
      hleases

/-- Every step is one of these moves. -/
lemma StartsInv.stopMove (h : StartsInv pool) (event : PoolEvent) : pool.StopMove event (pool.step event) := by
  cases event with
  | tick => exact .refl rfl rfl rfl rfl
  | acquire root authorized => exact stopMove_acquire root authorized
  | tryLease root authorized cancelled => exact stopMove_tryLease root authorized cancelled
  | dropLease index =>
    change pool.StopMove _ (pool.dropLease index)
    unfold dropLease
    split
    · exact .refl rfl rfl rfl rfl
    · rename_i id hindex
      exact .drops index id hindex rfl rfl rfl rfl
  | checkCapacity k =>
    change pool.StopMove _ (pool.checkCapacity k)
    unfold checkCapacity
    split
    · exact .refl rfl rfl rfl rfl
    rename_i owner _
    split
    case isFalse => exact .refl rfl rfl rfl rfl
    split
    · exact stopMove_finishStart owner
    split
    · exact .refl rfl rfl rfl rfl
    · rename_i id _
      exact .keeps rfl rfl ⟨[⟨id, .eviction, .marking⟩], by simp, rfl⟩ rfl
    · exact .refl rfl rfl rfl rfl
  | failStart k =>
    change pool.StopMove _ (pool.failStart k)
    unfold failStart
    split
    · exact .refl rfl rfl rfl rfl
    rename_i owner _
    split
    · exact stopMove_finishStart owner
    · exact .refl rfl rfl rfl rfl
  | completeStart k closed => exact h.stopMove_completeStart closed
  | sweepIdle =>
    change pool.StopMove _ pool.sweepIdle
    unfold sweepIdle
    split
    · exact .refl rfl rfl rfl rfl
    · refine .keeps rfl rfl ⟨_, ?_, rfl⟩ rfl
      intro call hcall
      obtain ⟨id, -, rfl⟩ := List.mem_map.mp hcall
      rfl
  | markStopping k =>
    change pool.StopMove _ (pool.markStopping k)
    unfold markStopping
    split
    case h_2 => exact .refl rfl rfl rfl rfl
    rename_i id cause hk
    split
    · exact .refl rfl rfl rfl rfl
    rename_i object hid
    split
    · rename_i hmark
      exact .marks k id cause object hk hid hmark rfl rfl rfl rfl
    · exact .waits k _ .waiting hk (Or.inl rfl) (Or.inl rfl) rfl rfl rfl rfl
  | shutdown k outcome =>
    change pool.StopMove _ (pool.shutdown k outcome)
    unfold shutdown
    split
    case h_2 => exact .refl rfl rfl rfl rfl
    rename_i id cause hk
    split
    · exact .refl rfl rfl rfl rfl
    rename_i object hid
    by_cases hcompleted : outcome.completed object = true
    · rw [if_pos hcompleted]
      refine .succeeds k id cause object hk hid ?_ rfl ?_ ?_
      all_goals
        unfold unregister
        split <;> rfl
    · rw [if_neg hcompleted]
      exact .fails k id cause object outcome rfl hk hid (by simpa using hcompleted) rfl rfl rfl rfl
  | waitEnds k =>
    change pool.StopMove _ (pool.waitEnds k)
    unfold waitEnds
    split
    · rename_i id cause hk
      exact .waits k _ _ hk (Or.inr rfl) (Or.inr ⟨_, rfl⟩) rfl rfl rfl rfl
    · exact .refl rfl rfl rfl rfl
  | clientCloses id => exact stopMove_modifyObject fun _ => ⟨rfl, rfl, rfl⟩
  | processExits id =>
    change pool.StopMove _ (pool.processExits id)
    unfold processExits
    split
    · exact .refl rfl rfl rfl rfl
    rename_i object hid
    by_cases hregistered : pool.instances[object.root]? = some id
    · rw [if_pos hregistered]
      refine .exits id object rfl hid
        (fun object => { object with closed := true, stopped := true }) (fun _ => ⟨rfl, rfl, rfl⟩)
        ?_ rfl ?_ ?_
      all_goals
        unfold unregister
        rw [if_pos hregistered]
        rfl
    · rw [if_neg hregistered]
      exact stopMove_modifyObject fun _ => ⟨rfl, rfl, rfl⟩
  | beginClose => exact .refl rfl rfl rfl rfl
  | closeVisits id expired =>
    change pool.StopMove _ (pool.closeVisits id expired)
    unfold closeVisits
    split
    · exact .refl rfl rfl rfl rfl
    split
    · exact stopMove_addAttempt _
    · exact .refl rfl rfl rfl rfl

/-! ## Leases -/

/-- The object is marked and nobody counts as using it. -/
def Quiesced (pool : AnalyzerPool) (id : ℕ) : Prop :=
  ∃ object, pool.objects[id]? = some object ∧ object.stopping = true ∧ object.active = 0

/-- The counts are right, and unforced marked instances have no lease. -/
structure LeasesInv (pool : AnalyzerPool) : Prop where
  active : ∀ (id : ℕ) (object : Instance), pool.objects[id]? = some object → object.active = pool.leases.count id
  known : ∀ id ∈ pool.leases, id < pool.objects.length
  unforced : ∀ attempt ∈ pool.attempts, attempt.HasMarked → attempt.cause.force = false → pool.Quiesced attempt.object

lemma Quiesced.modify (h : pool.Quiesced id) (hobjects : next.objects = pool.objects.modify k change)
    (hchange : ∀ object, pool.objects[k]? = some object → object.stopping = true →
      object.active = 0 → (change object).stopping = true ∧ (change object).active = 0) : next.Quiesced id := by
  obtain ⟨object, hid, hstopping, hactive⟩ := h
  refine ⟨if k = id then change object else object, ?_, ?_⟩
  · rw [hobjects, Table.getElem?_modify_eq_some_iff]
    exact ⟨object, hid, rfl⟩
  · split
    · rename_i heq
      subst heq
      exact hchange object hid hstopping hactive
    · exact ⟨hstopping, hactive⟩

lemma mem_of_hasMarked {calls : List StopAttempt} {attempt : StopAttempt}
    (hcalls : ∀ call ∈ calls, call.phase = .marking) (hmem : attempt ∈ pool.attempts ++ calls)
    (hmarked : attempt.HasMarked) : attempt ∈ pool.attempts := by
  refine (List.mem_append.mp hmem).resolve_right fun hcall => ?_
  have hphase := hcalls attempt hcall
  simp [StopAttempt.HasMarked, hphase] at hmarked

lemma mem_setAttempt {attempt before : StopAttempt} {phase : StopPhase} (hk : pool.attempts[k]? = some before)
    (hmem : attempt ∈ (pool.setAttempt k phase).attempts) :
    attempt ∈ pool.attempts ∨ attempt = { before with phase } := by
  obtain ⟨j, hj⟩ := List.mem_iff_getElem?.mp hmem
  obtain ⟨other, hother, rfl⟩ := Table.getElem?_modify_eq_some_iff.mp hj
  split
  · rename_i heq
    subst heq
    obtain rfl : other = before := Option.some.inj (hother.symm.trans hk)
    exact Or.inr rfl
  · exact Or.inl (List.mem_of_getElem? hother)

lemma LeasesInv.active_modify (h : LeasesInv pool)
    (hobjects : next.objects = pool.objects.modify k change) (hleases : next.leases = pool.leases)
    (hchange : ∀ object, (change object).active = object.active) :
    ∀ (id : ℕ) (object : Instance), next.objects[id]? = some object → object.active = next.leases.count id := by
  intro id object hid
  rw [hobjects, Table.getElem?_modify_eq_some_iff] at hid
  obtain ⟨before, hbefore, rfl⟩ := hid
  rw [hleases, ← h.active id before hbefore]
  split
  · exact hchange before
  · rfl

lemma LeasesInv.unforced_setAttempt (h : LeasesInv pool) {before : StopAttempt} {phase : StopPhase}
    (hk : pool.attempts[k]? = some before) (hattempts : next.attempts = (pool.setAttempt k phase).attempts)
    (hphase : StopAttempt.HasMarked { before with phase } → before.HasMarked)
    (hquiesced : ∀ id, pool.Quiesced id → next.Quiesced id) :
    ∀ attempt ∈ next.attempts, attempt.HasMarked → attempt.cause.force = false → next.Quiesced attempt.object := by
  intro attempt hmem hmarked hforce
  rw [hattempts] at hmem
  rcases mem_setAttempt hk hmem with hold | rfl
  · exact hquiesced _ (h.unforced attempt hold hmarked hforce)
  · exact hquiesced _ (h.unforced before (List.mem_of_getElem? hk) (hphase hmarked) hforce)

lemma leasesInv_empty (maxInstances idle : ℕ) : LeasesInv (empty maxInstances idle) where
  active id object hid := by simp [empty] at hid
  known id hid := by simp [empty] at hid
  unforced attempt hmem := by simp [empty] at hmem

lemma LeasesInv.drops (h : LeasesInv pool) {index : ℕ} (hindex : pool.leases[index]? = some id)
    (hobjects : next.objects = pool.objects.modify id fun object =>
      if object.active = 0 then object
      else { object with active := object.active - 1, lastUsed := pool.now })
    (hattempts : next.attempts = pool.attempts)
    (hleases : next.leases = pool.leases.eraseIdx index) : LeasesInv next := by
  obtain ⟨hlt, hget⟩ := List.getElem?_eq_some_iff.mp hindex
  have hcount : ∀ other, (pool.leases.eraseIdx index).count other + (if id = other then 1 else 0) =
      pool.leases.count other := by
    intro other
    have hperm := (List.getElem_cons_eraseIdx_perm hlt).count_eq other
    rw [hget, List.count_cons] at hperm
    simpa using hperm
  constructor
  · intro other object hid
    rw [hobjects, Table.getElem?_modify_eq_some_iff] at hid
    obtain ⟨before, hbefore, rfl⟩ := hid
    have hactive := h.active other before hbefore
    have hother := hcount other
    rw [hleases]
    by_cases heq : id = other
    · rw [if_pos heq] at hother ⊢
      rw [if_neg (by omega)]
      change before.active - 1 = _
      omega
    · rw [if_neg heq] at hother ⊢
      omega
  · intro other hother
    rw [hleases] at hother
    rw [hobjects, List.length_modify]
    exact h.known other (List.mem_of_mem_eraseIdx hother)
  · intro attempt hmem hmarked hforce
    rw [hattempts] at hmem
    refine (h.unforced attempt hmem hmarked hforce).modify hobjects fun object _ hstopping hactive => ?_
    rw [if_pos hactive]
    exact ⟨hstopping, hactive⟩

/-- A step keeps the counts and the marked instances right. -/
lemma LeasesInv.step (h : LeasesInv pool) (hstarts : StartsInv pool) (event : PoolEvent) :
    LeasesInv (pool.step event) := by
  cases hstarts.stopMove event with
  | keeps hobjects _ hattempts hleases =>
    obtain ⟨calls, hcalls, hattempts⟩ := hattempts
    refine ⟨by rw [hobjects, hleases]; exact h.active, by rw [hobjects, hleases]; exact h.known, ?_⟩
    intro attempt hmem hmarked hforce
    rw [hattempts] at hmem
    obtain ⟨object, hid, hquiesced⟩ :=
      h.unforced attempt (mem_of_hasMarked hcalls hmem hmarked) hmarked hforce
    exact ⟨object, by rw [hobjects, hid], hquiesced⟩
  | touches id change hchange hobjects _ hattempts hleases =>
    refine ⟨h.active_modify hobjects hleases fun object => (hchange object).2.1, ?_, ?_⟩
    · rw [hobjects, hleases, List.length_modify]
      exact h.known
    · intro attempt hmem hmarked hforce
      rw [hattempts] at hmem
      refine (h.unforced attempt hmem hmarked hforce).modify hobjects
        fun object _ hstopping hactive => ?_
      exact ⟨(hchange object).2.2.trans hstopping, (hchange object).2.1.trans hactive⟩
  | grants id object hid hopen hobjects _ hattempts hleases =>
    constructor
    · intro other object' hother
      rw [hobjects, Table.getElem?_modify_eq_some_iff] at hother
      obtain ⟨before, hbefore, rfl⟩ := hother
      have hactive := h.active other before hbefore
      rw [hleases, List.count_append, List.count_singleton]
      by_cases heq : id = other
      · subst heq
        simp [hactive]
      · simp [heq, hactive]
    · intro other hother
      rw [hleases, List.mem_append, List.mem_singleton] at hother
      rw [hobjects, List.length_modify]
      rcases hother with hold | rfl
      · exact h.known other hold
      · exact Table.lt_length_of_getElem? hid
    · intro attempt hmem hmarked hforce
      rw [hattempts] at hmem
      -- The lease is granted on an instance that is not marked.
      refine (h.unforced attempt hmem hmarked hforce).modify hobjects
        fun object' hid' hstopping _ => ?_
      rw [hid] at hid'
      obtain rfl := Option.some.inj hid'
      rw [hopen] at hstopping
      cases hstopping
  | drops index id hindex hobjects _ hattempts hleases =>
    exact h.drops hindex hobjects hattempts hleases
  | registers root closed _ hobjects _ hattempts hleases =>
    obtain ⟨calls, hcalls, hattempts⟩ := hattempts
    constructor
    · intro id object hid
      rw [hobjects, Table.getElem?_append_singleton_eq_some_iff] at hid
      rw [hleases]
      rcases hid with hold | ⟨rfl, rfl⟩
      · exact h.active id object hold
      · have hnone : pool.objects.length ∉ pool.leases := fun hmem => lt_irrefl _ (h.known _ hmem)
        exact (List.count_eq_zero_of_not_mem hnone).symm
    · intro id hid
      rw [hleases] at hid
      rw [hobjects, List.length_append]
      exact Nat.lt_add_right _ (h.known id hid)
    · intro attempt hmem hmarked hforce
      rw [hattempts] at hmem
      obtain ⟨object, hid, hquiesced⟩ :=
        h.unforced attempt (mem_of_hasMarked hcalls hmem hmarked) hmarked hforce
      refine ⟨object, ?_, hquiesced⟩
      rw [hobjects, Table.getElem?_append_singleton_eq_some_iff]
      exact Or.inl hid
  | marks k id cause object hk hid hmark hobjects _ hattempts hleases =>
    have hquiesced : ∀ other, pool.Quiesced other → (pool.step event).Quiesced other :=
      fun other hother => hother.modify hobjects fun _ _ _ hactive => ⟨rfl, hactive⟩
    refine ⟨h.active_modify hobjects hleases fun _ => rfl, ?_, ?_⟩
    · rw [hobjects, hleases, List.length_modify]
      exact h.known
    · intro attempt hmem hmarked hforce
      rw [hattempts] at hmem
      rcases mem_setAttempt hk hmem with hold | rfl
      · exact hquiesced _ (h.unforced attempt hold hmarked hforce)
      · -- Without force `mark_stopping` has found no lease.
        simp only [canMark, Bool.and_eq_true, Bool.or_eq_true, beq_iff_eq] at hmark
        have hactive : object.active = 0 := hmark.2.resolve_left (by simp_all)
        refine ⟨{ object with stopping := true }, ?_, rfl, hactive⟩
        rw [hobjects, Table.getElem?_modify_eq_some_iff]
        exact ⟨object, hid, by simp⟩
  | waits k attempt phase hk _ hphase hobjects _ hattempts hleases =>
    refine ⟨by rw [hobjects, hleases]; exact h.active, by rw [hobjects, hleases]; exact h.known, ?_⟩
    refine h.unforced_setAttempt hk hattempts ?_ fun id => ?_
    · rintro (hnow | ⟨result, hnow⟩)
      · rcases hphase with rfl | ⟨_, rfl⟩ <;> cases hnow
      · rcases hphase with rfl | ⟨_, rfl⟩ <;> cases hnow
    · rintro ⟨object, hid, hquiesced⟩
      exact ⟨object, by rw [hobjects, hid], hquiesced⟩
  | succeeds k id cause object hk hid hobjects _ hattempts hleases =>
    refine ⟨h.active_modify hobjects hleases fun _ => rfl, ?_, ?_⟩
    · rw [hobjects, hleases, List.length_modify]
      exact h.known
    · exact h.unforced_setAttempt hk hattempts (fun _ => Or.inl rfl) fun other hother =>
        hother.modify hobjects fun _ _ hstopping hactive => ⟨hstopping, hactive⟩
  | fails k id cause object outcome _ hk hid _ hobjects _ hattempts hleases =>
    refine ⟨by rw [hobjects, hleases]; exact h.active, by rw [hobjects, hleases]; exact h.known, ?_⟩
    refine h.unforced_setAttempt hk hattempts (fun _ => Or.inl rfl) ?_
    rintro other ⟨object', hother, hquiesced⟩
    exact ⟨object', by rw [hobjects, hother], hquiesced⟩
  | exits id object _ hid change hchange hobjects _ hattempts hleases =>
    refine ⟨h.active_modify hobjects hleases fun object => (hchange object).2.1, ?_, ?_⟩
    · rw [hobjects, hleases, List.length_modify]
      exact h.known
    · intro attempt hmem hmarked hforce
      rw [hattempts] at hmem
      refine (h.unforced attempt hmem hmarked hforce).modify hobjects
        fun object _ hstopping hactive => ?_
      exact ⟨(hchange object).2.2.trans hstopping, (hchange object).2.1.trans hactive⟩

lemma tryLease_eq_some {root : WorkspaceRoot} {authorized cancelled : Bool}
    (h : (pool.tryLease root authorized cancelled).2 = some id) :
    ∃ object, pool.objects[id]? = some object ∧ object.stopping = false := by
  unfold tryLease at h
  split at h
  · cases h
  split at h
  · cases h
  split at h
  · cases h
  rename_i object hid
  split at h
  · cases h
  rename_i hopen
  split at h
  · cases h
  split at h
  · cases h
  · obtain rfl := Option.some.inj h
    exact ⟨object, hid, by simpa using fun hstopping => hopen (Or.inl hstopping)⟩

/-- An instance shut down without force has no lease, and no marked one gets any. -/
theorem leases_are_safe (maxInstances idle : ℕ) (events : List PoolEvent) :
    let pool := (empty maxInstances idle).run events
    (∀ attempt ∈ pool.attempts, attempt.HasMarked → attempt.cause.force = false → attempt.object ∉ pool.leases) ∧
    (∀ root authorized cancelled id, (pool.tryLease root authorized cancelled).2 = some id →
      ∃ object, pool.objects[id]? = some object ∧ object.stopping = false) ∧
    ∀ (id : ℕ) (object : Instance), pool.objects[id]? = some object → object.active = pool.leases.count id := by
  intro pool
  have hinv : StartsInv pool ∧ LeasesInv pool :=
    Runs.invariant (P := fun pool => StartsInv pool ∧ LeasesInv pool)
      (fun _ event hpool => ⟨hpool.1.step event, hpool.2.step hpool.1 event⟩)
      ⟨startsInv_empty maxInstances idle, leasesInv_empty maxInstances idle⟩
  refine ⟨?_, fun root authorized cancelled id hgrant => tryLease_eq_some hgrant, hinv.2.active⟩
  intro attempt hmem hmarked hforce
  obtain ⟨object, hid, -, hactive⟩ := hinv.2.unforced attempt hmem hmarked hforce
  have hcount := hinv.2.active attempt.object object hid
  exact List.count_eq_zero.mp (hcount.symm.trans hactive)

end AnalyzerPool

end AgzRustMcp.Lsp
