import AgzRustMcp.Lsp.Leasing

/-!
# Stops that fail

`mark_stopping` sets the mark before the shutdown is tried, and nobody takes it back.  When that
attempt runs out of time, the instance stays registered and every later attempt is refused: this is
the only way to get an instance that nobody stops (`no_zombie_iff`).
-/

namespace AgzRustMcp.Lsp

open Std (ExtTreeMap)

namespace AnalyzerPool

variable {pool next : AnalyzerPool} {k id : ℕ} {object : Instance} {event : PoolEvent}

/-! ## Zombies -/

/-- A later `stop_instance_until` or `close_all` can still shut the instance down. -/
def CanBeStopped (pool : AnalyzerPool) (id : ℕ) : Prop :=
  ∃ events, (∀ event ∈ events, event ≠ .processExits id) ∧ (pool.run events).BeingStopped id

/-- A marked instance, or one whose stop failed, is being stopped or can be. -/
def NoZombie (pool : AnalyzerPool) : Prop :=
  (∀ (id : ℕ) (object : Instance), pool.objects[id]? = some object →
    pool.instances[object.root]? = some id → object.stopping = true → pool.BeingStopped id ∨ pool.CanBeStopped id) ∧
  ∀ attempt ∈ pool.attempts, (∃ marked, attempt.phase = .over marked false) → pool.IsRegistered attempt.object →
      pool.BeingStopped attempt.object ∨ pool.CanBeStopped attempt.object

/-- A marking attempt fails while its instance is registered. -/
def EndsInVain (pool : AnalyzerPool) (event : PoolEvent) : Prop :=
  ∃ k outcome id cause object, event = .shutdown k outcome ∧
    pool.attempts[k]? = some ⟨id, cause, .shutting⟩ ∧ pool.objects[id]? = some object ∧
    outcome.completed object = false ∧ pool.instances[object.root]? = some id

/-- The object is marked as stopping. -/
def IsMarked (pool : AnalyzerPool) (id : ℕ) : Prop :=
  ∃ object, pool.objects[id]? = some object ∧ object.stopping = true

/-- The instance is registered and marked, and nobody is shutting it down. -/
def Stuck (pool : AnalyzerPool) (id : ℕ) : Prop :=
  ∃ object, pool.objects[id]? = some object ∧ pool.instances[object.root]? = some id ∧
    object.stopping = true ∧ ¬ pool.BeingStopped id

/-- At most one attempt still shuts a marked instance down. -/
structure StopsInv (pool : AnalyzerPool) : Prop where
  marked : ∀ (k id : ℕ) (cause : StopCause), pool.attempts[k]? = some ⟨id, cause, .shutting⟩ → pool.IsMarked id
  unique : ∀ (k j id : ℕ) (cause cause' : StopCause), pool.attempts[k]? = some ⟨id, cause, .shutting⟩ →
    pool.attempts[j]? = some ⟨id, cause', .shutting⟩ → k = j

lemma beingStopped_iff : pool.BeingStopped id ↔
    ∃ (k : ℕ) (cause : StopCause), pool.attempts[k]? = some ⟨id, cause, .shutting⟩ := by
  constructor
  · rintro ⟨⟨_, cause, _⟩, hmem, rfl, rfl⟩
    obtain ⟨k, hk⟩ := List.mem_iff_getElem?.mp hmem
    exact ⟨k, cause, hk⟩
  · rintro ⟨k, cause, hk⟩
    exact ⟨_, List.mem_of_getElem? hk, rfl, rfl⟩

lemma shutting_of_append {calls : List StopAttempt} {cause : StopCause}
    (hcalls : ∀ call ∈ calls, call.phase = .marking)
    (hk : (pool.attempts ++ calls)[k]? = some ⟨id, cause, .shutting⟩) :
    pool.attempts[k]? = some ⟨id, cause, .shutting⟩ := by
  by_cases hlt : k < pool.attempts.length
  · rwa [List.getElem?_append_left hlt] at hk
  · rw [List.getElem?_append_right (not_lt.mp hlt)] at hk
    have hphase := hcalls _ (List.mem_of_getElem? hk)
    cases hphase

lemma shutting_of_setAttempt {phase : StopPhase} {cause : StopCause} {j : ℕ} (hphase : phase ≠ .shutting)
    (hj : (pool.setAttempt k phase).attempts[j]? = some ⟨id, cause, .shutting⟩) :
    k ≠ j ∧ pool.attempts[j]? = some ⟨id, cause, .shutting⟩ := by
  obtain ⟨before, hbefore, heq⟩ := Table.getElem?_modify_eq_some_iff.mp hj
  by_cases hkj : k = j
  · rw [if_pos hkj] at heq
    exact absurd (congrArg StopAttempt.phase heq).symm hphase
  · rw [if_neg hkj] at heq
    exact ⟨hkj, heq ▸ hbefore⟩

variable {change : Instance → Instance}

lemma IsMarked.modify (h : pool.IsMarked id) (hobjects : next.objects = pool.objects.modify k change)
    (hchange : ∀ object, object.stopping = true → (change object).stopping = true) : next.IsMarked id := by
  obtain ⟨object, hid, hstopping⟩ := h
  refine ⟨if k = id then change object else object, ?_, ?_⟩
  · rw [hobjects, Table.getElem?_modify_eq_some_iff]
    exact ⟨object, hid, rfl⟩
  · split
    · exact hchange object hstopping
    · exact hstopping

lemma StopsInv.of_subset (h : StopsInv pool)
    (hsubset : ∀ (k id : ℕ) (cause : StopCause), next.attempts[k]? = some ⟨id, cause, .shutting⟩ →
        pool.attempts[k]? = some ⟨id, cause, .shutting⟩)
    (hmarks : ∀ id, pool.IsMarked id → next.IsMarked id) : StopsInv next where
  marked k id cause hk := hmarks id (h.marked k id cause (hsubset k id cause hk))
  unique k j id cause cause' hk hj :=
    h.unique k j id cause cause' (hsubset k id cause hk) (hsubset j id cause' hj)

lemma stopsInv_empty (maxInstances idle : ℕ) : StopsInv (empty maxInstances idle) where
  marked k id cause hk := by simp [empty] at hk
  unique k j id cause cause' hk := by simp [empty] at hk

lemma StopsInv.step (h : StopsInv pool) (hstarts : StartsInv pool) (event : PoolEvent) :
    StopsInv (pool.step event) := by
  cases hstarts.stopMove event with
  | keeps hobjects _ hattempts _ =>
    obtain ⟨calls, hcalls, hattempts⟩ := hattempts
    refine h.of_subset (fun k id cause hk => shutting_of_append hcalls (hattempts ▸ hk)) ?_
    rintro id ⟨object, hid, hstopping⟩
    exact ⟨object, by rw [hobjects, hid], hstopping⟩
  | touches id change hchange hobjects _ hattempts _ =>
    refine h.of_subset (fun k id cause hk => hattempts ▸ hk) fun _ hmarked =>
      hmarked.modify hobjects ?_
    exact fun object hstopping => (hchange object).2.2.trans hstopping
  | grants id object _ _ hobjects _ hattempts _ =>
    exact h.of_subset (fun k id cause hk => hattempts ▸ hk) fun _ hmarked =>
      hmarked.modify hobjects fun _ hstopping => hstopping
  | drops index id _ hobjects _ hattempts _ =>
    refine h.of_subset (fun k id cause hk => hattempts ▸ hk) fun _ hmarked =>
      hmarked.modify hobjects ?_
    intro object hstopping
    split <;> exact hstopping
  | registers root closed _ hobjects _ hattempts _ =>
    obtain ⟨calls, hcalls, hattempts⟩ := hattempts
    refine h.of_subset (fun k id cause hk => shutting_of_append hcalls (hattempts ▸ hk)) ?_
    rintro id ⟨object, hid, hstopping⟩
    refine ⟨object, ?_, hstopping⟩
    rw [hobjects, Table.getElem?_append_singleton_eq_some_iff]
    exact Or.inl hid
  | marks k id cause object hk hid hmark hobjects _ hattempts _ =>
    have hopen : object.stopping = false := by
      simp only [canMark, Bool.and_eq_true] at hmark
      simpa using hmark.1.2
    -- Nobody else is shutting the instance down, since it was not marked.
    have hfirst : ∀ (j : ℕ) (cause' : StopCause), pool.attempts[j]? ≠ some ⟨id, cause', .shutting⟩ := by
      intro j cause' hj
      obtain ⟨marked, hmarked, hstopping⟩ := h.marked j id cause' hj
      obtain rfl := Option.some.inj (hid.symm.trans hmarked)
      rw [hopen] at hstopping
      cases hstopping
    have hcases : ∀ (j other : ℕ) (cause' : StopCause),
        (pool.step event).attempts[j]? = some ⟨other, cause', .shutting⟩ →
        (k = j ∧ other = id) ∨ (k ≠ j ∧ pool.attempts[j]? = some ⟨other, cause', .shutting⟩) := by
      intro j other cause' hj
      rw [hattempts] at hj
      obtain ⟨before, hbefore, heq⟩ := Table.getElem?_modify_eq_some_iff.mp hj
      by_cases hkj : k = j
      · subst hkj
        obtain rfl := Option.some.inj (hk.symm.trans hbefore)
        rw [if_pos rfl] at heq
        exact Or.inl ⟨rfl, congrArg StopAttempt.object heq⟩
      · rw [if_neg hkj] at heq
        exact Or.inr ⟨hkj, heq ▸ hbefore⟩
    constructor
    · intro j other cause' hj
      rcases hcases j other cause' hj with ⟨rfl, rfl⟩ | ⟨-, hold⟩
      · refine ⟨{ object with stopping := true }, ?_, rfl⟩
        rw [hobjects, Table.getElem?_modify_eq_some_iff]
        exact ⟨object, hid, by simp⟩
      · exact (h.marked j other cause' hold).modify hobjects fun _ _ => rfl
    · intro i j other cause' cause'' hi hj
      rcases hcases i other cause' hi with ⟨rfl, rfl⟩ | ⟨-, hi'⟩
      · rcases hcases j other cause'' hj with ⟨rfl, -⟩ | ⟨-, hj'⟩
        · rfl
        · exact absurd hj' (hfirst j cause'')
      · rcases hcases j other cause'' hj with ⟨rfl, rfl⟩ | ⟨-, hj'⟩
        · exact absurd hi' (hfirst i cause')
        · exact h.unique i j other cause' cause'' hi' hj'
  | waits k attempt phase _ _ hphase hobjects _ hattempts _ =>
    have hne : phase ≠ .shutting := by
      rcases hphase with rfl | ⟨_, rfl⟩ <;> simp
    refine h.of_subset (fun j id cause hj => (shutting_of_setAttempt hne (hattempts ▸ hj)).2) ?_
    rintro id ⟨object, hid, hstopping⟩
    exact ⟨object, by rw [hobjects, hid], hstopping⟩
  | succeeds k id cause object _ _ hobjects _ hattempts _ =>
    exact h.of_subset
      (fun j id cause hj => (shutting_of_setAttempt (by simp) (hattempts ▸ hj)).2) fun _ hmarked =>
        hmarked.modify hobjects fun _ hstopping => hstopping
  | fails k id cause object outcome _ _ _ _ hobjects _ hattempts _ =>
    refine h.of_subset
      (fun j id cause hj => (shutting_of_setAttempt (by simp) (hattempts ▸ hj)).2) ?_
    rintro id ⟨object, hid, hstopping⟩
    exact ⟨object, by rw [hobjects, hid], hstopping⟩
  | exits id object _ _ change hchange hobjects _ hattempts _ =>
    refine h.of_subset (fun k id cause hk => hattempts ▸ hk) fun _ hmarked =>
      hmarked.modify hobjects ?_
    exact fun object hstopping => (hchange object).2.2.trans hstopping

/-! ### Instances that nobody stops -/

lemma instances_unregister_self : (pool.unregister id object).instances[object.root]? ≠ some id := by
  unfold unregister
  split
  · simp
  · assumption

lemma instances_unregister_of_ne {root : WorkspaceRoot} {other : ℕ} (hne : id ≠ other)
    (h : pool.instances[root]? = some other) : (pool.unregister id object).instances[root]? = some other := by
  unfold unregister
  split
  · rename_i hid
    have hroot : object.root ≠ root := by
      rintro rfl
      exact hne (Option.some.inj (hid.symm.trans h))
    rw [ExtTreeMap.getElem?_erase, if_neg (by simpa using hroot), h]
  · exact h

lemma instances_of_unregister {root : WorkspaceRoot} {other : ℕ}
    (h : (pool.unregister id object).instances[root]? = some other) : pool.instances[root]? = some other := by
  unfold unregister at h
  split at h
  · rw [ExtTreeMap.getElem?_erase] at h
    split at h
    · cases h
    · exact h
  · exact h

lemma exists_of_modify (hobjects : next.objects = pool.objects.modify k change)
    (hchange : ∀ object, (change object).root = object.root ∧
      (change object).stopping = object.stopping) (hid : next.objects[id]? = some object) :
    ∃ before, pool.objects[id]? = some before ∧ object.root = before.root ∧ object.stopping = before.stopping := by
  rw [hobjects, Table.getElem?_modify_eq_some_iff] at hid
  obtain ⟨before, hbefore, rfl⟩ := hid
  refine ⟨before, hbefore, ?_⟩
  split
  · exact hchange before
  · exact ⟨rfl, rfl⟩

lemma exists_modify (hobjects : next.objects = pool.objects.modify k change)
    (hchange : ∀ object, (change object).root = object.root ∧
      (change object).stopping = object.stopping) (hid : pool.objects[id]? = some object) :
    ∃ after, next.objects[id]? = some after ∧ after.root = object.root ∧ after.stopping = object.stopping := by
  refine ⟨if k = id then change object else object, ?_, ?_⟩
  · rw [hobjects, Table.getElem?_modify_eq_some_iff]
    exact ⟨object, hid, rfl⟩
  · split
    · exact hchange object
    · exact ⟨rfl, rfl⟩

lemma Stuck.modify (h : pool.Stuck id) (hobjects : next.objects = pool.objects.modify k change)
    (hchange : ∀ object, (change object).root = object.root ∧ (change object).stopping = object.stopping)
    (hinstances : ∀ root : WorkspaceRoot, pool.instances[root]? = some id → next.instances[root]? = some id)
    (hattempts : next.BeingStopped id → pool.BeingStopped id) : next.Stuck id := by
  obtain ⟨object, hid, hregistered, hstopping, hfree⟩ := h
  obtain ⟨after, hafter, hroot, hmark⟩ := exists_modify hobjects hchange hid
  exact ⟨after, hafter, hroot ▸ hinstances _ hregistered, hmark.trans hstopping,
    fun hbusy => hfree (hattempts hbusy)⟩

lemma Stuck.same (h : pool.Stuck id) (hobjects : next.objects = pool.objects)
    (hinstances : next.instances = pool.instances)
    (hattempts : next.BeingStopped id → pool.BeingStopped id) : next.Stuck id := by
  obtain ⟨object, hid, hregistered, hstopping, hfree⟩ := h
  exact ⟨object, by rw [hobjects, hid], by rw [hinstances, hregistered], hstopping,
    fun hbusy => hfree (hattempts hbusy)⟩

lemma beingStopped_congr (hattempts : next.attempts = pool.attempts) :
    next.BeingStopped id ↔ pool.BeingStopped id := by
  rw [BeingStopped, BeingStopped, hattempts]

lemma Stuck.step (h : pool.Stuck id) (hstarts : StartsInv pool) {event : PoolEvent}
    (hevent : event ≠ .processExits id) : (pool.step event).Stuck id := by
  cases hstarts.stopMove event with
  | keeps hobjects hinstances hattempts _ =>
    obtain ⟨calls, hcalls, hattempts⟩ := hattempts
    refine h.same hobjects hinstances fun hbusy => ?_
    obtain ⟨k, cause, hk⟩ := beingStopped_iff.mp hbusy
    rw [hattempts] at hk
    exact beingStopped_iff.mpr ⟨k, cause, shutting_of_append hcalls hk⟩
  | touches k change hchange hobjects hinstances hattempts _ =>
    exact h.modify hobjects (fun object => ⟨(hchange object).1, (hchange object).2.2⟩)
      (fun root hroot => by rw [hinstances, hroot]) (beingStopped_congr hattempts).mp
  | grants k object _ _ hobjects hinstances hattempts _ =>
    exact h.modify hobjects (fun _ => ⟨rfl, rfl⟩) (fun root hroot => by rw [hinstances, hroot])
      (beingStopped_congr hattempts).mp
  | drops index k _ hobjects hinstances hattempts _ =>
    refine h.modify hobjects (fun object => ?_) (fun root hroot => by rw [hinstances, hroot])
      (beingStopped_congr hattempts).mp
    split <;> exact ⟨rfl, rfl⟩
  | registers root closed hunused hobjects hinstances hattempts _ =>
    obtain ⟨calls, hcalls, hattempts⟩ := hattempts
    obtain ⟨object, hid, hregistered, hstopping, hfree⟩ := h
    refine ⟨object, ?_, ?_, hstopping, fun hbusy => hfree ?_⟩
    · rw [hobjects, Table.getElem?_append_singleton_eq_some_iff]
      exact Or.inl hid
    · have hne : root ≠ object.root := by
        rintro rfl
        rw [hunused] at hregistered
        cases hregistered
      rw [hinstances, ExtTreeMap.getElem?_insert, if_neg (by simpa using hne), hregistered]
    · obtain ⟨k, cause, hk⟩ := beingStopped_iff.mp hbusy
      rw [hattempts] at hk
      exact beingStopped_iff.mpr ⟨k, cause, shutting_of_append hcalls hk⟩
  | marks k other cause object hk hother hmark hobjects hinstances hattempts _ =>
    obtain ⟨stuck, hid, hregistered, hstopping, hfree⟩ := h
    -- A marked instance is not marked again.
    have hne : other ≠ id := by
      rintro rfl
      obtain rfl := Option.some.inj (hid.symm.trans hother)
      simp [canMark, hstopping] at hmark
    refine ⟨stuck, ?_, by rw [hinstances, hregistered], hstopping, fun hbusy => hfree ?_⟩
    · rw [hobjects, Table.getElem?_modify_eq_some_iff]
      exact ⟨stuck, hid, by rw [if_neg hne]⟩
    · obtain ⟨j, cause', hj⟩ := beingStopped_iff.mp hbusy
      rw [hattempts] at hj
      obtain ⟨before, hbefore, heq⟩ := Table.getElem?_modify_eq_some_iff.mp hj
      by_cases hkj : k = j
      · subst hkj
        obtain rfl := Option.some.inj (hk.symm.trans hbefore)
        rw [if_pos rfl] at heq
        exact absurd (congrArg StopAttempt.object heq).symm hne
      · rw [if_neg hkj] at heq
        exact beingStopped_iff.mpr ⟨j, cause', heq ▸ hbefore⟩
  | waits k attempt phase _ _ hphase hobjects hinstances hattempts _ =>
    have hne : phase ≠ .shutting := by
      rcases hphase with rfl | ⟨_, rfl⟩ <;> simp
    refine h.same hobjects hinstances fun hbusy => ?_
    obtain ⟨j, cause, hj⟩ := beingStopped_iff.mp hbusy
    exact beingStopped_iff.mpr ⟨j, cause, (shutting_of_setAttempt hne (hattempts ▸ hj)).2⟩
  | succeeds k other cause object hk _ hobjects hinstances hattempts _ =>
    have hne : other ≠ id := by
      rintro rfl
      obtain ⟨_, -, -, -, hfree⟩ := h
      exact hfree (beingStopped_iff.mpr ⟨k, cause, hk⟩)
    refine h.modify hobjects (fun _ => ⟨rfl, rfl⟩) (fun root hroot => ?_) fun hbusy => ?_
    · rw [hinstances]
      exact instances_unregister_of_ne hne hroot
    · obtain ⟨j, cause', hj⟩ := beingStopped_iff.mp hbusy
      exact beingStopped_iff.mpr ⟨j, cause', (shutting_of_setAttempt (by simp) (hattempts ▸ hj)).2⟩
  | fails k other cause object outcome _ _ _ _ hobjects hinstances hattempts _ =>
    refine h.same hobjects hinstances fun hbusy => ?_
    obtain ⟨j, cause', hj⟩ := beingStopped_iff.mp hbusy
    exact beingStopped_iff.mpr ⟨j, cause', (shutting_of_setAttempt (by simp) (hattempts ▸ hj)).2⟩
  | exits other object hother _ change hchange hobjects hinstances hattempts _ =>
    have hne : other ≠ id := by
      rintro rfl
      exact hevent hother
    refine h.modify hobjects (fun object => ⟨(hchange object).1, (hchange object).2.2⟩)
      (fun root hroot => ?_) (beingStopped_congr hattempts).mp
    rw [hinstances]
    exact instances_unregister_of_ne hne hroot

lemma Stuck.of_modify (h : next.Stuck id) (hobjects : next.objects = pool.objects.modify k change)
    (hchange : ∀ object, (change object).root = object.root ∧ (change object).stopping = object.stopping)
    (hinstances : ∀ root : WorkspaceRoot, next.instances[root]? = some id → pool.instances[root]? = some id)
    (hattempts : pool.BeingStopped id → next.BeingStopped id) : pool.Stuck id := by
  obtain ⟨object, hid, hregistered, hstopping, hfree⟩ := h
  obtain ⟨before, hbefore, hroot, hmark⟩ := exists_of_modify hobjects hchange hid
  exact ⟨before, hbefore, hinstances _ (hroot ▸ hregistered), hmark ▸ hstopping,
    fun hbusy => hfree (hattempts hbusy)⟩

lemma beingStopped_setAttempt {phase : StopPhase} {attempt : StopAttempt}
    (hattempts : next.attempts = (pool.setAttempt k phase).attempts) (hk : pool.attempts[k]? = some attempt)
    (hother : attempt.phase ≠ .shutting ∨ attempt.object ≠ id) (h : pool.BeingStopped id) : next.BeingStopped id := by
  obtain ⟨j, cause, hj⟩ := beingStopped_iff.mp h
  have hne : k ≠ j := by
    rintro rfl
    obtain rfl := Option.some.inj (hk.symm.trans hj)
    simp at hother
  refine beingStopped_iff.mpr ⟨j, cause, ?_⟩
  rw [hattempts]
  exact Table.getElem?_modify_eq_some_iff.mpr ⟨_, hj, by rw [if_neg hne]⟩

lemma beingStopped_append {calls : List StopAttempt}
    (hattempts : next.attempts = pool.attempts ++ calls) (h : pool.BeingStopped id) : next.BeingStopped id := by
  obtain ⟨attempt, hmem, hobject⟩ := h
  exact ⟨attempt, by rw [hattempts]; exact List.mem_append_left _ hmem, hobject⟩

lemma Stuck.of_step (h : (pool.step event).Stuck id) (hstarts : StartsInv pool) :
    pool.Stuck id ∨ pool.EndsInVain event := by
  cases hstarts.stopMove event with
  | keeps hobjects hinstances hattempts _ =>
    obtain ⟨calls, -, hattempts⟩ := hattempts
    exact Or.inl (h.same hobjects.symm hinstances.symm (beingStopped_append hattempts))
  | touches k change hchange hobjects hinstances hattempts _ =>
    exact Or.inl (h.of_modify hobjects (fun object => ⟨(hchange object).1, (hchange object).2.2⟩)
      (fun root hroot => by rw [← hinstances, hroot]) (beingStopped_congr hattempts).mpr)
  | grants k object _ _ hobjects hinstances hattempts _ =>
    exact Or.inl (h.of_modify hobjects (fun _ => ⟨rfl, rfl⟩)
      (fun root hroot => by rw [← hinstances, hroot]) (beingStopped_congr hattempts).mpr)
  | drops index k _ hobjects hinstances hattempts _ =>
    refine Or.inl (h.of_modify hobjects (fun object => ?_)
      (fun root hroot => by rw [← hinstances, hroot]) (beingStopped_congr hattempts).mpr)
    split <;> exact ⟨rfl, rfl⟩
  | registers root closed hunused hobjects hinstances hattempts _ =>
    obtain ⟨calls, -, hattempts⟩ := hattempts
    obtain ⟨object, hid, hregistered, hstopping, hfree⟩ := h
    rw [hobjects, Table.getElem?_append_singleton_eq_some_iff] at hid
    rcases hid with hold | ⟨rfl, rfl⟩
    · have hlt : id < pool.objects.length := Table.lt_length_of_getElem? hold
      rw [hinstances, ExtTreeMap.getElem?_insert] at hregistered
      split at hregistered
      · obtain rfl := Option.some.inj hregistered
        exact absurd hlt (lt_irrefl _)
      · exact Or.inl ⟨object, hold, hregistered, hstopping,
          fun hbusy => hfree (beingStopped_append hattempts hbusy)⟩
    · -- A new instance is not marked.
      cases hstopping
  | marks k other cause object hk hother hmark hobjects hinstances hattempts _ =>
    obtain ⟨after, hafter, hregistered, hstopping, hfree⟩ := h
    have hne : other ≠ id := by
      rintro rfl
      refine hfree (beingStopped_iff.mpr ⟨k, cause, ?_⟩)
      rw [hattempts]
      exact Table.getElem?_modify_eq_some_iff.mpr ⟨_, hk, by rw [if_pos rfl]⟩
    rw [hobjects, Table.getElem?_modify_eq_some_iff] at hafter
    obtain ⟨before, hbefore, rfl⟩ := hafter
    rw [if_neg hne] at hregistered hstopping
    exact Or.inl ⟨before, hbefore, by rw [← hinstances, hregistered], hstopping, fun hbusy =>
      hfree (beingStopped_setAttempt hattempts hk (Or.inl (by simp)) hbusy)⟩
  | waits k attempt phase hk hbefore _ hobjects hinstances hattempts _ =>
    refine Or.inl (h.same hobjects.symm hinstances.symm
      (beingStopped_setAttempt hattempts hk (Or.inl ?_)))
    rcases hbefore with hphase | hphase <;> rw [hphase] <;> simp
  | succeeds k other cause object hk hother hobjects hinstances hattempts _ =>
    have hne : other ≠ id := by
      rintro rfl
      obtain ⟨after, hafter, hregistered, -⟩ := h
      obtain ⟨before, hbefore, hroot, -⟩ :=
        exists_of_modify hobjects (fun _ => ⟨rfl, rfl⟩) hafter
      obtain rfl := Option.some.inj (hother.symm.trans hbefore)
      rw [hinstances, hroot] at hregistered
      exact instances_unregister_self hregistered
    refine Or.inl (h.of_modify hobjects (fun _ => ⟨rfl, rfl⟩) (fun root hroot => ?_)
      (beingStopped_setAttempt hattempts hk (Or.inr hne)))
    rw [hinstances] at hroot
    exact instances_of_unregister hroot
  | fails k other cause object outcome hevent hk hother hfailed hobjects hinstances hattempts _ =>
    by_cases heq : other = id
    · subst heq
      obtain ⟨after, hafter, hregistered, -⟩ := h
      rw [hobjects, hother] at hafter
      obtain rfl := Option.some.inj hafter
      rw [hinstances] at hregistered
      exact Or.inr ⟨k, outcome, other, cause, object, hevent, hk, hother, hfailed, hregistered⟩
    · exact Or.inl (h.same hobjects.symm hinstances.symm
        (beingStopped_setAttempt hattempts hk (Or.inr heq)))
  | exits other object _ hother change hchange hobjects hinstances hattempts _ =>
    refine Or.inl (h.of_modify hobjects
      (fun object => ⟨(hchange object).1, (hchange object).2.2⟩) (fun root hroot => ?_)
      (beingStopped_congr hattempts).mpr)
    rw [hinstances] at hroot
    exact instances_of_unregister hroot

lemma StopsInv.stuck_of_endsInVain (h : StopsInv pool) (hvain : pool.EndsInVain event) :
    ∃ id, (pool.step event).Stuck id := by
  obtain ⟨k, outcome, id, cause, object, rfl, hk, hid, hfailed, hregistered⟩ := hvain
  have hstep : pool.step (.shutdown k outcome) = pool.setAttempt k (.over true false) := by
    change pool.shutdown k outcome = _
    simp [shutdown, hk, hid, hfailed]
  obtain ⟨marked, hmarked, hstopping⟩ := h.marked k id cause hk
  obtain rfl := Option.some.inj (hid.symm.trans hmarked)
  rw [hstep]
  refine ⟨id, object, hid, hregistered, hstopping, fun hbusy => ?_⟩
  obtain ⟨j, cause', hj⟩ := beingStopped_iff.mp hbusy
  obtain ⟨hne, hold⟩ := shutting_of_setAttempt (by simp) hj
  exact hne (h.unique k j id cause cause' hk hold)

lemma Stuck.run (h : pool.Stuck id) (hstarts : StartsInv pool) {events : List PoolEvent}
    (hevents : ∀ event ∈ events, event ≠ .processExits id) : (pool.run events).Stuck id := by
  induction events generalizing pool with
  | nil => exact h
  | cons event events ih =>
    have hevent : event ≠ .processExits id := hevents event List.mem_cons_self
    exact ih (h.step hstarts hevent) (hstarts.step event) fun e he =>
      hevents e (List.mem_cons_of_mem _ he)

lemma canBeStopped_of_unmarked (hid : pool.objects[id]? = some object)
    (hregistered : pool.instances[object.root]? = some id) (hopen : object.stopping = false) :
    pool.CanBeStopped id := by
  refine ⟨[.beginClose, .closeVisits id true, .markStopping pool.attempts.length], by simp, ?_⟩
  refine beingStopped_iff.mpr ⟨pool.attempts.length, .close true, ?_⟩
  simp [run, AnalyzerPool.step, closeVisits, hid, addAttempt, markStopping, canMark, hregistered,
    hopen, StopCause.force, setAttempt, modifyObject]

lemma StartsInv.noZombie_iff (h : StartsInv pool) : pool.NoZombie ↔ ∀ id, ¬ pool.Stuck id := by
  constructor
  · rintro ⟨hmarked, -⟩ id hstuck
    have hstays := hstuck
    obtain ⟨object, hid, hregistered, hstopping, hfree⟩ := hstuck
    rcases hmarked id object hid hregistered hstopping with hbusy | ⟨events, hevents, hbusy⟩
    · exact hfree hbusy
    · obtain ⟨_, -, -, -, hfree'⟩ := hstays.run h hevents
      exact hfree' hbusy
  · intro hnone
    have htended : ∀ (id : ℕ) (object : Instance), pool.objects[id]? = some object →
        pool.instances[object.root]? = some id → object.stopping = true → pool.BeingStopped id := by
      intro id object hid hregistered hstopping
      by_contra hfree
      exact hnone id ⟨object, hid, hregistered, hstopping, hfree⟩
    constructor
    · intro id object hid hregistered hstopping
      exact Or.inl (htended id object hid hregistered hstopping)
    · rintro attempt - - ⟨object, hid, hregistered⟩
      cases hstopping : object.stopping with
      | true => exact Or.inl (htended _ object hid hregistered hstopping)
      | false => exact Or.inr (canBeStopped_of_unmarked hid hregistered hstopping)

/-- In every state of a run each registered instance that is marked, or on which a stop has failed,
is being stopped or can be, exactly when no attempt that has marked its instance ends without
success while it is registered. -/
theorem no_zombie_iff (maxInstances idle : ℕ) (events : List PoolEvent) :
    Runs.Throughout step NoZombie (empty maxInstances idle) events ↔
      Runs.Along step (fun pool event => ¬ pool.EndsInVain event) (empty maxInstances idle)
        events := by
  refine Runs.throughout_iff_along (I := fun pool => StartsInv pool ∧ StopsInv pool)
    (fun _ event hpool => ⟨hpool.1.step event, hpool.2.step hpool.1 event⟩) ?_
    ⟨startsInv_empty maxInstances idle, stopsInv_empty maxInstances idle⟩ ?_
  · rintro pool event ⟨hstarts, hstops⟩ hpool
    rw [hstarts.noZombie_iff] at hpool
    rw [(hstarts.step event).noZombie_iff]
    constructor
    · intro hnone hvain
      obtain ⟨id, hstuck⟩ := hstops.stuck_of_endsInVain hvain
      exact hnone id hstuck
    · intro hclean id hstuck
      rcases hstuck.of_step hstarts with hbefore | hvain
      · exact hpool id hbefore
      · exact hclean hvain
  · rw [(startsInv_empty maxInstances idle).noZombie_iff]
    rintro id ⟨object, hid, -⟩
    simp [empty] at hid

/-- A run in which the sweep marks an idle instance and the shutdown takes too long. -/
def sweptInVain : AnalyzerPool :=
  (empty 1 0).run [.acquire ["a"] true, .checkCapacity 0, .completeStart 0 false, .sweepIdle,
    .markStopping 0, .shutdown 0 .timedOut]

/-- Afterwards neither a later stop nor `close_all` can stop the instance. -/
theorem timed_out_stop_leaves_zombie : ¬ sweptInVain.NoZombie := by
  have hstarts : StartsInv sweptInVain :=
    Runs.invariant (fun _ event hpool => hpool.step event) (startsInv_empty 1 0)
  have hfree : ¬ sweptInVain.BeingStopped 0 := by
    rw [BeingStopped]
    decide +kernel
  rw [hstarts.noZombie_iff]
  intro hnone
  exact hnone 0 ⟨⟨["a"], 0, 0, true, false, false⟩, by decide +kernel, by decide +kernel, rfl, hfree⟩

end AnalyzerPool

end AgzRustMcp.Lsp
