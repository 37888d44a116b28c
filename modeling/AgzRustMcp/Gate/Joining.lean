import AgzRustMcp.Gate.Scheduler

/-!
# Callers that share a gate job

A caller that joined a job should not see it cancelled because of another caller: the last
subscriber who detaches cancels the job.  But a caller who has joined and not subscribed yet is not
counted, and a job can still be joined before it is cancelled.  `nobody_cancels_for_others` is about
runs that meet neither gap.
-/

namespace AgzRustMcp.Gate

variable {α : Type}

/-! ## The invariant of a job -/

def Job.GaveUp (job : Job α) (c : ℕ) : Prop := job.gaveUp[c]? = some true

instance (job : Job α) (c : ℕ) : Decidable (job.GaveUp c) :=
  inferInstanceAs (Decidable (job.gaveUp[c]? = some true))

def Job.Excused (job : Job α) (c : ℕ) : Prop := job.GaveUp c ∨ job.result.isSome = true

instance (job : Job α) (c : ℕ) : Decidable (job.Excused c) :=
  inferInstanceAs (Decidable (_ ∨ _))

/-- Every caller but `b` has given up or has a result to look at. -/
def Job.OnlyMatters (job : Job α) (b : ℕ) : Prop :=
  ∀ c < job.gaveUp.length, c ≠ b → job.Excused c

/-- What holds of a job as long as the callers are considerate. -/
structure JobInv (job : Job α) : Prop where
  caller_lt : ∀ sub ∈ job.subscriptions, sub.caller < job.gaveUp.length
  count : job.subscriptions.countP (fun sub => !sub.detached) ≤ job.subscribers
  left : ∀ sub ∈ job.subscriptions, sub.detached = true → sub.observed.isSome = true ∨ job.GaveUp sub.caller
  seen : ∀ sub ∈ job.subscriptions, sub.observed.isSome = true → job.Excused sub.caller
  leaving : ∀ sub ∈ job.subscriptions, sub.leaving = true → job.OnlyMatters sub.caller
  canceller : job.reason = some .cancelled → ∃ b, job.canceller = some b ∧ job.OnlyMatters b
  blamed : ∀ b, job.blamed = some b → job.reason.isSome = true ∧ ∀ c < job.gaveUp.length, c ≠ b → job.GaveUp c
  decided : job.result.isSome = true → job.decided.isSome = true

section Job

variable {job job' : Job α} {sub sub' : Subscription α} {b c k : ℕ}

lemma Job.GaveUp.giveUp (h : job.GaveUp c) (d : ℕ) : (job.giveUp d).GaveUp c := by
  have hlt : c < job.gaveUp.length := (List.getElem?_eq_some_iff.mp h).1
  unfold GaveUp Job.giveUp
  rw [List.getElem?_set]
  split
  · next heq =>
    rw [if_pos (heq ▸ hlt)]
  · exact h

lemma Job.gaveUp_giveUp (h : c < job.gaveUp.length) : (job.giveUp c).GaveUp c := by
  unfold GaveUp Job.giveUp
  rw [List.getElem?_set_self h]

@[simp] lemma Job.length_giveUp (job : Job α) (d : ℕ) :
    (job.giveUp d).gaveUp.length = job.gaveUp.length := List.length_set

lemma Job.OnlyMatters.giveUp (h : job.OnlyMatters b) (d : ℕ) : (job.giveUp d).OnlyMatters b := by
  intro c hc hne
  rw [Job.length_giveUp] at hc
  rcases h c hc hne with hgave | hresult
  · exact Or.inl (hgave.giveUp d)
  · exact Or.inr hresult

lemma JobInv.giveUp (h : JobInv job) (d : ℕ) : JobInv (job.giveUp d) where
  caller_lt sub hsub := by
    rw [Job.length_giveUp]
    exact h.caller_lt sub hsub
  count := h.count
  left sub hsub hdetached := (h.left sub hsub hdetached).imp_right fun hgave => hgave.giveUp d
  seen sub hsub hobserved := (h.seen sub hsub hobserved).imp_left fun hgave => hgave.giveUp d
  leaving sub hsub hleaving := (h.leaving sub hsub hleaving).giveUp d
  canceller hreason := by
    obtain ⟨b, hb, hmatters⟩ := h.canceller hreason
    exact ⟨b, hb, hmatters.giveUp d⟩
  blamed b hb := by
    obtain ⟨hreason, hgave⟩ := h.blamed b hb
    refine ⟨hreason, fun c hc hne => ?_⟩
    rw [Job.length_giveUp] at hc
    exact (hgave c hc hne).giveUp d
  decided := h.decided

lemma JobInv.cancel (h : JobInv job) {reason : CancelReason} (hreason : reason ≠ .cancelled) :
    JobInv (job.cancel reason) where
  caller_lt := h.caller_lt
  count := h.count
  left := h.left
  seen := h.seen
  leaving := h.leaving
  canceller hcancelled := by
    refine h.canceller ?_
    cases hr : job.reason with
    | none =>
      simp only [Job.cancel, hr, Option.orElse_none, Option.some.injEq] at hcancelled
      exact absurd hcancelled hreason
    | some r => simpa [Job.cancel, hr] using hcancelled
  blamed b hb := by
    obtain ⟨hsome, hgave⟩ := h.blamed b hb
    refine ⟨?_, hgave⟩
    obtain ⟨r, hr⟩ := Option.isSome_iff_exists.mp hsome
    simp [Job.cancel, hr]
  decided := h.decided

lemma JobInv.cancelBy (h : JobInv job) (hmatters : job.OnlyMatters b) : JobInv (job.cancelBy b) where
  caller_lt := h.caller_lt
  count := h.count
  left := h.left
  seen := h.seen
  leaving := h.leaving
  canceller hcancelled := by
    cases hr : job.reason with
    | none => exact ⟨b, by simp [Job.cancelBy, hr], hmatters⟩
    | some r =>
      have hcancelled' : job.reason = some .cancelled := by
        simpa [Job.cancelBy, Job.cancel, hr] using hcancelled
      obtain ⟨b', hb', hmatters'⟩ := h.canceller hcancelled'
      exact ⟨b', by simp [Job.cancelBy, hr, hb'], hmatters'⟩
  blamed b' hb' := by
    obtain ⟨hsome, hgave⟩ := h.blamed b' hb'
    refine ⟨?_, hgave⟩
    obtain ⟨r, hr⟩ := Option.isSome_iff_exists.mp hsome
    simp [Job.cancelBy, Job.cancel, hr]
  decided := h.decided

lemma JobInv.set (h : JobInv job) (sub' : Subscription α) (hk : job.subscriptions[k]? = some sub)
    (hcaller : sub'.caller = sub.caller) (hdetached : sub'.detached = sub.detached)
    (hleft : sub'.detached = true → sub'.observed.isSome = true ∨ job.GaveUp sub.caller)
    (hseen : sub'.observed.isSome = true → job.Excused sub.caller)
    (hleaving : sub'.leaving = true → job.OnlyMatters sub.caller) :
    JobInv { job with subscriptions := job.subscriptions.set k sub' } where
  caller_lt other hother := by
    rcases List.mem_or_eq_of_mem_set hother with hmem | rfl
    · exact h.caller_lt other hmem
    · rw [hcaller]
      exact h.caller_lt sub (List.mem_of_getElem? hk)
  count := by
    obtain ⟨hlt, heq⟩ := List.getElem?_eq_some_iff.mp hk
    have hcount := h.count
    rw [List.countP_set hlt, heq, hdetached]
    have hpos : sub.detached = false → 0 < job.subscriptions.countP (fun sub => !sub.detached) := fun hfalse =>
      List.countP_pos_iff.mpr ⟨sub, List.mem_of_getElem? hk, by simp [hfalse]⟩
    cases hd : sub.detached with
    | true => simpa using hcount
    | false =>
      have := hpos hd
      simp only [Bool.not_false, if_true]
      omega
  left other hother hd := by
    rcases List.mem_or_eq_of_mem_set hother with hmem | rfl
    · exact h.left other hmem hd
    · rw [hcaller]
      exact hleft hd
  seen other hother hobserved := by
    rcases List.mem_or_eq_of_mem_set hother with hmem | rfl
    · exact h.seen other hmem hobserved
    · rw [hcaller]
      exact hseen hobserved
  leaving other hother hl := by
    rcases List.mem_or_eq_of_mem_set hother with hmem | rfl
    · exact h.leaving other hmem hl
    · rw [hcaller]
      exact hleaving hl
  canceller := h.canceller
  blamed := h.blamed
  decided := h.decided

lemma JobInv.onlyMatters_of_last (h : JobInv job) (hk : job.subscriptions[k]? = some sub)
    (hattached : sub.detached = false) (hlast : job.subscribers = 1)
    (hothers : ∀ c < job.gaveUp.length, c ≠ sub.caller → ∃ other ∈ job.subscriptions,
      other.caller = c) : job.OnlyMatters sub.caller := by
  intro c hc hne
  obtain ⟨other, hother, rfl⟩ := hothers c hc hne
  obtain ⟨hlt, heq⟩ := List.getElem?_eq_some_iff.mp hk
  -- Without `sub` no subscription is attached, so `other` is detached.
  have hnone : (job.subscriptions.set k { sub with detached := true }).countP
      (fun sub => !sub.detached) = 0 := by
    have hcount := h.count
    rw [List.countP_set hlt, heq, hattached]
    simp only [Bool.not_false, if_true, Bool.not_true, Bool.false_eq_true, if_false]
    omega
  have hmem : other ∈ job.subscriptions.set k { sub with detached := true } := by
    obtain ⟨i, hi, rfl⟩ := List.mem_iff_getElem.mp hother
    have hik : k ≠ i := by
      rintro rfl
      exact hne (by rw [heq])
    exact List.mem_iff_getElem.mpr ⟨i, by simpa using hi, List.getElem_set_ne hik _⟩
  have hdetached : other.detached = true := by
    simpa using List.countP_eq_zero.mp hnone other hmem
  rcases h.left other hother hdetached with hobserved | hgave
  · exact h.seen other hother hobserved
  · exact Or.inl hgave

lemma JobInv.lowerCount (h : JobInv job) (hk : job.subscriptions[k]? = some sub)
    (hcaller : sub'.caller = sub.caller) (hattached : sub.detached = false)
    (hothers : job.subscribers = 1 → ∀ c < job.gaveUp.length, c ≠ sub.caller →
      ∃ other ∈ job.subscriptions, other.caller = c) (hseen : sub'.observed.isSome = true → job.Excused sub.caller)
    (hleft : sub'.observed.isSome = true ∨ job.GaveUp sub.caller) : JobInv (job.lowerCount k sub') where
  caller_lt other hother := by
    rcases List.mem_or_eq_of_mem_set hother with hmem | rfl
    · exact h.caller_lt other hmem
    · exact (congrArg (· < job.gaveUp.length) hcaller).mpr
        (h.caller_lt sub (List.mem_of_getElem? hk))
  count := by
    obtain ⟨hlt, heq⟩ := List.getElem?_eq_some_iff.mp hk
    have hcount := h.count
    have hpos : 0 < job.subscriptions.countP (fun sub => !sub.detached) :=
      List.countP_pos_iff.mpr ⟨sub, List.mem_of_getElem? hk, by simp [hattached]⟩
    simp only [Job.lowerCount]
    rw [List.countP_set hlt, heq, hattached]
    simp only [Bool.not_false, if_true, Bool.not_true, Bool.false_eq_true, if_false]
    omega
  left other hother hd := by
    rcases List.mem_or_eq_of_mem_set hother with hmem | rfl
    · exact h.left other hmem hd
    · exact hleft.imp_right fun hgave => (congrArg job.GaveUp hcaller).mpr hgave
  seen other hother hobserved := by
    rcases List.mem_or_eq_of_mem_set hother with hmem | rfl
    · exact h.seen other hmem hobserved
    · exact (congrArg job.Excused hcaller).mpr (hseen hobserved)
  leaving other hother hl := by
    rcases List.mem_or_eq_of_mem_set hother with hmem | rfl
    · exact h.leaving other hmem hl
    · exact (congrArg job.OnlyMatters hcaller).mpr
        (h.onlyMatters_of_last hk hattached (by simpa using hl) (hothers (by simpa using hl)))
  canceller := h.canceller
  blamed := h.blamed
  decided := h.decided

lemma JobInv.lowerCount_giveUp (h : JobInv job) (hk : job.subscriptions[k]? = some sub)
    (hcaller : sub'.caller = sub.caller) (hattached : sub.detached = false)
    (hothers : job.subscribers = 1 → ∀ c < job.gaveUp.length, c ≠ sub.caller →
      ∃ other ∈ job.subscriptions, other.caller = c) : JobInv ((job.lowerCount k sub').giveUp sub.caller) := by
  have hgave := Job.gaveUp_giveUp (h.caller_lt sub (List.mem_of_getElem? hk))
  have hlower := (h.giveUp sub.caller).lowerCount hk hcaller hattached
    (fun hlast c hc hne => hothers hlast c (by simpa using hc) hne) (fun _ => Or.inl hgave)
    (Or.inr hgave)
  exact hlower

end Job

/-! ## Considerate callers -/

/-- When the last subscriber detaches, every other caller has subscribed. -/
def Job.LeavesNobody (job : Job α) (sub : Subscription α) : Prop :=
  sub.detached = false → job.subscribers = 1 →
    ∀ c < job.gaveUp.length, c ≠ sub.caller → ∃ other ∈ job.subscriptions, other.caller = c

instance (job : Job α) (sub : Subscription α) : Decidable (job.LeavesNobody sub) :=
  inferInstanceAs (Decidable (_ → _ → _))

/-- The step meets only subscribers, and cancels nothing wanted. -/
def Job.Considerate (job : Job α) : JobAction α → Prop
  | .detach k => ∀ sub ∈ job.subscriptions[k]?, job.LeavesNobody sub
  | .waitCancelled k =>
    ∀ sub ∈ job.subscriptions[k]?, sub.cancelRequested = true → job.LeavesNobody sub
  | .cancelHandle caller => ∀ c < job.gaveUp.length, c ≠ caller → job.Excused c
  | _ => True

instance (job : Job α) : (action : JobAction α) → Decidable (job.Considerate action)
  | .detach k => inferInstanceAs (Decidable (∀ sub ∈ job.subscriptions[k]?, job.LeavesNobody sub))
  | .waitCancelled k => inferInstanceAs (Decidable
      (∀ sub ∈ job.subscriptions[k]?, sub.cancelRequested = true → job.LeavesNobody sub))
  | .cancelHandle caller => inferInstanceAs (Decidable
      (∀ c < job.gaveUp.length, c ≠ caller → job.Excused c))
  | .subscribe _ | .requestCancel _ | .wait _ | .cancelLast _ | .decide _ | .expire | .store
  | .complete => .isTrue trivial

/-- A submission joins no job to be cancelled; steps on jobs are considerate. -/
def Scheduler.Considerate (s : Scheduler α) : SchedulerStep α → Prop
  | .submit root key identityKey =>
    match s.submission root key identityKey with
    | (s', .joins j) => ∀ job ∈ s'.spawned[j]?, ∀ sub ∈ job.subscriptions, sub.leaving = false
    | _ => True
  | .act j action => ∀ job ∈ s.spawned[j]?, job.Considerate action
  | _ => True

instance (s : Scheduler α) : (step : SchedulerStep α) → Decidable (s.Considerate step)
  | .submit root key identityKey =>
    match h : s.submission root key identityKey with
    | (s', .joins j) => decidable_of_iff
        (∀ job ∈ s'.spawned[j]?, ∀ sub ∈ job.subscriptions, sub.leaving = false)
        (by simp only [Scheduler.Considerate, h])
    | (s', .refused) => .isTrue (by simp only [Scheduler.Considerate, h])
    | (s', .spawns _ _) => .isTrue (by simp only [Scheduler.Considerate, h])
  | .act j action => inferInstanceAs (Decidable (∀ job ∈ s.spawned[j]?, job.Considerate action))
  | .markDirty _ | .close | .retire _ => .isTrue trivial

section Steps

variable {job : Job α} {s : Scheduler α}

lemma JobInv.subscribe (h : JobInv job) {c : ℕ} (hc : c < job.gaveUp.length) : JobInv { job with
      subscribers := job.subscribers + 1
      subscriptions := job.subscriptions ++ [{ caller := c }] } where
  caller_lt sub hsub := by
    rcases List.mem_append.mp hsub with hmem | hmem
    · exact h.caller_lt sub hmem
    · rw [List.mem_singleton.mp hmem]
      exact hc
  count := by
    have hcount := h.count
    simp only [List.countP_append]
    exact Nat.add_le_add hcount (by simp)
  left sub hsub hdetached := by
    rcases List.mem_append.mp hsub with hmem | hmem
    · exact h.left sub hmem hdetached
    · rw [List.mem_singleton.mp hmem] at hdetached
      exact absurd hdetached Bool.false_ne_true
  seen sub hsub hobserved := by
    rcases List.mem_append.mp hsub with hmem | hmem
    · exact h.seen sub hmem hobserved
    · rw [List.mem_singleton.mp hmem] at hobserved
      exact absurd hobserved Bool.false_ne_true
  leaving sub hsub hleaving := by
    rcases List.mem_append.mp hsub with hmem | hmem
    · exact h.leaving sub hmem hleaving
    · rw [List.mem_singleton.mp hmem] at hleaving
      exact absurd hleaving Bool.false_ne_true
  canceller := h.canceller
  blamed := h.blamed
  decided := h.decided

lemma JobInv.settle (h : JobInv job) (hdecided : job.decided = none) (result : JobResult α) :
    JobInv (job.settle result) where
  caller_lt := h.caller_lt
  count := h.count
  left := h.left
  seen := h.seen
  leaving := h.leaving
  canceller := h.canceller
  blamed b hb := by
    have hresult : job.result.isSome = false := by
      cases hr : job.result.isSome with
      | false => rfl
      | true => simpa [hdecided] using h.decided hr
    simp only [Job.settle] at hb
    split at hb
    · next hreason =>
      obtain ⟨b', hb', hmatters⟩ := h.canceller hreason
      obtain rfl := Option.some.inj (hb'.symm.trans hb)
      refine ⟨by simp [Job.settle, hreason], fun c hc hne => ?_⟩
      exact (hmatters c hc hne).resolve_right (by simp [hresult])
    · simp at hb
  decided _ := rfl

lemma JobInv.join (h : JobInv job) (hreason : job.reason = none)
    (hleaving : ∀ sub ∈ job.subscriptions, sub.leaving = false) : JobInv job.join := by
  have hgave : ∀ {c}, job.GaveUp c → job.join.GaveUp c := by
    intro c hc
    have hlt : c < job.gaveUp.length := (List.getElem?_eq_some_iff.mp hc).1
    exact (List.getElem?_append_left hlt).trans hc
  have hlength : job.join.gaveUp.length = job.gaveUp.length + 1 := List.length_append
  exact
    { caller_lt := fun sub hsub => by
        rw [hlength]
        exact Nat.lt_succ_of_lt (h.caller_lt sub hsub)
      count := h.count
      left := fun sub hsub hdetached => (h.left sub hsub hdetached).imp_right hgave
      seen := fun sub hsub hobserved => (h.seen sub hsub hobserved).imp_left hgave
      leaving := fun sub hsub hl => absurd hl (by simp [hleaving sub hsub])
      canceller := fun hcancelled => by simp [Job.join, hreason] at hcancelled
      blamed := fun b hb => by simpa [hreason] using (h.blamed b hb).1
      decided := h.decided }

lemma JobInv.store (h : JobInv job) (hresult : job.result = none) : JobInv { job with result := job.decided } := by
  have hexcused : ∀ {c}, job.Excused c → ({ job with result := job.decided } : Job α).Excused c :=
    fun hc => Or.inl (hc.resolve_right (by simp [hresult]))
  exact
    { caller_lt := h.caller_lt
      count := h.count
      left := h.left
      seen := fun sub hsub hobserved => hexcused (h.seen sub hsub hobserved)
      leaving := fun sub hsub hl c hc hne => hexcused (h.leaving sub hsub hl c hc hne)
      canceller := fun hcancelled => by
        obtain ⟨b, hb, hmatters⟩ := h.canceller hcancelled
        exact ⟨b, hb, fun c hc hne => hexcused (hmatters c hc hne)⟩
      blamed := h.blamed
      decided := fun hr => hr }

/-- A considerate step keeps the invariant of its job. -/
lemma JobInv.act (h : JobInv job) {action : JobAction α} (hcond : job.Considerate action) :
    JobInv (job.act action) := by
  cases action with
  | subscribe caller =>
    simp only [Job.act]
    split
    · next hc => exact h.subscribe hc
    · exact h
  | requestCancel k =>
    simp only [Job.act]
    split
    · exact h
    · next sub hk =>
      have hmem := List.mem_of_getElem? hk
      have hset := h.set { sub with cancelRequested := true } hk rfl rfl
        (h.left sub hmem) (h.seen sub hmem) (h.leaving sub hmem)
      exact hset.giveUp _
  | wait k =>
    simp only [Job.act]
    split
    · next sub result hk hresult =>
      split
      · have hmem := List.mem_of_getElem? hk
        exact h.set _ hk rfl rfl (fun _ => Or.inl rfl) (fun _ => Or.inr (by simp [hresult]))
          (h.leaving sub hmem)
      · exact h
    · exact h
  | waitCancelled k =>
    simp only [Job.act]
    split
    · exact h
    · next sub hk =>
      have hmem := List.mem_of_getElem? hk
      split
      · exact h
      · next hskip =>
        obtain ⟨hunseen, hrequested⟩ : sub.observed = none ∧ sub.cancelRequested = true := by
          simpa using hskip
        split
        · next hdetached =>
          have hgave := (h.left sub hmem hdetached).resolve_left (by simp [hunseen])
          exact h.set _ hk rfl rfl (fun _ => Or.inl rfl) (fun _ => Or.inl hgave) (h.leaving sub hmem)
        · next hattached =>
          exact h.lowerCount_giveUp hk rfl (by simpa using hattached)
            (hcond sub hk hrequested (by simpa using hattached))
  | detach k =>
    simp only [Job.act]
    split
    · exact h
    · next sub hk =>
      have hmem := List.mem_of_getElem? hk
      split
      · exact h
      · next hattached =>
        have hothers := hcond sub hk (by simpa using hattached)
        split
        · next hseen =>
          exact h.lowerCount hk rfl (by simpa using hattached) hothers
            (fun _ => h.seen sub hmem hseen) (Or.inl hseen)
        · exact h.lowerCount_giveUp hk rfl (by simpa using hattached) hothers
  | cancelLast k =>
    simp only [Job.act]
    split
    · exact h
    · next sub hk =>
      have hmem := List.mem_of_getElem? hk
      have hset := h.set { sub with leaving := false } hk rfl rfl (h.left sub hmem)
        (h.seen sub hmem) (fun hl => absurd hl Bool.false_ne_true)
      split
      · exact h
      · next hleaving =>
        split
        · exact hset
        · exact hset.cancelBy (h.leaving sub hmem (by simpa using hleaving))
  | cancelHandle caller =>
    simp only [Job.act]
    split
    · have hmatters : job.OnlyMatters caller := fun c hc hne => hcond c hc hne
      exact (h.giveUp caller).cancelBy (hmatters.giveUp caller)
    · exact h
  | decide raw =>
    simp only [Job.act]
    split
    · exact h
    · next hdecided => exact h.settle (by simpa using hdecided) _
  | expire =>
    simp only [Job.act]
    split
    · exact h
    · next hdecided =>
      exact (h.cancel (by decide)).settle (by simpa [Job.cancel] using hdecided) _
  | store =>
    simp only [Job.act]
    split
    · exact h
    · next hresult => exact h.store (by simpa using hresult)
  | complete =>
    simp only [Job.act]
    split
    · exact
        { caller_lt := h.caller_lt, count := h.count, left := h.left, seen := h.seen
          leaving := h.leaving, canceller := h.canceller, blamed := h.blamed, decided := h.decided }
    · exact h

def SchedulerInv (s : Scheduler α) : Prop := ∀ job ∈ s.spawned, JobInv job

lemma jobInv_new (root key identityKey : String) (generation : ℕ) :
    JobInv ({ root, key, identityKey, generation, gaveUp := [false] } : Job α) where
  caller_lt sub hsub := by simp at hsub
  count := le_rfl
  left sub hsub := by simp at hsub
  seen sub hsub := by simp at hsub
  leaving sub hsub := by simp at hsub
  canceller hcancelled := by simp at hcancelled
  blamed b hb := by simp at hb
  decided hr := by simp at hr

lemma SchedulerInv.modifyJob (h : SchedulerInv s) {j : ℕ} {f : Job α → Job α}
    (hf : ∀ job ∈ s.spawned[j]?, JobInv (f job)) : SchedulerInv (s.modifyJob j f) := by
  intro job hjob
  obtain ⟨i, hi⟩ := List.mem_iff_getElem?.mp hjob
  rw [Scheduler.modifyJob, List.getElem?_modify] at hi
  obtain ⟨before, hbefore, heq⟩ := Option.map_eq_some_iff.mp hi
  split at heq
  · next hij =>
    rw [← heq]
    exact hf before (hij ▸ hbefore)
  · rw [← heq]
    exact h before (List.mem_of_getElem? hbefore)

lemma SchedulerInv.cancelWhere (h : SchedulerInv s) (selected : Job α → Bool)
    {reason : CancelReason} (hreason : reason ≠ .cancelled) : SchedulerInv (s.cancelWhere selected reason) := by
  intro job hjob
  obtain ⟨before, hbefore, rfl | rfl⟩ := Scheduler.exists_of_mem_cancelWhere hjob
  · exact h job hbefore
  · exact (h before hbefore).cancel hreason

lemma SchedulerInv.submission (h : SchedulerInv s) (root key identityKey : String) :
    SchedulerInv (s.submission root key identityKey).1 := by
  rcases s.submission_fst root key identityKey with heq | heq
  · rw [heq]
    exact h
  · rw [heq]
    intro job hjob
    obtain ⟨before, hbefore, rfl | rfl⟩ := Scheduler.exists_of_mem_supersede hjob
    · exact h job hbefore
    · exact (h before hbefore).cancel (by decide)

lemma SchedulerInv.step (h : SchedulerInv s) {step : SchedulerStep α}
    (hcond : s.Considerate step) : SchedulerInv (s.step step) := by
  cases step with
  | submit root key identityKey =>
    have hs' := h.submission root key identityKey
    simp only [Scheduler.step, Scheduler.submit]
    simp only [Scheduler.Considerate] at hcond
    cases hsub : s.submission root key identityKey with
    | mk s' submission =>
      rw [hsub] at hs' hcond
      cases submission with
      | refused => exact hs'
      | joins j =>
        obtain ⟨job, hjob, -, hreason⟩ := Scheduler.of_submission_joins hsub
        refine hs'.modifyJob fun job' hjob' => ?_
        obtain rfl := Option.some.inj (hjob.symm.trans hjob')
        exact (hs' job (List.mem_of_getElem? hjob)).join hreason (hcond job hjob)
      | spawns composite generation =>
        intro job hjob
        rcases List.mem_append.mp hjob with hold | hnew
        · exact hs' job hold
        · rw [List.mem_singleton.mp hnew]
          exact jobInv_new root key identityKey generation
  | act j action =>
    exact h.modifyJob fun job hjob => (h job (List.mem_of_getElem? hjob)).act (hcond job hjob)
  | markDirty root => exact h.cancelWhere _ (by decide)
  | close => exact h.cancelWhere _ (by decide)
  | retire j =>
    simp only [Scheduler.step, Scheduler.retire]
    split
    · exact h
    · exact h

end Steps

/-! ## Runs -/

def Scheduler.ConsiderateAlong (s : Scheduler α) (steps : List (SchedulerStep α)) : Prop :=
  Runs.Along Scheduler.step Scheduler.Considerate s steps

/-- A caller sees its job cancelled because of another one. -/
def Job.Fails (job : Job α) (sub : Subscription α) : Prop :=
  sub.observed = some (.error .cancelled) ∧ ¬ job.GaveUp sub.caller ∧ ∃ b ∈ job.blamed, b ≠ sub.caller

instance [DecidableEq α] (job : Job α) (sub : Subscription α) : Decidable (job.Fails sub) :=
  inferInstanceAs (Decidable (_ ∧ _ ∧ _))

/-- In considerate runs no caller sees its job cancelled for another. -/
theorem nobody_cancels_for_others {steps : List (SchedulerStep α)}
    (h : ({} : Scheduler α).ConsiderateAlong steps) :
    ∀ job ∈ (({} : Scheduler α).run steps).spawned, ∀ sub ∈ job.subscriptions, ¬ job.Fails sub := by
  rintro job hjob sub hsub ⟨-, hkept, b, hblamed, hne⟩
  have hinv : SchedulerInv (({} : Scheduler α).run steps) :=
    Runs.Along.invariant h (fun _ _ hs hcond => hs.step hcond) fun job hjob => by simp at hjob
  have hjobInv := hinv job hjob
  exact hkept ((hjobInv.blamed b hblamed).2 _ (hjobInv.caller_lt sub hsub) (Ne.symm hne))

instance (s : Scheduler α) (steps : List (SchedulerStep α)) : Decidable (s.ConsiderateAlong steps) :=
  Runs.decidableAlong s steps

/-- The steps of the job from the decision on, and one look at the result. -/
def finishAndLook (k : ℕ) : List (SchedulerStep Unit) :=
  [.act 0 (.decide (.ok ())), .act 0 .store, .act 0 (.wait k)]

/-- The second caller subscribes before the first one leaves. -/
def subscribedInTime : List (SchedulerStep Unit) :=
  [.submit "work" "check" "a", .act 0 (.subscribe 0), .submit "work" "check" "a",
    .act 0 (.subscribe 1), .act 0 (.detach 0), .act 0 (.cancelLast 0)] ++ finishAndLook 1

/-- The second caller has joined, and the first one leaves before it subscribes. -/
def subscribedLate : List (SchedulerStep Unit) :=
  [.submit "work" "check" "a", .act 0 (.subscribe 0), .submit "work" "check" "a",
    .act 0 (.detach 0), .act 0 (.cancelLast 0), .act 0 (.subscribe 1)] ++ finishAndLook 1

theorem nobody_cancels_for_others_in_time :
    (({} : Scheduler Unit).run subscribedInTime).spawned.length = 1 ∧
    ∀ job ∈ (({} : Scheduler Unit).run subscribedInTime).spawned, ∀ sub ∈ job.subscriptions, ¬ job.Fails sub :=
  ⟨by decide +kernel, nobody_cancels_for_others (by decide +kernel)⟩

theorem late_subscriber_sees_cancelled :
    ∃ job ∈ (({} : Scheduler Unit).run subscribedLate).spawned, ∃ sub ∈ job.subscriptions, job.Fails sub := by
  decide +kernel

end AgzRustMcp.Gate
