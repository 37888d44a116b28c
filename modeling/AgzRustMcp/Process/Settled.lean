import AgzRustMcp.Foundation.Table
import AgzRustMcp.Process.Supervisor

/-!
# What the end of a run proves

`cleanup_complete` says that a wait has collected the exit status and that a kill has succeeded.
Since the last wait comes after every kill, the kill came first; the journal record and the active
set follow that flag (`cleanup_evidence`).
-/

namespace AgzRustMcp.Process

/-- How far a run is. -/
def RunPhase.stage : RunPhase → ℕ
  | .preparing | .spawning => 0
  | .recording | .polling | .draining _ | .joining _ | .waiting _ | .rewaiting _ => 1
  | .settling _ => 2
  | .finishing _ => 3
  | .uncounting _ | .completing _ => 4
  | .over _ => 5

/-- The run has, or is about to return, a complete cleanup. -/
def RunPhase.claimsComplete : RunPhase → Bool
  | .settling outcome => outcome.cleanupComplete
  | .finishing (.ok outcome) | .uncounting (.ok outcome) | .completing (.ok outcome)
  | .over (.ok outcome) => outcome.cleanupComplete
  | _ => false

/-- The run has left the active set and is still counted. -/
def Run.isUncounting (run : Run) : Bool :=
  match run.phase with
  | .uncounting _ => true
  | _ => false

/-- A kill has succeeded and the exit status was collected after it. -/
def Run.Settled (run : Run) : Prop := SettledCleanup run.watch.calls run.watch.status

/-- What the flags of a run say is true. -/
structure RunInv (active journal : Finset ℕ) (k : ℕ) (run : Run) : Prop where
  early : run.phase.stage = 0 → run.spawned = false
  present : run.phase.stage ≤ 3 → k ∈ active
  honest : run.watch.Honest
  settled : run.phase.claimsComplete = true → run.Settled
  leaves : run.phase.stage = 3 ∨ k ∉ active → run.spawned = true → run.Settled
  recorded : run.journalRecorded = true → k ∈ journal ∨ 3 ≤ run.phase.stage ∧ run.Settled

namespace RunInv

variable {active journal : Finset ℕ} {k : ℕ} {run : Run}

lemma watching (h : RunInv active journal k run) (hstage : run.phase.stage = 1) {watch : Watch}
    {p : RunPhase} (hwatch : watch.Honest) (hphase : p.stage = 1) (hclaims : p.claimsComplete = false) :
    RunInv active journal k { run with watch, phase := p } where
  early hearly := absurd (hphase.symm.trans hearly) (by decide)
  present _ := h.present (by omega)
  honest := hwatch
  settled hclaim := absurd (hclaims.symm.trans hclaim) (by decide)
  leaves hleaves := by
    rcases hleaves with hthree | hgone
    · exact absurd (hphase.symm.trans hthree) (by decide)
    · exact absurd (h.present (by omega)) hgone
  recorded hrecorded := by
    rcases h.recorded hrecorded with hmem | ⟨hthree, -⟩
    · exact Or.inl hmem
    · omega

lemma unspawned (hunspawned : run.spawned = false) (hmem : k ∈ active) (hhonest : run.watch.Honest)
    (hjournal : run.journalRecorded = true → k ∈ journal) {phase : RunPhase}
    (hclaims : phase.claimsComplete = false) : RunInv active journal k { run with phase } where
  early _ := hunspawned
  present _ := hmem
  honest := hhonest
  settled hclaim := absurd (hclaims.symm.trans hclaim) (by decide)
  leaves _ hspawned := absurd (hunspawned.symm.trans hspawned) (by decide)
  recorded hrecorded := Or.inl (hjournal hrecorded)

lemma mem_journal (h : RunInv active journal k run) (hstage : run.phase.stage ≤ 2)
    (hrecorded : run.journalRecorded = true) : k ∈ journal := by
  rcases h.recorded hrecorded with hmem | ⟨hthree, -⟩
  · exact hmem
  · omega

lemma prepare (h : RunInv active journal k run) (hstage : run.phase.stage = 0)
    (normalized cancelled : Bool) (now : ℕ) : RunInv active journal k (run.prepare normalized cancelled now) := by
  have hends : ∀ {phase : RunPhase}, phase.claimsComplete = false → RunInv active journal k { run with phase } :=
    unspawned (h.early hstage) (h.present (by omega)) h.honest (h.mem_journal (by omega))
  unfold Run.prepare
  split
  · exact hends rfl
  split
  · exact hends rfl
  split
  · exact hends rfl
  · exact hends rfl

lemma spawn (h : RunInv active journal k run) (hstage : run.phase.stage = 0)
    {answer : SpawnAnswer} (hpid : ∀ streams, answer ≠ .spawned none streams) :
    RunInv active journal k (run.spawn answer) := by
  have hmem : k ∈ active := h.present (by omega)
  have hjournal := h.mem_journal (by omega)
  match answer with
  | .failed => exact unspawned (h.early hstage) hmem h.honest hjournal rfl
  | .spawned none streams => exact absurd rfl (hpid streams)
  | .spawned (some pid) streams =>
    constructor
    · rintro (hearly : 1 = 0)
      omega
    · exact fun _ => hmem
    · exact h.honest
    · rintro (hclaim : false = true)
      cases hclaim
    · rintro ((hthree : 1 = 3) | hgone)
      · omega
      · exact absurd hmem hgone
    · exact fun hrecorded => Or.inl (hjournal hrecorded)

lemma poll (h : RunInv active journal k run) (hstage : run.phase.stage = 1) (turn : LoopTurn) :
    RunInv active journal k (run.poll turn) := by
  have hhonest := h.honest.loopTurn run.options run.deadline run.stopSent turn
  unfold Run.poll
  generalize run.watch.loopTurn run.options run.deadline run.stopSent turn = pair at hhonest
  obtain ⟨watch, done⟩ := pair
  cases done with
  | true => exact h.watching hstage hhonest rfl rfl
  | false => exact h.watching hstage hhonest rfl rfl

lemma drain (h : RunInv active journal k run) (hstage : run.phase.stage = 1) (cleanupDeadline : ℕ)
    (turn : DrainTurn) : RunInv active journal k (run.drain cleanupDeadline turn) := by
  have hhonest := h.honest.drainTurn run.streams cleanupDeadline turn
  unfold Run.drain
  generalize run.watch.drainTurn run.streams cleanupDeadline turn = pair at hhonest
  obtain ⟨watch, done⟩ := pair
  cases done with
  | true => exact h.watching hstage hhonest rfl rfl
  | false => exact h.watching hstage hhonest rfl rfl

lemma settle (h : RunInv active journal k run) (hstage : run.phase.stage = 1) (drained : Bool)
    (result : WaitResult) (collected : Bool) (hcollected : collected = true → ∃ code, result = .exited code) :
    RunInv active journal k ({ run with watch := run.watch.waitChild result }.settle drained collected) := by
  constructor
  · rintro (hearly : 2 = 0)
    omega
  · exact fun _ => h.present (by omega)
  · exact h.honest.waitChild result
  · intro hclaim
    simp only [Run.settle, RunPhase.claimsComplete, Run.outcome, Bool.and_eq_true] at hclaim
    obtain ⟨code, rfl⟩ := hcollected hclaim.1
    exact h.honest.settled hclaim.2 code
  · rintro ((hthree : 2 = 3) | hgone)
    · omega
    · exact absurd (h.present (by omega)) hgone
  · exact fun hrecorded => Or.inl (h.mem_journal (by omega) hrecorded)

lemma wait (h : RunInv active journal k run) (hstage : run.phase.stage = 1) (drained : Bool)
    (result : WaitResult) (kill : KillResult) : RunInv active journal k (run.wait drained result kill) := by
  cases result with
  | exited code => exact h.settle hstage drained (.exited code) true fun _ => ⟨code, rfl⟩
  | failed =>
    exact h.watching hstage ((h.honest.waitChild .failed).forceKill kill) rfl rfl
  | elapsed =>
    exact h.watching hstage ((h.honest.waitChild .elapsed).forceKill kill) rfl rfl

lemma rewait (h : RunInv active journal k run) (hstage : run.phase.stage = 1) (drained : Bool)
    (result : WaitResult) : RunInv active journal k (run.rewait drained result) := by
  cases result with
  | exited code => exact h.settle hstage drained (.exited code) true fun _ => ⟨code, rfl⟩
  | failed => exact h.settle hstage drained .failed false (by simp)
  | elapsed => exact h.settle hstage drained .elapsed false (by simp)

lemma conclude (h : RunInv active journal k run) {outcome : RunOutcome}
    (hphase : run.phase = .settling outcome) {journal' : Finset ℕ}
    (hjournal : outcome.cleanupComplete = true ∨ journal' = journal) :
    RunInv active journal' k (run.conclude outcome) := by
  have hmem : k ∈ active := h.present (by simp [hphase, RunPhase.stage])
  have hsettled : outcome.cleanupComplete = true → run.Settled := fun hcomplete =>
    h.settled (by rw [hphase]; exact hcomplete)
  cases hcomplete : outcome.cleanupComplete with
  | true =>
    have hconclude : run.conclude outcome = { run with phase := .finishing (.ok outcome) } := by
      simp [Run.conclude, hcomplete]
    rw [hconclude]
    constructor
    · rintro (hearly : 3 = 0)
      omega
    · exact fun _ => hmem
    · exact h.honest
    · exact fun _ => hsettled hcomplete
    · exact fun _ _ => hsettled hcomplete
    · exact fun _ => Or.inr ⟨le_rfl, hsettled hcomplete⟩
  | false =>
    have hconclude : run.conclude outcome = { run with phase := .over (.ok outcome) } := by
      simp [Run.conclude, hcomplete]
    obtain rfl : journal' = journal := hjournal.resolve_left (by simp [hcomplete])
    rw [hconclude]
    constructor
    · rintro (hearly : 5 = 0)
      omega
    · exact fun _ => hmem
    · exact h.honest
    · exact fun hclaim => absurd (hcomplete.symm.trans hclaim) (by decide)
    · rintro ((hthree : 5 = 3) | hgone)
      · omega
      · exact absurd hmem hgone
    · exact fun hrecorded => Or.inl (h.mem_journal (by simp [hphase, RunPhase.stage]) hrecorded)

lemma leave (h : RunInv active journal k run) {result : Except ProcessError RunOutcome}
    (hphase : run.phase = .finishing result) {active' : Finset ℕ} :
    RunInv active' journal k { run with phase := .uncounting result } := by
  have hleaves : run.spawned = true → run.Settled :=
    h.leaves (Or.inl (by rw [hphase]; rfl))
  constructor
  · rintro (hearly : 4 = 0)
    omega
  · rintro (hpresent : 4 ≤ 3)
    omega
  · exact h.honest
  · intro hclaim
    refine h.settled ?_
    rw [hphase]
    cases result <;> exact hclaim
  · exact fun _ => hleaves
  · intro hrecorded
    rcases h.recorded hrecorded with hmem | ⟨-, hsettled⟩
    · exact Or.inl hmem
    · exact Or.inr ⟨(by omega : 3 ≤ 4), hsettled⟩

lemma later (h : RunInv active journal k run) (hstage : run.phase.stage = 4) {p : RunPhase}
    (hphase : 4 ≤ p.stage) (hclaims : p.claimsComplete = run.phase.claimsComplete)
    (complete : Bool) : RunInv active journal k { run with phase := p, complete } where
  early hearly := by
    change p.stage = 0 at hearly
    omega
  present hpresent := by
    change p.stage ≤ 3 at hpresent
    omega
  honest := h.honest
  settled hclaim := h.settled (hclaims.symm.trans hclaim)
  leaves hleaves := by
    rcases hleaves with hthree | hgone
    · change p.stage = 3 at hthree
      omega
    · exact h.leaves (Or.inr hgone)
  recorded hrecorded := by
    rcases h.recorded hrecorded with hmem | ⟨-, hsettled⟩
    · exact Or.inl hmem
    · refine Or.inr ⟨?_, hsettled⟩
      change 3 ≤ p.stage
      omega

lemma congr (h : RunInv active journal k run) {active' journal' : Finset ℕ}
    (hactive : k ∈ active' ↔ k ∈ active) (hjournal : k ∈ journal → k ∈ journal') : RunInv active' journal' k run where
  early := h.early
  present hstage := hactive.mpr (h.present hstage)
  honest := h.honest
  settled := h.settled
  leaves hleaves := by
    rw [hactive] at hleaves
    exact h.leaves hleaves
  recorded hrecorded := (h.recorded hrecorded).imp_left hjournal

end RunInv

/-! ## The supervisor -/

namespace Supervisor

variable {s : Supervisor} {k : ℕ} {run : Run} {event : SupervisorEvent}

/-- What the flags of all runs say is true, and the count is the number of active runs. -/
structure SupervisorInv (s : Supervisor) : Prop where
  runs : ∀ (k : ℕ) (run : Run), s.runs[k]? = some run → RunInv s.active s.journal k run
  known : ∀ k ∈ s.active, k < s.runs.length
  count : s.activeCount = s.active.card + s.runs.countP Run.isUncounting

lemma supervisorInv_empty (hasJournal : Bool) : SupervisorInv { hasJournal } where
  runs k run hrun := by simp at hrun
  known k hk := by simp at hk
  count := by simp

lemma SupervisorInv.change (h : SupervisorInv s) (hk : s.runs[k]? = some run) {next : Supervisor}
    {f : Run → Run} (hruns : next.runs = s.runs.modify k f) (hrun : RunInv next.active next.journal k (f run))
    (hactive : ∀ j, j ≠ k → (j ∈ next.active ↔ j ∈ s.active))
    (hjournal : ∀ j, j ≠ k → j ∈ s.journal → j ∈ next.journal)
    (hcount : next.activeCount + s.active.card + (if run.isUncounting then 1 else 0) =
      s.activeCount + next.active.card + if (f run).isUncounting then 1 else 0) : SupervisorInv next := by
  constructor
  · intro j other hj
    rw [hruns, Table.getElem?_modify_eq_some_iff] at hj
    obtain ⟨before, hbefore, rfl⟩ := hj
    by_cases hkj : k = j
    · subst hkj
      obtain rfl : before = run := Option.some.inj (hbefore.symm.trans hk)
      rw [if_pos rfl]
      exact hrun
    · rw [if_neg hkj]
      exact (h.runs j before hbefore).congr (hactive j (Ne.symm hkj)) (hjournal j (Ne.symm hkj))
  · intro j hj
    rw [hruns, List.length_modify]
    by_cases hjk : j = k
    · exact hjk ▸ Table.lt_length_of_getElem? hk
    · exact h.known j ((hactive j hjk).mp hj)
  · have hmodify := Table.countP_modify (p := Run.isUncounting) (f := f) hk
    have hbefore := h.count
    rw [hruns]
    omega

lemma SupervisorInv.setRun (h : SupervisorInv s) (hk : s.runs[k]? = some run) {changed : Run}
    (hrun : RunInv s.active s.journal k changed)
    (huncounting : changed.isUncounting = run.isUncounting) : SupervisorInv (s.setRun k changed) :=
  h.change hk rfl hrun (fun _ _ => Iff.rfl) (fun _ _ hmem => hmem) (by
    rw [huncounting]
    rfl)

lemma SupervisorInv.finish (h : SupervisorInv s) (hk : s.runs[k]? = some run) : SupervisorInv (s.finish k run) := by
  have hrun := h.runs k run hk
  unfold Supervisor.finish
  split
  · rename_i result hphase
    have hmem : k ∈ s.active := hrun.present (by simp [hphase, RunPhase.stage])
    refine h.change hk rfl (hrun.leave hphase) ?_ (fun _ _ hj => hj) ?_
    · intro j hj
      simp [hj]
    · have hcard := Finset.card_erase_add_one hmem
      simp only [Run.isUncounting, hphase]
      change s.activeCount + s.active.card + _ = s.activeCount + (s.active.erase k).card + _
      simp only [Bool.false_eq_true, if_false, if_true]
      omega
  · rename_i result hphase
    have hcount := h.count
    have hpos : 0 < s.runs.countP Run.isUncounting :=
      List.countP_pos_iff.mpr ⟨run, List.mem_of_getElem? hk, by simp [Run.isUncounting, hphase]⟩
    refine h.change hk rfl (hrun.later (by rw [hphase]; rfl) le_rfl (by rw [hphase]; cases result <;> rfl)
      run.complete)
      (fun _ _ => Iff.rfl) (fun _ _ hj => hj) ?_
    simp only [Run.isUncounting, hphase]
    change s.activeCount - 1 + s.active.card + _ = s.activeCount + s.active.card + _
    simp only [Bool.false_eq_true, if_false, if_true]
    omega
  · rename_i result hphase
    exact h.setRun hk (hrun.later (p := .over result) (by rw [hphase]; rfl)
      (by omega : 4 ≤ 5) (by rw [hphase]; cases result <;> rfl) true)
      (by simp [Run.isUncounting, hphase])
  · exact h

lemma SupervisorInv.record (h : SupervisorInv s) (hk : s.runs[k]? = some run)
    (hphase : run.phase = .recording) (ok : Bool) : SupervisorInv (s.record k run ok) := by
  have hrun := h.runs k run hk
  have hstage : run.phase.stage = 1 := by rw [hphase]; rfl
  have hwatching := hrun.watching (p := .polling) hstage hrun.honest rfl rfl
  have huncounting : run.isUncounting = false := by simp [Run.isUncounting, hphase]
  unfold Supervisor.record
  split
  · refine h.change hk rfl ?_ (fun _ _ => Iff.rfl)
      (fun j _ hj => Finset.mem_insert_of_mem hj) ?_
    · exact ⟨hwatching.early, hwatching.present, hwatching.honest, hwatching.settled,
        hwatching.leaves, fun _ => Or.inl (Finset.mem_insert_self k s.journal)⟩
    · rw [huncounting]
      rfl
  · exact h.setRun hk hwatching (by rw [huncounting]; rfl)

lemma SupervisorInv.settle (h : SupervisorInv s) (hk : s.runs[k]? = some run) {outcome : RunOutcome}
    (hphase : run.phase = .settling outcome) (ok : Bool) : SupervisorInv (s.settle k run outcome ok) := by
  have hrun := h.runs k run hk
  have huncounting : (run.conclude outcome).isUncounting = run.isUncounting := by
    unfold Run.conclude
    split <;> simp [Run.isUncounting, hphase]
  unfold Supervisor.settle
  split
  · rename_i hcomplete
    refine h.change hk rfl (hrun.conclude hphase (Or.inl hcomplete.1)) (fun _ _ => Iff.rfl) ?_ ?_
    · intro j hj hmem
      exact Finset.mem_erase.mpr ⟨hj, hmem⟩
    · rw [huncounting]
      rfl
  · exact h.setRun hk (hrun.conclude hphase (Or.inr rfl)) huncounting

lemma isUncounting_of_stage (run : Run) (h : run.phase.stage ≠ 4) : run.isUncounting = false := by
  unfold Run.isUncounting
  split
  · rename_i hphase
    simp [hphase, RunPhase.stage] at h
  · rfl

lemma SupervisorInv.stepRun (h : SupervisorInv s) (hk : s.runs[k]? = some run)
    (hpid : HasPid event) : SupervisorInv (s.stepRun k run event) := by
  have hrun := h.runs k run hk
  unfold Supervisor.stepRun
  split
  · rename_i hphase
    refine h.setRun hk (hrun.prepare (by rw [hphase]; rfl) _ _ _) ?_
    rw [isUncounting_of_stage run (by simp [hphase, RunPhase.stage])]
    unfold Run.prepare
    split_ifs <;> rfl
  · rename_i answer hphase
    refine h.setRun hk (hrun.spawn (by rw [hphase]; rfl) ?_) ?_
    · rintro streams rfl
      exact hpid rfl
    · rw [isUncounting_of_stage run (by simp [hphase, RunPhase.stage])]
      match answer with
      | .failed => rfl
      | .spawned none _ => rfl
      | .spawned (some _) _ => rfl
  · rename_i hphase
    exact h.record hk hphase _
  · rename_i turn hphase
    have hstage : run.phase.stage = 1 := by rw [hphase]; rfl
    refine h.setRun hk (hrun.poll hstage turn) ?_
    rw [isUncounting_of_stage run (by omega)]
    refine isUncounting_of_stage _ ?_
    unfold Run.poll
    dsimp only
    split <;> simp [RunPhase.stage]
  · rename_i cleanupDeadline _ turn hphase
    have hstage : run.phase.stage = 1 := by rw [hphase]; rfl
    refine h.setRun hk (hrun.drain hstage cleanupDeadline turn) ?_
    rw [isUncounting_of_stage run (by omega)]
    refine isUncounting_of_stage _ ?_
    unfold Run.drain
    dsimp only
    split <;> simp [RunPhase.stage]
  · rename_i drained _ complete hphase
    have hstage : run.phase.stage = 1 := by rw [hphase]; rfl
    refine h.setRun hk (hrun.watching hstage hrun.honest rfl rfl) ?_
    rw [isUncounting_of_stage run (by omega)]
    rfl
  · rename_i drained _ result kill hphase
    have hstage : run.phase.stage = 1 := by rw [hphase]; rfl
    refine h.setRun hk (hrun.wait hstage drained result kill) ?_
    rw [isUncounting_of_stage run (by omega)]
    cases result <;> rfl
  · rename_i drained _ result _ hphase
    have hstage : run.phase.stage = 1 := by rw [hphase]; rfl
    refine h.setRun hk (hrun.rewait hstage drained result) ?_
    rw [isUncounting_of_stage run (by omega)]
    cases result <;> rfl
  · rename_i outcome ok hphase
    exact h.settle hk hphase ok
  · exact h.finish hk
  · exact h

lemma SupervisorInv.call (h : SupervisorInv s) (options : RunOptions) (now : ℕ) :
    SupervisorInv (s.call options now) := by
  have hfresh : s.runs.length ∉ s.active := fun hmem => lt_irrefl _ (h.known _ hmem)
  -- A call that is refused returns at once and never has a process.
  have hrefused : ∀ error, SupervisorInv { s with
      runs := s.runs ++ [{ options, started := now, phase := .over (.error error) }] } := by
    intro error
    constructor
    · intro k run hk
      rcases Table.getElem?_append_singleton_eq_some_iff.mp hk with hold | ⟨rfl, rfl⟩
      · exact h.runs k run hold
      · refine ⟨fun _ => rfl, fun hpresent => absurd hpresent (by simp [RunPhase.stage]),
          Watch.honest_default, ?_, ?_, ?_⟩ <;> simp [RunPhase.claimsComplete]
    · intro k hk
      rw [List.length_append]
      exact Nat.lt_add_right _ (h.known k hk)
    · rw [List.countP_append]
      exact h.count
  unfold Supervisor.call
  split
  · exact hrefused _
  split
  · exact hrefused _
  · constructor
    · intro k run hk
      rcases Table.getElem?_append_singleton_eq_some_iff.mp hk with hold | ⟨rfl, rfl⟩
      · have hlt := Table.lt_length_of_getElem? hold
        refine (h.runs k run hold).congr ?_ id
        simp [hlt.ne]
      · refine ⟨fun _ => rfl, fun _ => Finset.mem_insert_self _ _, Watch.honest_default,
          ?_, ?_, ?_⟩ <;> simp [RunPhase.claimsComplete]
    · intro k hk
      rw [List.length_append]
      rcases Finset.mem_insert.mp hk with rfl | hold
      · exact Nat.lt_succ_self _
      · exact Nat.lt_add_right _ (h.known k hold)
    · rw [List.countP_append, Finset.card_insert_of_notMem hfresh, h.count]
      simp only [List.countP_singleton, Run.isUncounting]
      simp
      omega

lemma SupervisorInv.of_same (h : SupervisorInv s) {next : Supervisor} (hruns : next.runs = s.runs)
    (hactive : next.active = s.active) (hcount : next.activeCount = s.activeCount)
    (hjournal : next.journal = s.journal) : SupervisorInv next := by
  constructor
  · rw [hruns, hactive, hjournal]
    exact h.runs
  · rw [hruns, hactive]
    exact h.known
  · rw [hruns, hactive, hcount]
    exact h.count

lemma SupervisorInv.sendStop (h : SupervisorInv s) (c k : ℕ) : SupervisorInv (s.sendStop c k) := by
  unfold Supervisor.sendStop
  split
  · exact h
  split
  · cases hk : s.runs[k]? with
    | none =>
      refine h.of_same ?_ rfl rfl rfl
      exact List.modify_eq_self (List.getElem?_eq_none_iff.mp hk)
    | some run =>
      have hrun := h.runs k run hk
      refine h.change (f := fun run => { run with stopSent := true }) hk rfl ?_ (fun _ _ => Iff.rfl)
        (fun _ _ hj => hj) rfl
      exact ⟨hrun.early, hrun.present, hrun.honest, hrun.settled, hrun.leaves, hrun.recorded⟩
  · exact h

def runStep (s : Supervisor) (event : SupervisorEvent) : Supervisor :=
  match (eventRun event).bind fun k => (s.runs[k]?).map fun run => (k, run) with
  | some (k, run) => s.stepRun k run event
  | none => s

lemma SupervisorInv.step (h : SupervisorInv s) (hpid : HasPid event) : SupervisorInv (s.step event) := by
  have hruns : ∀ event, HasPid event → SupervisorInv (s.runStep event) := by
    intro event hpid
    unfold runStep
    split
    · rename_i k run heq
      obtain ⟨j, -, hj⟩ := Option.bind_eq_some_iff.mp heq
      obtain ⟨other, hother, hpair⟩ := Option.map_eq_some_iff.mp hj
      obtain ⟨rfl, rfl⟩ := Prod.mk.inj hpair
      exact h.stepRun hother hpid
    · exact h
  cases event with
  | call options now => exact h.call options now
  | beginClose => exact h.of_same rfl rfl rfl rfl
  | sendStop c k => exact h.sendStop c k
  | awaitCompletion c k expired =>
    change SupervisorInv (s.awaitCompletion c k expired)
    unfold awaitCompletion
    split
    · exact h
    split
    · dsimp only
      split
      · exact h.of_same rfl rfl rfl rfl
      split
      · exact h.of_same rfl rfl rfl rfl
      · exact h
    · exact h
  | report c =>
    change SupervisorInv (s.report c)
    unfold report
    split
    · exact h
    split
    · exact h.of_same rfl rfl rfl rfl
    · exact h
  | _ => exact hruns _ hpid

lemma exists_runs_stepRun (s : Supervisor) (k : ℕ) (run : Run) (event : SupervisorEvent) :
    ∃ f, (s.stepRun k run event).runs = s.runs.modify k f ∧ (s.stepRun k run event).closing = s.closing := by
  have hsame : ∃ f, s.runs = s.runs.modify k f ∧ s.closing = s.closing :=
    ⟨id, (List.modify_id k s.runs).symm, rfl⟩
  unfold Supervisor.stepRun
  split
  · exact ⟨_, rfl, rfl⟩
  · exact ⟨_, rfl, rfl⟩
  · unfold Supervisor.record
    split <;> exact ⟨_, rfl, rfl⟩
  · exact ⟨_, rfl, rfl⟩
  · exact ⟨_, rfl, rfl⟩
  · exact ⟨_, rfl, rfl⟩
  · exact ⟨_, rfl, rfl⟩
  · exact ⟨_, rfl, rfl⟩
  · unfold Supervisor.settle
    split <;> exact ⟨_, rfl, rfl⟩
  · unfold Supervisor.finish
    split
    · exact ⟨_, rfl, rfl⟩
    · exact ⟨_, rfl, rfl⟩
    · exact ⟨_, rfl, rfl⟩
    · exact hsame
  · exact hsame

lemma stepRun_over {result : Except ProcessError RunOutcome} (hphase : run.phase = .over result) :
    s.stepRun k run event = s := by
  unfold Supervisor.stepRun
  rw [hphase]
  cases event <;> simp [Supervisor.finish, hphase]

/-- The supervisor is closing, and the runs from a number on were refused. -/
def RefusesFrom (s : Supervisor) (n : ℕ) : Prop :=
  s.closing = true ∧ ∀ (k : ℕ) (run : Run), n ≤ k → s.runs[k]? = some run →
    run.spawned = false ∧ ∃ result, run.phase = .over result

lemma RefusesFrom.step {n : ℕ} (h : s.RefusesFrom n) (hn : n ≤ s.runs.length) (event : SupervisorEvent) :
    (s.step event).RefusesFrom n ∧ n ≤ (s.step event).runs.length := by
  obtain ⟨hclosing, hrefused⟩ := h
  have hruns : ∀ event, (s.runStep event).RefusesFrom n ∧ n ≤ (s.runStep event).runs.length := by
    intro event
    unfold runStep
    split
    · rename_i k run heq
      obtain ⟨j, -, hj⟩ := Option.bind_eq_some_iff.mp heq
      obtain ⟨other, hother, hpair⟩ := Option.map_eq_some_iff.mp hj
      obtain ⟨rfl, rfl⟩ := Prod.mk.inj hpair
      by_cases hlate : n ≤ j
      · obtain ⟨-, result, hphase⟩ := hrefused j other hlate hother
        rw [stepRun_over hphase]
        exact ⟨⟨hclosing, hrefused⟩, hn⟩
      · obtain ⟨f, hf, hopen⟩ := exists_runs_stepRun s j other event
        refine ⟨⟨hopen.trans hclosing, fun i run hi hrun => ?_⟩, by rwa [hf, List.length_modify]⟩
        rw [hf, Table.getElem?_modify_eq_some_iff] at hrun
        obtain ⟨before, hbefore, rfl⟩ := hrun
        rw [if_neg (by omega)]
        exact hrefused i before hi hbefore
    · exact ⟨⟨hclosing, hrefused⟩, hn⟩
  cases event with
  | call options now =>
    have hcall : ∃ result, s.call options now = { s with
        runs := s.runs ++ [{ options, started := now, phase := .over result }] } := by
      unfold Supervisor.call
      rw [hclosing]
      split
      · exact ⟨_, rfl⟩
      · exact ⟨_, rfl⟩
    obtain ⟨result, hcall⟩ := hcall
    change (s.call options now).RefusesFrom n ∧ n ≤ (s.call options now).runs.length
    rw [hcall]
    refine ⟨⟨hclosing, fun k run hk hrun => ?_⟩, ?_⟩
    · rcases Table.getElem?_append_singleton_eq_some_iff.mp hrun with hold | ⟨rfl, rfl⟩
      · exact hrefused k run hk hold
      · exact ⟨rfl, result, rfl⟩
    · rw [List.length_append]
      exact Nat.le_add_right_of_le hn
  | beginClose => exact ⟨⟨rfl, hrefused⟩, hn⟩
  | sendStop c k =>
    change (s.sendStop c k).RefusesFrom n ∧ n ≤ (s.sendStop c k).runs.length
    unfold Supervisor.sendStop
    split
    · exact ⟨⟨hclosing, hrefused⟩, hn⟩
    split
    · refine ⟨⟨hclosing, fun i run hi hrun => ?_⟩, ?_⟩
      · obtain ⟨before, hbefore, rfl⟩ := Table.getElem?_modify_eq_some_iff.mp hrun
        have hold := hrefused i before hi hbefore
        split <;> exact hold
      · change n ≤ (s.runs.modify k _).length
        rwa [List.length_modify]
    · exact ⟨⟨hclosing, hrefused⟩, hn⟩
  | awaitCompletion c k expired =>
    change (s.awaitCompletion c k expired).RefusesFrom n ∧ n ≤ (s.awaitCompletion c k expired).runs.length
    unfold awaitCompletion
    split
    · exact ⟨⟨hclosing, hrefused⟩, hn⟩
    split
    · dsimp only
      split
      · exact ⟨⟨hclosing, hrefused⟩, hn⟩
      split <;> exact ⟨⟨hclosing, hrefused⟩, hn⟩
    · exact ⟨⟨hclosing, hrefused⟩, hn⟩
  | report c =>
    change (s.report c).RefusesFrom n ∧ n ≤ (s.report c).runs.length
    unfold report
    split
    · exact ⟨⟨hclosing, hrefused⟩, hn⟩
    split <;> exact ⟨⟨hclosing, hrefused⟩, hn⟩
  | _ => exact hruns _

/-! ## The evidence -/

/-- A complete cleanup, a removed record and a place given up each mean that a kill has succeeded
and the exit status was collected after it, and all other runs with a process are counted and
reported by `close`. -/
structure CleanupEvidence (s : Supervisor) : Prop where
  complete : ∀ (k : ℕ) (run : Run) (outcome : RunOutcome), s.runs[k]? = some run →
    run.phase = .over (.ok outcome) → outcome.cleanupComplete = true → run.Settled
  journal : ∀ (k : ℕ) (run : Run), s.runs[k]? = some run → run.journalRecorded = true → k ∉ s.journal → run.Settled
  active : ∀ (k : ℕ) (run : Run), s.runs[k]? = some run → run.spawned = true → k ∉ s.active → run.Settled
  counted : ∀ others : Finset ℕ, (∀ k ∈ others, ∃ run, s.runs[k]? = some run ∧ run.spawned = true ∧ ¬ run.Settled) →
      others.card ≤ s.activeCount ∧ ∀ call, others.card ≤ (s.shutdownReport call).remaining

lemma SupervisorInv.evidence (h : SupervisorInv s) : s.CleanupEvidence := by
  have hactive : ∀ (k : ℕ) (run : Run), s.runs[k]? = some run → run.spawned = true → k ∉ s.active → run.Settled :=
    fun k run hk hspawned hgone => (h.runs k run hk).leaves (Or.inr hgone) hspawned
  have hcounted : ∀ others : Finset ℕ, (∀ k ∈ others, ∃ run, s.runs[k]? = some run ∧
      run.spawned = true ∧ ¬ run.Settled) → others.card ≤ s.activeCount := by
    intro others hothers
    have hsubset : others ⊆ s.active := by
      intro k hk
      obtain ⟨run, hrun, hspawned, hunsettled⟩ := hothers k hk
      by_contra hgone
      exact hunsettled (hactive k run hrun hspawned hgone)
    calc others.card ≤ s.active.card := Finset.card_le_card hsubset
      _ ≤ s.activeCount := by
        rw [h.count]
        exact Nat.le_add_right _ _
  constructor
  · intro k run outcome hk hphase hcomplete
    refine (h.runs k run hk).settled ?_
    rw [hphase]
    exact hcomplete
  · intro k run hk hrecorded hgone
    exact (((h.runs k run hk).recorded hrecorded).resolve_left hgone).2
  · exact hactive
  · exact fun others hothers => ⟨hcounted others hothers, fun call => hcounted others hothers⟩

/-- Every end is backed by evidence, and nothing is spawned behind a close. -/
theorem cleanup_evidence (hasJournal : Bool) (events : List SupervisorEvent)
    (hpid : ∀ event ∈ events, HasPid event) :
    (({ hasJournal } : Supervisor).run events).CleanupEvidence ∧ ∀ before after, events = before ++ after →
        (({ hasJournal } : Supervisor).run before).closing = true →
          ∀ (k : ℕ) (run : Run), (({ hasJournal } : Supervisor).run events).runs[k]? = some run →
            (({ hasJournal } : Supervisor).run before).runs.length ≤ k → run.spawned = false := by
  have halong : Runs.Along step (fun _ event => HasPid event) { hasJournal } events :=
    Runs.along_of_forall_mem fun event hevent _ => hpid event hevent
  have hinv : SupervisorInv (({ hasJournal } : Supervisor).run events) :=
    halong.invariant (fun _ _ hs hevent => hs.step hevent) (supervisorInv_empty hasJournal)
  refine ⟨hinv.evidence, ?_⟩
  rintro before after rfl hclosing k run hk hlate
  generalize hmid : ({ hasJournal } : Supervisor).run before = mid at hclosing hlate
  have hrun : ({ hasJournal } : Supervisor).run (before ++ after) = mid.run after := by
    rw [← hmid]
    exact Runs.run_append
  have hnone : mid.RefusesFrom mid.runs.length := by
    refine ⟨hclosing, fun j other hj hother => ?_⟩
    exact absurd (Table.lt_length_of_getElem? hother) (by omega)
  have hrefuses : (mid.run after).RefusesFrom mid.runs.length ∧ mid.runs.length ≤ (mid.run after).runs.length :=
    Runs.invariant (P := fun s : Supervisor =>
        s.RefusesFrom mid.runs.length ∧ mid.runs.length ≤ s.runs.length)
      (fun _ event hs => hs.1.step hs.2 event) ⟨hnone, le_rfl⟩
  rw [hrun] at hk
  exact (hrefuses.1.2 k run hlate hk).1

/-- A process exits by itself, and its group is killed and collected. -/
def exitedRun : List SupervisorEvent :=
  [.call ⟨1000, none, 10, 20, 1⟩ 0, .prepare 0 true false 0, .spawn 0 (.spawned (some 7) 2),
    .record 0 true, .poll 0 { now := 5, poll := .exited 0, later := 5 },
    .drain 0 { now := 5, event := some .stdoutEof }, .drain 0 { now := 5, event := some .stderrEof },
    .drain 0 { now := 5 }, .join 0 true, .wait 0 (.exited 0) .ok, .settle 0 true, .finish 0,
    .finish 0, .finish 0, .beginClose, .report 0, .call ⟨1000, none, 10, 20, 1⟩ 6]

/-- The process is settled, and the call after the close is refused. -/
theorem cleanup_evidence_exited :
    (({ hasJournal := true } : Supervisor).run exitedRun).runs.map Run.phase =
        [.over (.ok ⟨true, some 0, none, true⟩), .over (.error .closing)] ∧
      (({ hasJournal := true } : Supervisor).run exitedRun).CleanupEvidence :=
  ⟨by decide +kernel, (cleanup_evidence true exitedRun (by simp [exitedRun, HasPid])).1⟩

end Supervisor

end AgzRustMcp.Process
