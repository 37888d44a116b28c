import AgzRustMcp.Foundation.Table
import AgzRustMcp.Docs.GenerationLock

/-!
# When the generation lock excludes

Another caller may unlink a lock file between the identity check and the attempt to lock it, or
unlink another file than the one it has locked.  As long as neither happens, two callers that have
the lock of an entry are the same caller.
-/

namespace AgzRustMcp.Docs

open Std (ExtTreeMap)
open Cache (Entry)

namespace LockWork

/-- The candidates that are still to be looked at. -/
def candidates : LockWork → List GenerationLockCandidate
  | .listing | .generating => []
  | .reading _ _ candidates | .cleaning candidates | .unlocking _ candidates => candidates
  | .probing candidate _ candidates | .trying candidate _ candidates
  | .inspecting candidate _ candidates | .removing candidate _ candidates => candidate :: candidates

/-- The file of another entry whose lock has been taken. -/
def taken? : LockWork → Option ℕ
  | .inspecting _ opened _ | .removing _ opened _ | .unlocking opened _ => some opened
  | _ => none

end LockWork

/-- The caller has the generation lock of its entry. -/
def LockPhase.isHolding : LockPhase → Bool
  | .holds _ _ => true
  | _ => false

namespace LockWorld

variable {w next : LockWorld} {k j : ℕ} {caller changed other : LockCaller}

/-! ## Exclusion and its condition -/

/-- No two callers have the generation lock of one entry. -/
def Exclusive (w : LockWorld) : Prop :=
  ∀ (k j : ℕ) (caller other : LockCaller), w.callers[k]? = some caller →
    w.callers[j]? = some other → caller.phase.isHolding = true → other.phase.isHolding = true →
    caller.entry = other.entry → k = j

/-- Another caller has locked the file at a name. -/
def lockedByOther (w : LockWorld) (k : ℕ) (name : String) : Bool :=
  match w.entries[name]? with
  | some (.file file) => (w.locks[file]?).any fun holder => holder != k
  | _ => false

/-- A caller locks at the lock path, and removes nothing that another locks. -/
def inPlace (w : LockWorld) : LockEvent → Bool
  | .advance k (.ok _) =>
    match w.callers[k]? with
    | some ⟨entry, .locking file⟩ => w.locks.contains file ||
        decide (w.entries[generationLockName entry]? = some (.file file))
    | some ⟨_, .holds _ (.removing candidate _ _)⟩ => !w.lockedByOther k candidate.name
    | _ => true
  | _ => true

/-- A caller has its lock at the lock path, apart from the others. -/
structure CallerInv (w : LockWorld) (k : ℕ) (caller : LockCaller) : Prop where
  held : ∀ (file : ℕ) (work : LockWork), caller.phase = .holds file work →
    w.locks[file]? = some k ∧ w.entries[generationLockName caller.entry]? = some (.file file)
  others : ∀ (file : ℕ) (work : LockWork), caller.phase = .holds file work →
    ∀ candidate ∈ work.candidates, candidate.name ≠ generationLockName caller.entry
  taken : ∀ (file : ℕ) (work : LockWork), caller.phase = .holds file work →
    ∀ opened, work.taken? = some opened → w.locks[opened]? = some k ∧ opened ≠ file

/-- What is known of all callers. -/
def LocksInv (w : LockWorld) : Prop :=
  ∀ (k : ℕ) (caller : LockCaller), w.callers[k]? = some caller → w.CallerInv k caller

lemma LocksInv.exclusive (h : w.LocksInv) : w.Exclusive := by
  intro k j caller other hk hj hholds hholds' hentry
  cases hphase : caller.phase with
  | holds file work =>
    cases hphase' : other.phase with
    | holds file' work' =>
      obtain ⟨hlock, hfile⟩ := (h k caller hk).held file work hphase
      obtain ⟨hlock', hfile'⟩ := (h j other hj).held file' work' hphase'
      obtain rfl : file = file' := by
        rw [hentry, hfile'] at hfile
        simpa using hfile.symm
      exact Option.some.inj (hlock.symm.trans hlock')
    | _ => simp [hphase', LockPhase.isHolding] at hholds'
  | _ => simp [hphase, LockPhase.isHolding] at hholds

/-! ## What a step leaves of it -/

lemma CallerInv.of_not_holding (h : caller.phase.isHolding = false) : w.CallerInv k caller := by
  have hphase : ∀ (file : ℕ) (work : LockWork), caller.phase ≠ .holds file work := by
    intro file work hphase
    rw [hphase] at h
    cases h
  constructor
  · exact fun file work hnow => absurd hnow (hphase file work)
  · exact fun file work hnow => absurd hnow (hphase file work)
  · exact fun file work hnow => absurd hnow (hphase file work)

lemma CallerInv.keep (h : w.CallerInv k caller)
    (hlocks : ∀ file : ℕ, w.locks[file]? = some k → next.locks[file]? = some k)
    (hentries : ∀ file : ℕ, w.locks[file]? = some k →
      w.entries[generationLockName caller.entry]? = some (.file file) →
      next.entries[generationLockName caller.entry]? = some (.file file)) : next.CallerInv k caller := by
  constructor
  · intro file work hphase
    obtain ⟨hlock, hfile⟩ := h.held file work hphase
    exact ⟨hlocks file hlock, hentries file hlock hfile⟩
  · exact h.others
  · intro file work hphase opened hopened
    obtain ⟨hlock, hne⟩ := h.taken file work hphase opened hopened
    exact ⟨hlocks opened hlock, hne⟩

lemma LocksInv.of_step (h : w.LocksInv) (hcallers : next.callers = w.callers.modify k fun _ => changed)
    (hself : w.callers[k]? = some caller → next.CallerInv k changed)
    (hlocks : ∀ j, j ≠ k → ∀ file : ℕ, w.locks[file]? = some j → next.locks[file]? = some j)
    (hentries : ∀ j, j ≠ k → ∀ (entry : String) (file : ℕ), w.locks[file]? = some j →
      w.entries[generationLockName entry]? = some (.file file) →
      next.entries[generationLockName entry]? = some (.file file))
    (hk : w.callers[k]? = some caller) : next.LocksInv := by
  intro j other hj
  rw [hcallers, Table.getElem?_modify_eq_some_iff] at hj
  obtain ⟨before, hbefore, rfl⟩ := hj
  by_cases hkj : k = j
  · subst hkj
    rw [if_pos rfl]
    exact hself hk
  · rw [if_neg hkj]
    exact (h j before hbefore).keep (hlocks j (Ne.symm hkj))
      (hentries j (Ne.symm hkj) before.entry)

lemma LocksInv.enter (h : w.LocksInv) (hk : w.callers[k]? = some caller) {phase : LockPhase}
    (hself : w.CallerInv k { caller with phase }) : (w.enter k caller phase).LocksInv :=
  h.of_step rfl (fun _ => hself.keep (fun _ hlock => hlock) fun _ _ hentry => hentry)
    (fun _ _ _ hlock => hlock) (fun _ _ _ _ _ hentry => hentry) hk

lemma LocksInv.enter_outside (h : w.LocksInv) (hk : w.callers[k]? = some caller) {phase : LockPhase}
    (hphase : phase.isHolding = false) : (w.enter k caller phase).LocksInv :=
  h.enter hk (CallerInv.of_not_holding hphase)

variable {file opened : ℕ} {candidate : GenerationLockCandidate} {candidates : List GenerationLockCandidate}

lemma CallerInv.goes (h : w.CallerInv k caller) {before after : LockWork} (hphase : caller.phase = .holds file before)
    (hcandidates : ∀ candidate ∈ after.candidates, candidate ∈ before.candidates)
    (htaken : ∀ opened, after.taken? = some opened → before.taken? = some opened) :
    w.CallerInv k { caller with phase := .holds file after } := by
  constructor
  · rintro file' work ⟨⟩
    exact h.held file before hphase
  · rintro file' work ⟨⟩ candidate hcandidate
    exact h.others file before hphase candidate (hcandidates candidate hcandidate)
  · rintro file' work ⟨⟩ opened hopened
    exact h.taken file before hphase opened (htaken opened hopened)

lemma LocksInv.goes (h : w.LocksInv) (hk : w.callers[k]? = some caller)
    {before after : LockWork} (hphase : caller.phase = .holds file before)
    (hcandidates : ∀ candidate ∈ after.candidates, candidate ∈ before.candidates)
    (htaken : ∀ opened, after.taken? = some opened → before.taken? = some opened) :
    (w.enter k caller (.holds file after)).LocksInv :=
  h.enter hk ((h k caller hk).goes hphase hcandidates htaken)

/-! ## The steps -/

lemma LocksInv.openLock (h : w.LocksInv) (hk : w.callers[k]? = some caller) : (w.openLock k caller).LocksInv := by
  unfold LockWorld.openLock
  split
  · exact h.enter_outside hk rfl
  · exact h.enter_outside hk rfl
  · rename_i hnone
    have hkept : ∀ (entry : String) (file : ℕ), w.entries[generationLockName entry]? = some (.file file) →
        (w.entries.insert (generationLockName caller.entry)
          (.file w.modified.length))[generationLockName entry]? = some (.file file) := by
      intro entry file hentry
      rw [ExtTreeMap.getElem?_insert, if_neg, hentry]
      intro heq
      rw [compare_eq_iff_eq.mp heq, hentry] at hnone
      cases hnone
    exact h.of_step rfl (fun _ => CallerInv.of_not_holding rfl) (fun _ _ _ hlock => hlock)
      (fun _ _ entry file _ hentry => hkept entry file hentry) hk

lemma getElem?_insert_lock {lock holder : ℕ} (hfree : ¬ w.locks.contains file)
    (hlock : w.locks[lock]? = some holder) : (w.locks.insert file k)[lock]? = some holder := by
  rw [ExtTreeMap.getElem?_insert, if_neg, hlock]
  intro heq
  rw [compare_eq_iff_eq.mp heq, ← ExtTreeMap.isSome_getElem?_eq_contains, hlock] at hfree
  exact hfree rfl

lemma getElem?_erase_lock {lock holder : ℕ} (hown : w.locks[file]? = some k)
    (hne : holder ≠ k ∨ file ≠ lock) (hlock : w.locks[lock]? = some holder) :
    (w.locks.erase file)[lock]? = some holder := by
  rw [ExtTreeMap.getElem?_erase, if_neg, hlock]
  intro heq
  have hsame : file = lock := compare_eq_iff_eq.mp heq
  rcases hne with hne | hne
  · rw [hsame, hlock] at hown
    exact hne (Option.some.inj hown)
  · exact hne hsame

lemma LocksInv.tryLock (h : w.LocksInv) (hk : w.callers[k]? = some caller)
    (hplace : w.locks.contains file ∨ w.entries[generationLockName caller.entry]? = some (.file file)) :
    (w.tryLock k caller file).LocksInv := by
  unfold LockWorld.tryLock
  split_ifs with hfree
  · exact h
  · refine h.of_step rfl (fun _ => ?_) (fun _ _ _ hlock => getElem?_insert_lock hfree hlock)
      (fun _ _ _ _ _ hentry => hentry) hk
    constructor
    · rintro file' work ⟨⟩
      exact ⟨ExtTreeMap.getElem?_insert_self, hplace.resolve_left hfree⟩
    · rintro file' work ⟨⟩ candidate ⟨⟩
    · rintro file' work ⟨⟩ opened ⟨⟩

lemma LocksInv.takeCandidate (h : w.LocksInv) (hk : w.callers[k]? = some caller)
    (hphase : caller.phase = .holds file (.trying candidate opened candidates)) (hfree : ¬ w.locks.contains opened) :
    LocksInv { w.enter k caller (.holds file (.inspecting candidate opened candidates)) with
      locks := w.locks.insert opened k } := by
  have hcaller := h k caller hk
  refine h.of_step rfl (fun _ => ?_) (fun _ _ _ hlock => getElem?_insert_lock hfree hlock)
    (fun _ _ _ _ _ hentry => hentry) hk
  obtain ⟨hlock, hfile⟩ := hcaller.held file _ hphase
  constructor
  · rintro file' work ⟨⟩
    exact ⟨getElem?_insert_lock hfree hlock, hfile⟩
  · rintro file' work ⟨⟩ other hother
    exact hcaller.others file _ hphase other hother
  · rintro file' work ⟨⟩ opened' hopened
    obtain rfl : opened = opened' := Option.some.inj hopened
    refine ⟨ExtTreeMap.getElem?_insert_self, ?_⟩
    rintro rfl
    rw [← ExtTreeMap.isSome_getElem?_eq_contains, hlock] at hfree
    exact hfree rfl

lemma LocksInv.removeCandidate (h : w.LocksInv) (hk : w.callers[k]? = some caller)
    (hphase : caller.phase = .holds file (.removing candidate opened candidates))
    (hplace : ∀ found, w.entries[candidate.name]? = some (.file found) →
      ∀ holder, w.locks[found]? = some holder → holder = k) :
    LocksInv { w.enter k caller (.holds file (.unlocking opened candidates)) with
      entries := w.entries.erase candidate.name } := by
  have hcaller := h k caller hk
  have hkept : ∀ (name : String) (found : ℕ), candidate.name ≠ name → w.entries[name]? = some (.file found) →
      (w.entries.erase candidate.name)[name]? = some (.file found) := by
    intro name found hne hentry
    rw [ExtTreeMap.getElem?_erase, if_neg (by simpa using hne)]
    exact hentry
  refine h.of_step rfl (fun _ => ?_) (fun _ _ _ hlock => hlock) ?_ hk
  · obtain ⟨hlock, hfile⟩ := hcaller.held file _ hphase
    constructor
    · rintro file' work ⟨⟩
      refine ⟨hlock, hkept _ _ ?_ hfile⟩
      exact hcaller.others file _ hphase candidate (List.mem_cons_self ..)
    · rintro file' work ⟨⟩ other hother
      exact hcaller.others file _ hphase other (List.mem_cons_of_mem _ hother)
    · rintro file' work ⟨⟩ opened' hopened
      exact hcaller.taken file _ hphase opened' hopened
  · intro j hj entry found hlock hentry
    refine hkept _ _ ?_ hentry
    intro hname
    exact hj (hplace found (hname ▸ hentry) j hlock)

lemma LocksInv.giveCandidate (h : w.LocksInv) (hk : w.callers[k]? = some caller)
    (hphase : caller.phase = .holds file (.unlocking opened candidates)) :
    LocksInv { w.enter k caller (.holds file (.cleaning candidates)) with
      locks := w.locks.erase opened } := by
  have hcaller := h k caller hk
  obtain ⟨hlock, hfile⟩ := hcaller.held file _ hphase
  obtain ⟨hopened, hne⟩ := hcaller.taken file _ hphase opened rfl
  refine h.of_step rfl (fun _ => ?_)
    (fun j hj _ hother => getElem?_erase_lock hopened (Or.inl hj) hother)
    (fun _ _ _ _ _ hentry => hentry) hk
  constructor
  · rintro file' work ⟨⟩
    exact ⟨getElem?_erase_lock hopened (Or.inr hne) hlock, hfile⟩
  · rintro file' work ⟨⟩ other hother
    exact hcaller.others file _ hphase other hother
  · rintro file' work ⟨⟩ opened' ⟨⟩

lemma LocksInv.release (h : w.LocksInv) (hk : w.callers[k]? = some caller)
    (hphase : caller.phase = .holds file .generating) :
    LocksInv { w.enter k caller .released with locks := w.locks.erase file } := by
  obtain ⟨hlock, -⟩ := (h k caller hk).held file _ hphase
  exact h.of_step rfl (fun _ => CallerInv.of_not_holding rfl)
    (fun j hj _ hother => getElem?_erase_lock hlock (Or.inl hj) hother)
    (fun _ _ _ _ _ hentry => hentry) hk

lemma name_ne_of_candidateAt {current name : String}
    (h : w.candidateAt current name = some candidate) : candidate.name ≠ current := by
  unfold candidateAt at h
  split_ifs at h with hname
  push Not at hname
  split at h
  · obtain ⟨modified, -, rfl⟩ := Option.map_eq_some_iff.mp h
    exact hname.2
  · cases h

lemma mem_of_mem_locksToRemove {now : ℕ} (h : candidate ∈ locksToRemove now candidates) : candidate ∈ candidates := by
  unfold locksToRemove at h
  obtain ⟨⟨found, index⟩, hfound, rfl⟩ := List.mem_map.mp h
  have hsorted := List.fst_mem_of_mem_zipIdx (List.mem_filter.mp hfound).1
  exact (List.mergeSort_perm _ _).mem_iff.mp hsorted

lemma LocksInv.work (h : w.LocksInv) (hk : w.callers[k]? = some caller) {file : ℕ}
    {names : List String} {work : LockWork} (hphase : caller.phase = .holds file work)
    (hplace : w.inPlace (.advance k (.ok names))) : (w.work k caller file names work).LocksInv := by
  have hcaller := h k caller hk
  cases work with
  | listing => exact h.goes hk hphase (by rintro candidate ⟨⟩) (by rintro opened ⟨⟩)
  | reading found now candidates =>
    cases found with
    | nil =>
      refine h.goes hk hphase ?_ (by rintro opened ⟨⟩)
      exact fun candidate hcandidate => mem_of_mem_locksToRemove hcandidate
    | cons name found =>
      refine h.enter hk ?_
      constructor
      · rintro file' work ⟨⟩
        exact hcaller.held file _ hphase
      · rintro file' work ⟨⟩ candidate hcandidate
        rcases List.mem_append.mp hcandidate with hold | hnew
        · exact hcaller.others file _ hphase candidate hold
        · exact name_ne_of_candidateAt (Option.mem_toList.mp hnew)
      · rintro file' work ⟨⟩ opened ⟨⟩
  | cleaning candidates =>
    cases candidates with
    | nil => exact h.goes hk hphase (by rintro candidate ⟨⟩) (by rintro opened ⟨⟩)
    | cons candidate candidates =>
      unfold LockWorld.work
      dsimp only
      split
      · exact h.goes hk hphase (fun _ hmem => hmem) (by rintro opened ⟨⟩)
      · exact h.goes hk hphase (fun _ hmem => List.mem_cons_of_mem _ hmem) (by rintro opened ⟨⟩)
  | probing candidate opened candidates =>
    unfold LockWorld.work
    dsimp only
    split
    · exact h.goes hk hphase (fun _ hmem => hmem) (by rintro opened ⟨⟩)
    · exact h.goes hk hphase (fun _ hmem => List.mem_cons_of_mem _ hmem) (by rintro opened ⟨⟩)
  | trying candidate opened candidates =>
    unfold LockWorld.work
    dsimp only
    split_ifs with hfree
    · exact h.goes hk hphase (fun _ hmem => List.mem_cons_of_mem _ hmem) (by rintro opened ⟨⟩)
    · exact h.takeCandidate hk hphase hfree
  | inspecting candidate opened candidates =>
    unfold LockWorld.work
    dsimp only
    split
    · exact h.goes hk hphase (fun _ hmem => hmem) (fun _ hopened => hopened)
    · exact h.goes hk hphase (fun _ hmem => List.mem_cons_of_mem _ hmem)
        (fun _ hopened => hopened)
  | removing candidate opened candidates =>
    refine h.removeCandidate hk hphase ?_
    intro found hfound holder hholder
    obtain ⟨entry, phase⟩ := caller
    obtain rfl : phase = .holds file (.removing candidate opened candidates) := hphase
    simp only [inPlace, hk, lockedByOther, hfound, hholder] at hplace
    simpa using hplace
  | unlocking opened candidates => exact h.giveCandidate hk hphase
  | generating => exact h.release hk hphase

lemma LocksInv.proceed (h : w.LocksInv) (hk : w.callers[k]? = some caller) {names : List String}
    (hplace : w.inPlace (.advance k (.ok names))) : (w.proceed k caller names).LocksInv := by
  unfold LockWorld.proceed
  cases hphase : caller.phase with
  | checking =>
    dsimp only
    unfold checkLockPath
    split <;> exact h.enter_outside hk rfl
  | «opening» => exact h.openLock hk
  | validating file =>
    dsimp only
    split <;> exact h.enter_outside hk rfl
  | locking file =>
    refine h.tryLock hk ?_
    obtain ⟨entry, phase⟩ := caller
    obtain rfl : phase = .locking file := hphase
    simpa [inPlace, hk] using hplace
  | holds file work => exact h.work hk hphase hplace
  | failed error => exact h
  | released => exact h
  | crashed => exact h

lemma LocksInv.fail (h : w.LocksInv) (hk : w.callers[k]? = some caller) (error : LockError) :
    (w.fail k caller error).LocksInv := by
  unfold LockWorld.fail
  split
  · exact h.enter_outside hk rfl
  · exact h.enter_outside hk rfl
  · exact h.enter_outside hk rfl
  · exact h.enter_outside hk rfl
  · rename_i hphase
    exact h.goes hk hphase (by rintro candidate ⟨⟩) (by rintro opened ⟨⟩)
  · rename_i hphase
    exact h.goes hk hphase (fun _ hmem => hmem) (by rintro opened ⟨⟩)
  · rename_i hphase
    exact h.goes hk hphase (fun _ hmem => List.mem_cons_of_mem _ hmem) (by rintro opened ⟨⟩)
  · rename_i hphase
    exact h.goes hk hphase (fun _ hmem => List.mem_cons_of_mem _ hmem) (by rintro opened ⟨⟩)
  · rename_i hphase
    exact h.goes hk hphase (fun _ hmem => List.mem_cons_of_mem _ hmem) (by rintro opened ⟨⟩)
  · rename_i hphase
    exact h.goes hk hphase (fun _ hmem => List.mem_cons_of_mem _ hmem) (fun _ hopened => hopened)
  · rename_i hphase
    exact h.goes hk hphase (fun _ hmem => List.mem_cons_of_mem _ hmem) (fun _ hopened => hopened)
  · exact h

lemma LocksInv.crash (h : w.LocksInv) (k : ℕ) : (w.crash k).LocksInv := by
  intro j other hj
  obtain ⟨before, hbefore, rfl⟩ := Table.getElem?_modify_eq_some_iff.mp hj
  by_cases hkj : k = j
  · subst hkj
    rw [if_pos rfl]
    exact CallerInv.of_not_holding rfl
  · rw [if_neg hkj]
    refine (h j before hbefore).keep ?_ (fun _ _ hentry => hentry)
    intro file hlock
    simp only [LockWorld.crash, ExtTreeMap.getElem?_filter', hlock, Option.filter_some]
    simp [Ne.symm hkj]

lemma LocksInv.step (h : w.LocksInv) (event : LockEvent) (hplace : w.inPlace event) : (w.step event).LocksInv := by
  cases event with
  | tick =>
    exact fun j other hj => (h j other hj).keep (fun _ hlock => hlock) fun _ _ hentry => hentry
  | call entry =>
    intro j other hj
    rcases Table.getElem?_append_singleton_eq_some_iff.mp hj with hj | ⟨-, rfl⟩
    · exact (h j other hj).keep (fun _ hlock => hlock) fun _ _ hentry => hentry
    · exact CallerInv.of_not_holding rfl
  | crash k => exact h.crash k
  | advance k answer =>
    change (w.act k answer).LocksInv
    unfold act
    split
    · exact h
    · rename_i caller hk
      cases answer with
      | ok names => exact h.proceed hk hplace
      | failed error => exact h.fail hk error

/-! ## The lock excludes -/

/-- While nobody removes another file than the locked one or one that is waited for, no two callers have
one lock. -/
theorem generation_lock_excludes (now : ℕ) (entries : ExtTreeMap String Entry) (modified : List ℕ)
    (events : List LockEvent)
    (hplace : Runs.Along step (fun w event => w.inPlace event) (LockWorld.unused now entries modified) events) :
    Runs.Throughout step Exclusive (LockWorld.unused now entries modified) events := by
  have hknown : Runs.Throughout step LocksInv (LockWorld.unused now entries modified) events := by
    refine hplace.throughout (fun w event h hevent => h.step event hevent) ?_
    rintro k caller ⟨⟩
  exact hknown.mono fun w h => h.exclusive

/-- The events of a caller that succeeds in every step. -/
def steps (k count : ℕ) : List LockEvent :=
  List.replicate count (.advance k (.ok ["a.generation.lock", "b.generation.lock"]))

/-- A cache with an old lock file of the entry `a`. -/
def withOldLock : LockWorld :=
  LockWorld.unused 3000000 ((∅ : ExtTreeMap String Entry).insert "a.generation.lock" (.file 0)) [0]

/-- The lock file of `a` goes before two others take that lock. -/
theorem generation_lock_excludes_in_turn :
    Runs.Throughout step Exclusive withOldLock (.call "b" :: steps 0 16 ++ .call "a" ::
      steps 1 10 ++ .call "a" :: steps 2 4) :=
  generation_lock_excludes 3000000 _ [0] _ (by decide +kernel)

/-- The first caller locks what the second one has removed. -/
def removedWhileWaiting : List LockEvent :=
  .call "b" :: .call "a" :: steps 1 3 ++ steps 0 14 ++ steps 1 1 ++ .call "a" :: steps 2 4

/-- Two callers have the lock of one entry. -/
theorem two_hold_one_lock : ¬ (withOldLock.run removedWhileWaiting).Exclusive := by
  intro h
  have hfirst : (withOldLock.run removedWhileWaiting).callers[1]? = some ⟨"a", .holds 0 .listing⟩ := by decide +kernel
  have hsecond : (withOldLock.run removedWhileWaiting).callers[2]? =
      some ⟨"a", .holds 2 .listing⟩ := by decide +kernel
  have hsame : 1 = 2 := h 1 2 _ _ hfirst hsecond rfl rfl rfl
  exact absurd hsame (by decide)

end LockWorld

end AgzRustMcp.Docs
