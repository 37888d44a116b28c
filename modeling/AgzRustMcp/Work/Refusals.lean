import AgzRustMcp.Work.Sessions

/-!
# Calls that are refused

A call from another workspace or authorization epoch, and a resume with a wrong token, is refused:
by `reject`, which leaves the session alone, or by `finish_error`, which writes it back as failed
unless it was finished.  `refused_call_is_harmless_iff` says when the owner does not notice it.
-/

namespace AgzRustMcp

open Tasks

section Refusals

variable (service : WorkService)

/-- The record that an inspection looks at. -/
def WorkStore.inspected (store : WorkStore) (request : WorkRequest) : Option WorkRecord :=
  match request.workId.filter (· ≠ ""), request.changeId.filter (· ≠ "") with
  | some id, _ => store.records[id]?
  | none, some changeId =>
    (maxByKey (fun entry : String × WorkRecord => entry.2.updatedAtMs)
      (store.records.toList.filter fun entry => entry.2.changeId == some changeId)).map Prod.snd
  | none, none => none

/-- A well-formed resume of the session with a token. -/
structure Resumes (record : WorkRecord) (call : WorkCall) (token : String) : Prop where
  action : call.request.action = .resume
  enabled : service.change = true
  workId : call.request.workId = some record.id
  valid : isValidWorkId record.id = true
  token : call.request.continuationToken = some token

/-- A foreign call, or a wrong token, with the reason of the refusal. -/
inductive Refused (store : WorkStore) (record : WorkRecord) (call : WorkCall) :
    Option String → Prop
  | inspect (haction : call.request.action = .inspect)
      (hfound : store.inspected call.request = some record)
      (hforeign : record.foreignTo call.workspace = true) :
      Refused store record call
        (some "workspace identity or root epoch changed; the record was not returned")
  | cancel (haction : call.request.action = .cancel) (hid : call.request.workId = some record.id)
      (hforeign : record.foreignTo call.workspace = true) :
      Refused store record call
        (some "workspace identity or root epoch changed; cancel was refused")
  | foreign {token : String} (hresume : Resumes service record call token)
      (hforeign : record.foreignTo call.workspace = true) :
      Refused store record call
        (some "workspace identity or root epoch changed; the work was not resumed")
  | idle {token : String} (hresume : Resumes service record call token)
      (howner : record.foreignTo call.workspace = false) (hstate : record.state ≠ .needsModel) :
      Refused store record call
        (some "the continuation token was already consumed or superseded")
  | tokenless {token : String} (hresume : Resumes service record call token)
      (howner : record.foreignTo call.workspace = false) (hstate : record.state = .needsModel)
      (htoken : record.token = none) :
      Refused store record call (some "no handoff token is recorded for this work")
  | wrong {token : String} {stored : HandoffToken} (hresume : Resumes service record call token)
      (howner : record.foreignTo call.workspace = false) (hstate : record.state = .needsModel)
      (htoken : record.token = some stored)
      (hwrong : stored.used = true ∨ service.sha token.toUTF8 ≠ stored.tokenHash) :
      Refused store record call none

/-- A call made later, with its number and its inputs. -/
structure Turn where
  self : ℕ
  call : WorkCall
  inputs : List WorkInput

/-- The results of calls that run one after another. -/
def results : List Turn → WorkStore → List (Option WorkOutcome)
  | [], _ => []
  | turn :: later, store =>
    let (after, outcome) := (executeWork service turn.self turn.call).alone turn.inputs store
    outcome :: results later after

/-- The owner's calls come from its workspace and epoch with its id. -/
def Turn.OnBehalf (record : WorkRecord) (turn : Turn) : Prop :=
  record.foreignTo turn.call.workspace = false ∧
    match turn.call.request.action with
    | .start => False
    | .inspect => turn.call.request.workId.filter (· ≠ "") = some record.id
    | .resume | .cancel => turn.call.request.workId = some record.id

/-- The session keeps what matters, and later calls have the same results. -/
structure Undisturbed (record : WorkRecord) (store after : WorkStore) : Prop where
  kept : ∃ kept, after.records[record.id]? = some kept ∧ kept.state = record.state ∧
    kept.token = record.token ∧ kept.candidates = record.candidates ∧
    kept.compiles = record.compiles ∧ kept.handoffs = record.handoffs
  results : ∀ later : List Turn, (∀ turn ∈ later, turn.OnBehalf record) →
    results service later after = results service later store

/-- The refusal writes nothing, or finds the session ended. -/
def Harmless (record : WorkRecord) (write : Option String) : Prop :=
  write = none ∨ record.state = .cancelled ∨ (record.state.isTerminal = true ∧ write = some record.reason)

/-! ## What a refused call leaves behind -/

/-- The store after a refusal. -/
def WorkStore.refuse (store : WorkStore) (record : WorkRecord) (write : Option String) (now : ℕ) : WorkStore :=
  match write with
  | none => store
  | some reason => store.commit (record.finished "STALE" reason) now

variable {service} {store store' after : WorkStore} {record read : WorkRecord} {call : WorkCall}
  {inputs : List WorkInput} {outcome : WorkOutcome} {write : Option String} {self : ℕ}

variable {action : WorkAction} {status summary reason : String} {current : WorkRecord} {now : ℕ}

lemma alone_dataOf {data : WorkData}
    (h : (dataOf action record).alone inputs store = (after, some data)) : after = store := by
  obtain ⟨now, mid, used, rest, -, hclock, hdata⟩ := Task.of_alone_bind h
  obtain ⟨rfl, -⟩ := Task.of_alone_look hclock
  exact (Task.of_alone_done hdata).1

lemma alone_finishError
    (h : (finishError read record action status summary reason).alone inputs store = (after, some outcome)) :
    ∃ now, after = store.commit (record.finished status reason) now := by
  obtain ⟨_, written, used, rest, -, hcommit, hreport⟩ := Task.of_alone_bind h
  obtain ⟨e, rfl⟩ := Task.of_alone_modify hcommit
  obtain ⟨data, mid, used', rest', -, hdata, hdone⟩ := Task.of_alone_bind hreport
  obtain rfl := alone_dataOf hdata
  exact ⟨e.now, (Task.of_alone_done hdone).1⟩

lemma alone_rejectWork (h : (rejectWork record action status summary reason).alone inputs store =
      (after, some outcome)) : after = store := by
  obtain ⟨data, mid, used, rest, -, hdata, hdone⟩ := Task.of_alone_bind h
  obtain rfl := alone_dataOf hdata
  exact (Task.of_alone_done hdone).1

lemma commit_stripes_comm (stripes : ℕ → Option ℕ) (now : ℕ) :
    WorkStore.commit { store with stripes } record now = { store.commit record now with stripes } := by
  unfold WorkStore.commit
  cases hrecord : store.records[record.id]? with
  | none => rfl
  | some current => by_cases hcancelled : current.state = .cancelled <;> simp [hcancelled]

lemma refuse_stripes_comm (stripes : ℕ → Option ℕ) (now : ℕ) :
    WorkStore.refuse { store with stripes } record write now = { store.refuse record write now with stripes } := by
  cases write with
  | none => rfl
  | some reason => exact commit_stripes_comm stripes now

lemma refuse_stripes (store : WorkStore) (record : WorkRecord) (write : Option String) (now : ℕ) :
    (store.refuse record write now).stripes = store.stripes := by
  cases write with
  | none => rfl
  | some reason => exact commit_stripes store _ now

lemma Refused.alone_resumeLocked {token : String} (h : Refused service store record call write)
    (hresume : Resumes service record call token) (hstored : store'.records[record.id]? = some record)
    (hrun : (resumeLocked service call.request call.workspace record.id token).alone inputs store' =
      (after, some outcome)) : ∃ now, after = store'.refuse record write now := by
  obtain ⟨found, mid, used, rest, -, hload, hrun⟩ := Task.of_alone_bind hrun
  obtain ⟨rfl, -, rfl⟩ := Task.of_alone_look hload
  simp only [hstored] at hrun
  cases h with
  | inspect haction => exact absurd (haction.symm.trans hresume.action) (by decide)
  | cancel haction => exact absurd (haction.symm.trans hresume.action) (by decide)
  | foreign _ hforeign =>
    rw [if_pos hforeign] at hrun
    exact alone_finishError hrun
  | idle _ howner hstate =>
    rw [if_neg (by simp [howner]), if_pos hstate] at hrun
    exact alone_finishError hrun
  | tokenless _ howner hstate htoken =>
    rw [if_neg (by simp [howner]), if_neg (by simp [hstate])] at hrun
    simp only [htoken] at hrun
    exact alone_finishError hrun
  | @wrong _ stored hresume' howner hstate htoken hwrong =>
    obtain rfl := Option.some.inj (hresume.token.symm.trans hresume'.token)
    rw [if_neg (by simp [howner]), if_neg (by simp [hstate])] at hrun
    simp only [htoken] at hrun
    refine ⟨0, ?_⟩
    by_cases hused : stored.used = true
    · rw [if_pos hused] at hrun
      exact alone_rejectWork hrun
    · rw [if_neg hused] at hrun
      obtain ⟨_, mid', used', rest', -, hdigest, hchecked⟩ := Task.of_alone_bind hrun
      obtain ⟨rfl, -⟩ := Task.of_alone_look hdigest
      rw [if_pos (hwrong.resolve_left hused)] at hchecked
      exact alone_rejectWork hchecked

lemma Refused.alone (h : Refused service store record call write) (hstored : store.records[record.id]? = some record)
    (hrun : (executeWork service self call).alone inputs store = (after, some outcome)) :
    ∃ now, after = store.refuse record write now := by
  -- A resume takes a free lock, is refused and releases the lock.
  have hresumed : ∀ token, Resumes service record call token → ∃ now, after = store.refuse record write now := by
    intro token hresume
    unfold executeWork at hrun
    rw [hresume.action] at hrun
    simp only [resume, hresume.enabled, hresume.workId, hresume.valid, hresume.token] at hrun
    obtain ⟨_, locked, used, rest, -, hlock, hafterLock⟩ := Task.of_alone_bind hrun
    obtain ⟨e, rest', -, hfree, hlock⟩ := Task.of_alone_step hlock
    obtain ⟨rfl, -⟩ := Task.of_alone_done hlock
    obtain ⟨answer, refused, used', rest', -, hlocked, hafterRefusal⟩ :=
      Task.of_alone_bind hafterLock
    have hstored' : ({ store with
        stripes := Function.update store.stripes (stripeOf record.id) (some self) } :
          WorkStore).records[record.id]? = some record := hstored
    obtain ⟨now, rfl⟩ := h.alone_resumeLocked hresume hstored' hlocked
    obtain ⟨_, unlocked, used'', rest'', -, hunlock, hdone⟩ := Task.of_alone_bind hafterRefusal
    obtain ⟨e', rfl⟩ := Task.of_alone_modify hunlock
    obtain ⟨rfl, -⟩ := Task.of_alone_done hdone
    refine ⟨now, ?_⟩
    rw [refuse_stripes_comm]
    have hnone : store.stripes (stripeOf record.id) = none := Option.isNone_iff_eq_none.mp hfree
    have hsame : (store.refuse record write now).stripes = store.stripes := refuse_stripes _ _ _ _
    simp only [Function.update_idem, ← hsame] at hnone ⊢
    rw [← hnone, Function.update_eq_self]
  cases h with
  | inspect haction hfound hforeign =>
    unfold executeWork at hrun
    rw [haction] at hrun
    unfold WorkStore.inspected at hfound
    unfold inspectWork at hrun
    cases hid : call.request.workId.filter (· ≠ "") with
    | some id =>
      simp only [hid] at hfound hrun
      obtain ⟨found, mid, used, rest, -, hload, hrefused⟩ := Task.of_alone_bind hrun
      obtain ⟨rfl, -, rfl⟩ := Task.of_alone_look hload
      simp only [hfound, inspectFound, if_pos hforeign] at hrefused
      exact alone_finishError hrefused
    | none =>
      cases hchange : call.request.changeId.filter (· ≠ "") with
      | some changeId =>
        simp only [hid, hchange] at hfound hrun
        obtain ⟨found, mid, used, rest, -, hload, hrefused⟩ := Task.of_alone_bind hrun
        obtain ⟨rfl, -, rfl⟩ := Task.of_alone_look hload
        simp only [hfound, inspectFound, if_pos hforeign] at hrefused
        exact alone_finishError hrefused
      | none =>
        simp only [hid, hchange] at hfound
        simp at hfound
  | cancel haction hid hforeign =>
    unfold executeWork at hrun
    rw [haction] at hrun
    simp only [cancelWork, hid] at hrun
    obtain ⟨found, mid, used, rest, -, hload, hfound⟩ := Task.of_alone_bind hrun
    obtain ⟨rfl, -, rfl⟩ := Task.of_alone_look hload
    simp only [hstored, cancelFound, if_pos hforeign] at hfound
    exact alone_finishError hfound
  | foreign hresume => exact hresumed _ hresume
  | idle hresume => exact hresumed _ hresume
  | tokenless hresume => exact hresumed _ hresume
  | wrong hresume => exact hresumed _ hresume

/-! ## What the owner sees of a finished session -/

/-- A copy of the record that was written at another time. -/
def WorkRecord.writtenAt (record : WorkRecord) (time : ℕ) : WorkRecord :=
  { record with updatedAtMs := time }

lemma commit_of_stored (h : store.records[record.id]? = some current) (hstate : current.state ≠ .cancelled) :
    store.commit record now = { store with records := store.records.insert record.id (record.writtenAt now) } := by
  unfold WorkStore.commit
  simp only [h, if_neg hstate]
  rfl

lemma commit_of_cancelled (h : store.records[record.id]? = some current) (hstate : current.state = .cancelled) :
    store.commit record now = store := by
  unfold WorkStore.commit
  simp only [h, if_pos hstate]

/-- Two states that differ at most in a last write. -/
structure TimeApart (record : WorkRecord) (s s' : WorkStore) : Prop where
  stripes : s.stripes = s'.stripes
  stored : ∃ (current : WorkRecord) (time : ℕ), s.records[record.id]? = some current ∧
    s'.records[record.id]? = some (current.writtenAt time) ∧
    current.id = record.id ∧ current.state.isTerminal = true ∧
    current.workspaceRoot = record.workspaceRoot ∧ current.workspaceEpoch = record.workspaceEpoch

lemma TimeApart.commit {s s' : WorkStore} {copy : WorkRecord} {time : ℕ}
    (h : TimeApart record s s') (hid : copy.id = record.id)
    (hterminal : copy.state.isTerminal = true) (hroot : copy.workspaceRoot = record.workspaceRoot)
    (hepoch : copy.workspaceEpoch = record.workspaceEpoch) :
    TimeApart record (s.commit copy now) (s'.commit (copy.writtenAt time) now) := by
  obtain ⟨current, time', hcurrent, hcurrent', hrest⟩ := h.stored
  refine ⟨by rw [commit_stripes, commit_stripes, h.stripes], ?_⟩
  have hid' : (copy.writtenAt time).id = record.id := hid
  by_cases hcancelled : current.state = .cancelled
  · have hcancelled' : (current.writtenAt time').state = .cancelled := hcancelled
    rw [commit_of_cancelled (by rw [hid]; exact hcurrent) hcancelled,
      commit_of_cancelled (by rw [hid']; exact hcurrent') hcancelled']
    exact ⟨current, time', hcurrent, hcurrent', hrest⟩
  · have hcancelled' : (current.writtenAt time').state ≠ .cancelled := hcancelled
    rw [commit_of_stored (by rw [hid]; exact hcurrent) hcancelled,
      commit_of_stored (by rw [hid']; exact hcurrent') hcancelled', hid, hid']
    exact ⟨copy.writtenAt now, now, Std.ExtTreeMap.getElem?_insert_self,
      Std.ExtTreeMap.getElem?_insert_self, hid, hterminal, hroot, hepoch⟩

lemma Refused.reason_ne (h : Refused service store record call (some reason)) :
    reason ≠ "" ∧ reason ≠ "the work was already terminal; cancel is idempotent" := by
  cases h <;> decide

def ownerCancel (record : WorkRecord) : Turn where
  self := 0
  call := ⟨⟨.cancel, some record.id, none, none, none, [], [], .none, ⟨0, 0, 0, 0⟩⟩,
    ⟨record.workspaceRoot, record.workspaceEpoch⟩⟩
  inputs := List.replicate 3 ⟨0, false, ⟨"", "", false, ChangeData.absent .create none ""⟩⟩

lemma results_ownerCancel (hstored : store.records[record.id]? = some read)
    (hroot : read.workspaceRoot = record.workspaceRoot) (hepoch : read.workspaceEpoch = record.workspaceEpoch)
    (hterminal : read.state.isTerminal = true) :
    (results service [ownerCancel record] store).map (Option.map fun outcome => outcome.data.reason) =
      [some (if read.reason = "" then "the work was already terminal; cancel is idempotent"
        else read.reason)] := by
  have hforeign : read.foreignTo ⟨record.workspaceRoot, record.workspaceEpoch⟩ = false := by
    simp [WorkRecord.foreignTo, hroot, hepoch]
  simp only [results, ownerCancel, executeWork, cancelWork, loadWork, Task.look, Task.step_bind,
    Task.done_bind, List.replicate, Task.alone, hstored, cancelFound, hforeign, hterminal, commitWork,
    Task.modify, cancelOutcome, dataOf, clock, workDataForRecord, if_true, Task.pure_def,
    Bool.false_eq_true, if_false, List.map_cons, List.map_nil, Option.map_some]
  split <;> rfl

lemma stored_refuse (hstored : store.records[record.id]? = some record) (hstate : record.state ≠ .cancelled) :
    (store.refuse record (some reason) now).records[record.id]? =
      some ((record.finished "STALE" reason).writtenAt now) := by
  have hfinished : store.records[(record.finished "STALE" reason).id]? = some record := hstored
  have hcommit : store.refuse record (some reason) now = { store with
        records := store.records.insert record.id ((record.finished "STALE" reason).writtenAt now) } :=
    commit_of_stored hfinished hstate
  rw [hcommit]
  exact Std.ExtTreeMap.getElem?_insert_self

lemma Undisturbed.harmless (hrefused : Refused service store record call write)
    (hstored : store.records[record.id]? = some record)
    (h : Undisturbed service record store (store.refuse record write now)) : Harmless record write := by
  cases write with
  | none => exact Or.inl rfl
  | some reason =>
    by_cases hcancelled : record.state = .cancelled
    · exact Or.inr (Or.inl hcancelled)
    have hafter : (store.refuse record (some reason) now).records[record.id]? =
        some ((record.finished "STALE" reason).writtenAt now) := stored_refuse hstored hcancelled
    -- The state is kept, so the session was finished before.
    obtain ⟨kept, hkept, hstate, -⟩ := h.kept
    obtain rfl := Option.some.inj (hafter.symm.trans hkept)
    have hterminal : record.state.isTerminal = true := by
      by_contra hrunning
      have hfailed : record.state = .failed := by
        rw [← hstate]
        simp [WorkRecord.writtenAt, WorkRecord.finished, hrunning]
      simp [hfailed, WorkState.isTerminal] at hrunning
    refine Or.inr (Or.inr ⟨hterminal, ?_⟩)
    -- The owner's cancel reports the reason.
    have howner : (ownerCancel record).OnBehalf record := by
      refine ⟨?_, rfl⟩
      simp [WorkRecord.foreignTo, ownerCancel]
    have hsame := congrArg (List.map (Option.map fun outcome => outcome.data.reason))
      (h.results [ownerCancel record] fun turn hturn => by
        rw [List.mem_singleton.mp hturn]
        exact howner)
    have hfinished : ((record.finished "STALE" reason).writtenAt now).state.isTerminal = true := by
      simp [WorkRecord.writtenAt, WorkRecord.finished, hterminal]
    rw [results_ownerCancel hafter rfl rfl hfinished, results_ownerCancel hstored rfl rfl hterminal]
      at hsame
    obtain ⟨hnonempty, hother⟩ := hrefused.reason_ne
    have hreason : ((record.finished "STALE" reason).writtenAt now).reason = reason := rfl
    rw [hreason, if_neg hnonempty] at hsame
    split at hsame
    · simp [hother] at hsame
    · simpa using hsame

end Refusals

end AgzRustMcp
