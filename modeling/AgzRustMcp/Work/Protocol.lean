import AgzRustMcp.Work.Actions

/-!
# What the calls of one service can do to each other

`WorkLabel.effect` is the effect of a step on the shared state and `Lawful` what is known when a
call makes it.  `WorkInv` is what these steps keep (`WorkInv.step`), and `WorkMove` relates the
worlds before and after a step of call `i`.
-/

namespace AgzRustMcp

open Tasks

/-- The world of a run of the work executor. -/
abbrev WorkWorld := World WorkStore WorkInput WorkLabel

variable {n : ℕ}

lemma nextWorkId_inj {processId now now' n' : ℕ}
    (h : nextWorkId processId now n = nextWorkId processId now' n') : n = n' := by
  have hlist := congrArg String.toList h
  simp only [nextWorkId, lowerHex, String.toList_append, String.toList_ofList] at hlist
  have hsep : ∀ d < 16, '-' ≠ Nat.digitChar d := by decide
  have hends := Numerals.eq_of_append_toDigits_eq (b := 16) (by decide) (by decide) hsep
    (s := workIdPrefix.toList ++ Nat.toDigits 16 now ++ '-' :: Nat.toDigits 16 processId)
    (t := workIdPrefix.toList ++ Nat.toDigits 16 now' ++ '-' :: Nat.toDigits 16 processId)
    (by simpa using hlist)
  exact hends.2

lemma zeroFields_inj {s t : String} {m k l : ℕ} (h : s ++ "\x00" ++ toString m ++ "\x00" ++ toString k =
      t ++ "\x00" ++ toString n ++ "\x00" ++ toString l) : m = n := by
  have hzero : "\x00".toList = ['\x00'] := by decide
  have hlist := congrArg String.toList h
  simp only [Nat.toString_eq_ofList_toDigits, String.toList_append, String.toList_ofList, hzero,
    List.append_assoc, List.singleton_append] at hlist
  have hsep : ∀ d < 16, '\x00' ≠ Nat.digitChar d := by decide
  have htexts := Numerals.eq_of_append_toDigits_eq (b := 10) (by decide) (by decide) hsep
    (s := s.toList ++ '\x00' :: Nat.toDigits 10 m) (t := t.toList ++ '\x00' :: Nat.toDigits 10 n)
    (by simpa only [List.append_assoc, List.cons_append] using hlist)
  exact (Numerals.eq_of_append_toDigits_eq (b := 10) (by decide) (by decide) hsep htexts.1).2

lemma tokenText_inj {id id' : String} {revision revision' : ℕ} {patchHash patchHash' : String}
    {n' issuedAtMs issuedAtMs' : ℕ}
    (h : tokenText id revision patchHash n issuedAtMs = tokenText id' revision' patchHash' n' issuedAtMs') : n = n' :=
  zeroFields_inj h

/-! ## What has happened so far -/

/-- The effect of a step of call `i` on the shared state. -/
def WorkLabel.effect (i : ℕ) (input : WorkInput) (store : WorkStore) : WorkLabel → WorkStore
  | .fetchSequence => { store with sequence := store.sequence + 1 }
  | .insert record => { store with records := (evict store.records).insert record.id record }
  | .setState id state => store.setState id state input.now
  | .commit _ record => store.commit record input.now
  | .cancelToken id => { store with cancelledTokens := id :: store.cancelledTokens }
  | .lock stripe => { store with stripes := Function.update store.stripes stripe (some i) }
  | .unlock stripe => { store with stripes := Function.update store.stripes stripe none }
  | _ => store

/-- Call `i` made a step with the label. -/
def Did (w : WorkWorld) (i : ℕ) (label : WorkLabel) : Prop :=
  ∃ entry ∈ w.trace, entry.task = i ∧ entry.label = label

/-- Call `i` drew the sequence number `n`. -/
def Reserved (w : WorkWorld) (i n : ℕ) : Prop :=
  ∃ entry ∈ w.trace, entry.task = i ∧ entry.label = .fetchSequence ∧ entry.before.sequence = n

/-- Call `i` started the session. -/
def Inserted (w : WorkWorld) (i : ℕ) (id : String) : Prop :=
  ∃ record, Did w i (.insert record) ∧ record.id = id

/-- Some call wrote the session back with a handoff. -/
def HandedOff (w : WorkWorld) (id : String) : Prop :=
  ∃ i read record, Did w i (.commit read record) ∧ record.id = id ∧ record.state = .needsModel

/-- The bytes were hashed. -/
def Digested (w : WorkWorld) (bytes : ByteArray) : Prop := ∃ i, Did w i (.digest bytes)

/-- No two of the byte strings hashed so far have the same digest. -/
def CollisionFree (sha : ByteArray → String) (w : WorkWorld) : Prop :=
  ∀ x y, Digested w x → Digested w y → sha x = sha y → x = y

/-- The change service answered a validation of the revision with `PASS`. -/
def Passed (w : WorkWorld) (changeId : String) (revision : ℕ) (gate : WorkGate) : Prop :=
  ∃ entry ∈ w.trace, ∃ base, entry.label = .answer (validateRequest changeId revision base gate) ∧
    entry.input.outcome.status = "PASS"

/-- A copy has the intent and budget of its session, and is ready only with all gates passed. -/
structure Sound (w : WorkWorld) (record : WorkRecord) : Prop where
  session : ∃ i first, Did w i (.insert first) ∧ first.id = record.id ∧
    first.intent = record.intent ∧ first.budget = record.budget
  candidates_le : record.candidates ≤ record.budget.maxCandidates
  compiles_le : record.compiles ≤ record.budget.maxCompiles
  handoffs_le : record.handoffs ≤ record.budget.maxHandoffs
  ready : record.state = .ready → ∃ changeId, record.changeId = some changeId ∧
    ∀ gate ∈ record.intent.acceptanceGates, Passed w changeId record.revision gate

section Protocol

variable (service : WorkService) (calls : List WorkCall)

/-- Call `i` is a resume of the session with the token. -/
def Presents (i : ℕ) (id token : String) : Prop :=
  ∃ call, calls[i]? = some call ∧ call.request.action = .resume ∧
    call.request.workId = some id ∧ call.request.continuationToken = some token

/-- The resume `i` was admitted when the counter was at `m`: it consumed its token. -/
def Admitted (w : WorkWorld) (i : ℕ) (id : String) (m : ℕ) : Prop :=
  (∃ entry ∈ w.trace, entry.task = i ∧ (∃ changeId, entry.label = .call (inspectRequest changeId)) ∧
    entry.before.sequence = m) ∧ ∃ token, Presents calls i id token

/-- The token was generated for the session under the sequence number `n`. -/
def TokenNumber (w : WorkWorld) (id token : String) (n : ℕ) : Prop :=
  ∃ revision patchHash issuedAtMs, token = generateToken service.sha id revision patchHash n issuedAtMs ∧
      Digested w (tokenText id revision patchHash n issuedAtMs).toUTF8 ∧ Digested w token.toUTF8

/-- The record keeps the hash of a token that was generated under the number `n`. -/
def HoldsToken (w : WorkWorld) (record : WorkRecord) (n : ℕ) : Prop :=
  (∃ token stored, record.token = some stored ∧ stored.tokenHash = service.sha token.toUTF8 ∧
    TokenNumber service w record.id token n) ∧ n < w.state.sequence

/-- A session that waits has a token numbered from `m` on. -/
def Closed (w : WorkWorld) (id : String) (m : ℕ) : Prop :=
  ∀ record, w.state.records[id]? = some record → record.state = .needsModel →
    ∃ n, m ≤ n ∧ HoldsToken service w record n

/-- Call `i` started the session, or holds the stripe of one handed off. -/
def Owns (w : WorkWorld) (i : ℕ) (id : String) : Prop :=
  (Inserted w i id ∧ ¬ HandedOff w id) ∨ (w.state.stripes (stripeOf id) = some i ∧ HandedOff w id)

/-- Call `i` started the session or was admitted to it. -/
def Joined (w : WorkWorld) (i : ℕ) (id : String) : Prop :=
  Inserted w i id ∨ ∃ m, Admitted calls w i id m

/-- A stage carries the checked candidate of its call. -/
def StagesCandidate (w : WorkWorld) (i : ℕ) (request : ChangeRequest) : Prop :=
  (∃ k first, Did w k (.insert first) ∧ Joined calls w i first.id ∧
    candidateScopeError first.intent request.patches request.newFiles = none) ∧
  ∃ call, calls[i]? = some call ∧ request.patches = call.request.patches ∧ request.newFiles = call.request.newFiles

/-- What is known when call `i` makes a step with the label. -/
def Lawful (i : ℕ) (w : WorkWorld) : WorkLabel → Prop
  | .insert record =>
    (∃ now n, Reserved w i n ∧ record.id = nextWorkId service.processId now n) ∧
      (∀ other, ¬ Did w i (.insert other)) ∧ record.state = .planned ∧
      record.candidates = 0 ∧ record.compiles = 0 ∧ record.handoffs = 0 ∧
      ∃ call, calls[i]? = some call ∧ call.request.action = .start ∧
        call.request.intent = some record.intent ∧ call.request.budget = record.budget ∧
        validateIntent record.intent = .ok ()
  | .setState _ state => state.isTerminal = false ∧ state ≠ .needsModel
  | .commit read record =>
    record.id = read.id ∧ (read.state.isTerminal = true → record = { read with reason := record.reason }) ∧
      Sound w record ∧
      (record.state = .needsModel → Owns w i record.id ∧
        ∃ n, HoldsToken service w record n ∧ ∀ j m, Admitted calls w j record.id m → m ≤ n)
  | .lock stripe => w.state.stripes stripe = none
  | .unlock stripe =>
    w.state.stripes stripe = some i ∧ ∀ id m, stripeOf id = stripe → Admitted calls w i id m → Closed service w id m
  | .call request =>
    (request.action = .stage → StagesCandidate calls w i request) ∧
      ∀ changeId, request = inspectRequest changeId → ∀ id token, Presents calls i id token →
        w.state.stripes (stripeOf id) = some i ∧ HandedOff w id ∧ (∀ m, ¬ Admitted calls w i id m) ∧
          (CollisionFree service.sha w → (∃ n < w.state.sequence, TokenNumber service w id token n) ∧
              ∀ j m, Admitted calls w j id m → ¬ Presents calls j id token)
  | .answer request => Did w i (.call request)
  | _ => True

/-- The invariant of all runs. -/
structure WorkInv (w : WorkWorld) : Prop where
  sequence_le : ∀ entry ∈ w.trace, entry.before.sequence ≤ w.state.sequence
  reserved_lt : ∀ i n, Reserved w i n → n < w.state.sequence
  reserved_unique : ∀ i j n, Reserved w i n → Reserved w j n → i = j
  inserted : ∀ i id, Inserted w i id → ∃ now n, Reserved w i n ∧ id = nextWorkId service.processId now n
  started : ∀ i record, Did w i (.insert record) → ∃ call, calls[i]? = some call ∧
    call.request.action = .start ∧ call.request.intent = some record.intent ∧
    call.request.budget = record.budget ∧ validateIntent record.intent = .ok ()
  stored : ∀ id record, w.state.records[id]? = some record → record.id = id ∧ Sound w record
  handedOff : ∀ id, HandedOff w id → ∃ i, Inserted w i id
  token : ∀ id record, w.state.records[id]? = some record → record.state = .needsModel →
    HandedOff w id ∧ ∃ n, HoldsToken service w record n
  closed : ∀ i id m, Admitted calls w i id m → w.state.stripes (stripeOf id) = some i ∨ Closed service w id m
  admitted : ∀ i id m, Admitted calls w i id m → HandedOff w id
  number : CollisionFree service.sha w → ∀ i id m token, Admitted calls w i id m →
    Presents calls i id token → ∃ n < m, TokenNumber service w id token n
  single : CollisionFree service.sha w → ∀ i j id m m' token, Admitted calls w i id m →
    Admitted calls w j id m' → Presents calls i id token → Presents calls j id token → i = j
  staged : ∀ i request, Did w i (.call request) → request.action = .stage → StagesCandidate calls w i request
  answered : ∀ i request, Did w i (.answer request) → Did w i (.call request)

/-- The world after a step of call `i` with the label. -/
def WorkLabel.next (label : WorkLabel) (i : ℕ) (w : WorkWorld) (input : WorkInput) : WorkWorld :=
  ⟨label.effect i input w.state, w.trace ++ [⟨i, label, input, w.state⟩]⟩

/-! ## The history grows -/

variable {service calls} {label : WorkLabel} {w : WorkWorld} {i j n m : ℕ} {input : WorkInput} {id : String}

lemma did_next {other : WorkLabel} :
    Did (label.next i w input) j other ↔ Did w j other ∨ (j = i ∧ other = label) := by
  constructor
  · rintro ⟨entry, hentry, rfl, rfl⟩
    rcases List.mem_append.mp hentry with hold | hnew
    · exact Or.inl ⟨entry, hold, rfl, rfl⟩
    · obtain rfl := List.mem_singleton.mp hnew
      exact Or.inr ⟨rfl, rfl⟩
  · rintro (⟨entry, hentry, htask, hlabel⟩ | ⟨rfl, rfl⟩)
    · exact ⟨entry, List.mem_append_left _ hentry, htask, hlabel⟩
    · exact ⟨_, List.mem_append_right _ List.mem_cons_self, rfl, rfl⟩

lemma reserved_next : Reserved (label.next i w input) j n ↔
    Reserved w j n ∨ (j = i ∧ label = .fetchSequence ∧ n = w.state.sequence) := by
  constructor
  · rintro ⟨entry, hentry, rfl, hlabel, rfl⟩
    rcases List.mem_append.mp hentry with hold | hnew
    · exact Or.inl ⟨entry, hold, rfl, hlabel, rfl⟩
    · obtain rfl := List.mem_singleton.mp hnew
      exact Or.inr ⟨rfl, hlabel, rfl⟩
  · rintro (⟨entry, hentry, htask, hlabel, hn⟩ | ⟨rfl, rfl, rfl⟩)
    · exact ⟨entry, List.mem_append_left _ hentry, htask, hlabel, hn⟩
    · exact ⟨_, List.mem_append_right _ List.mem_cons_self, rfl, rfl, rfl⟩

lemma admitted_next : Admitted calls (label.next i w input) j id m ↔
    Admitted calls w j id m ∨ (j = i ∧ (∃ changeId, label = .call (inspectRequest changeId)) ∧
      m = w.state.sequence ∧ ∃ token, Presents calls j id token) := by
  constructor
  · rintro ⟨⟨entry, hentry, rfl, hlabel, rfl⟩, hpresents⟩
    rcases List.mem_append.mp hentry with hold | hnew
    · exact Or.inl ⟨⟨entry, hold, rfl, hlabel, rfl⟩, hpresents⟩
    · obtain rfl := List.mem_singleton.mp hnew
      exact Or.inr ⟨rfl, hlabel, rfl, hpresents⟩
  · rintro (⟨⟨entry, hentry, htask, hlabel, hm⟩, hpresents⟩ | ⟨rfl, hlabel, rfl, hpresents⟩)
    · exact ⟨⟨entry, List.mem_append_left _ hentry, htask, hlabel, hm⟩, hpresents⟩
    · exact ⟨⟨_, List.mem_append_right _ List.mem_cons_self, rfl, hlabel, rfl⟩, hpresents⟩

lemma Did.next {other : WorkLabel} (h : Did w j other) : Did (label.next i w input) j other :=
  did_next.mpr (Or.inl h)

lemma Reserved.next (h : Reserved w j n) : Reserved (label.next i w input) j n :=
  reserved_next.mpr (Or.inl h)

lemma Inserted.next (h : Inserted w j id) : Inserted (label.next i w input) j id := by
  obtain ⟨record, hdid, hid⟩ := h
  exact ⟨record, hdid.next, hid⟩

lemma HandedOff.next (h : HandedOff w id) : HandedOff (label.next i w input) id := by
  obtain ⟨k, read, record, hdid, hid, hstate⟩ := h
  exact ⟨k, read, record, hdid.next, hid, hstate⟩

lemma Digested.next {bytes : ByteArray} (h : Digested w bytes) : Digested (label.next i w input) bytes := by
  obtain ⟨k, hdid⟩ := h
  exact ⟨k, hdid.next⟩

lemma Admitted.next (h : Admitted calls w j id m) : Admitted calls (label.next i w input) j id m :=
  admitted_next.mpr (Or.inl h)

lemma Joined.next (h : Joined calls w j id) : Joined calls (label.next i w input) j id := by
  rcases h with h | ⟨m, h⟩
  · exact Or.inl h.next
  · exact Or.inr ⟨m, h.next⟩

lemma Passed.next {changeId : String} {revision : ℕ} {gate : WorkGate} (h : Passed w changeId revision gate) :
    Passed (label.next i w input) changeId revision gate := by
  obtain ⟨entry, hentry, base, hlabel, hstatus⟩ := h
  exact ⟨entry, List.mem_append_left _ hentry, base, hlabel, hstatus⟩

variable {record : WorkRecord} {store : WorkStore} {now : ℕ} {key : String}

lemma Sound.next (h : Sound w record) : Sound (label.next i w input) record where
  session := by
    obtain ⟨k, first, hdid, hfirst⟩ := h.session
    exact ⟨k, first, hdid.next, hfirst⟩
  candidates_le := h.candidates_le
  compiles_le := h.compiles_le
  handoffs_le := h.handoffs_le
  ready hready := by
    obtain ⟨changeId, hchange, hpassed⟩ := h.ready hready
    exact ⟨changeId, hchange, fun gate hgate => (hpassed gate hgate).next⟩

lemma StagesCandidate.next {request : ChangeRequest} (h : StagesCandidate calls w j request) :
    StagesCandidate calls (label.next i w input) j request := by
  obtain ⟨⟨k, first, hdid, hjoined, hscope⟩, hcall⟩ := h
  exact ⟨⟨k, first, hdid.next, hjoined.next, hscope⟩, hcall⟩

lemma TokenNumber.next {token : String} (h : TokenNumber service w id token n) :
    TokenNumber service (label.next i w input) id token n := by
  obtain ⟨revision, patchHash, issuedAtMs, heq, htext, htoken⟩ := h
  exact ⟨revision, patchHash, issuedAtMs, heq, htext.next, htoken.next⟩

lemma CollisionFree.of_next {sha : ByteArray → String}
    (h : CollisionFree sha (label.next i w input)) : CollisionFree sha w :=
  fun x y hx hy => h x y hx.next hy.next

lemma TokenNumber.unique {token : String} (hfree : CollisionFree service.sha w)
    (h : TokenNumber service w id token n) (h' : TokenNumber service w id token m) : n = m := by
  obtain ⟨revision, patchHash, issuedAtMs, rfl, htext, -⟩ := h
  obtain ⟨revision', patchHash', issuedAtMs', heq, htext', -⟩ := h'
  exact tokenText_inj (String.toByteArray_inj.mp (hfree _ _ htext htext' heq))

/-! ## The state after a step -/

@[simp] lemma setState_sequence (store : WorkStore) (state : WorkState) (now : ℕ) :
    (store.setState id state now).sequence = store.sequence := by
  unfold WorkStore.setState
  split
  · rfl
  · split <;> rfl

@[simp] lemma setState_stripes (store : WorkStore) (state : WorkState) (now : ℕ) :
    (store.setState id state now).stripes = store.stripes := by
  unfold WorkStore.setState
  split
  · rfl
  · split <;> rfl

@[simp] lemma commit_sequence (store : WorkStore) (record : WorkRecord) (now : ℕ) :
    (store.commit record now).sequence = store.sequence := by
  unfold WorkStore.commit
  split
  · rfl
  · split <;> rfl

@[simp] lemma commit_stripes (store : WorkStore) (record : WorkRecord) (now : ℕ) :
    (store.commit record now).stripes = store.stripes := by
  unfold WorkStore.commit
  split
  · rfl
  · split <;> rfl

lemma stored_setState {state : WorkState} (h : (store.setState id state now).records[key]? = some record) :
    store.records[key]? = some record ∨ (key = id ∧ ∃ current, store.records[id]? = some current ∧
      current.state ≠ .cancelled ∧ record = { current with state, updatedAtMs := now }) := by
  unfold WorkStore.setState at h
  split at h
  · exact Or.inl h
  · next current hcurrent =>
    split at h
    · exact Or.inl h
    · next hstate =>
      simp only [Std.ExtTreeMap.getElem?_insert, Std.LawfulEqCmp.compare_eq_iff_eq] at h
      split at h
      · next hkey => exact Or.inr ⟨hkey.symm, current, hcurrent, hstate, (Option.some.inj h).symm⟩
      · exact Or.inl h

lemma stored_commit {copy : WorkRecord} (h : (store.commit copy now).records[key]? = some record) :
    store.records[key]? = some record ∨ (key = copy.id ∧ ∃ current, store.records[copy.id]? = some current ∧
        current.state ≠ .cancelled ∧ record = { copy with updatedAtMs := now }) := by
  unfold WorkStore.commit at h
  split at h
  · exact Or.inl h
  · next current hcurrent =>
    split at h
    · exact Or.inl h
    · next hstate =>
      simp only [Std.ExtTreeMap.getElem?_insert, Std.LawfulEqCmp.compare_eq_iff_eq] at h
      split at h
      · next hkey => exact Or.inr ⟨hkey.symm, current, hcurrent, hstate, (Option.some.inj h).symm⟩
      · exact Or.inl h

lemma stored_commit_self {copy : WorkRecord} (h : (store.commit copy now).records[copy.id]? = some record) :
    record.state = .cancelled ∨ record = { copy with updatedAtMs := now } := by
  unfold WorkStore.commit at h
  split at h
  · next hnone =>
    rw [hnone] at h
    simp at h
  · next current hcurrent =>
    split at h
    · next hstate =>
      rw [hcurrent] at h
      exact Or.inl (Option.some.inj h ▸ hstate)
    · rw [Std.ExtTreeMap.getElem?_insert_self] at h
      exact Or.inr (Option.some.inj h).symm

lemma stored_evict {records : Std.ExtTreeMap String WorkRecord} (h : (evict records)[key]? = some record) :
    records[key]? = some record := by
  unfold evict at h
  split at h
  · split at h
    · next victim _ =>
      rw [Std.ExtTreeMap.getElem?_erase] at h
      split at h
      · simp at h
      · exact h
    · exact h
  · exact h

/-- Where a record of the store after a step comes from. -/
inductive StoredFrom (w : WorkWorld) (label : WorkLabel) (now : ℕ) (key : String) :
    WorkRecord → Prop
  | old {record : WorkRecord} (h : w.state.records[key]? = some record) : StoredFrom w label now key record
  | inserted {record : WorkRecord} (h : label = .insert record) (hkey : record.id = key) :
      StoredFrom w label now key record
  | published {state current} (h : label = .setState key state)
      (hcurrent : w.state.records[key]? = some current) (hstate : current.state ≠ .cancelled) :
      StoredFrom w label now key { current with state, updatedAtMs := now }
  | committed {read copy current} (h : label = .commit read copy) (hkey : copy.id = key)
      (hcurrent : w.state.records[key]? = some current) (hstate : current.state ≠ .cancelled) :
      StoredFrom w label now key { copy with updatedAtMs := now }

lemma storedFrom_next (h : (label.next i w input).state.records[key]? = some record) :
    StoredFrom w label input.now key record := by
  cases label with
  | insert first =>
    have hins : ((evict w.state.records).insert first.id first)[key]? = some record := h
    simp only [Std.ExtTreeMap.getElem?_insert, Std.LawfulEqCmp.compare_eq_iff_eq] at hins
    split at hins
    · next hkey =>
      obtain rfl := Option.some.inj hins
      exact .inserted rfl hkey
    · exact .old (stored_evict hins)
  | setState id state =>
    rcases stored_setState h with hold | ⟨rfl, current, hcurrent, hstate, rfl⟩
    · exact .old hold
    · exact .published rfl hcurrent hstate
  | commit read copy =>
    rcases stored_commit h with hold | ⟨rfl, current, hcurrent, hstate, rfl⟩
    · exact .old hold
    · exact .committed rfl rfl hcurrent hstate
  | clock => exact .old h
  | poll => exact .old h
  | fetchSequence => exact .old h
  | digest bytes => exact .old h
  | load => exact .old h
  | cancelToken id => exact .old h
  | lock stripe => exact .old h
  | unlock stripe => exact .old h
  | call request => exact .old h
  | answer request => exact .old h

lemma sequence_next : (label.next i w input).state.sequence = w.state.sequence ∨ (label = .fetchSequence ∧
      (label.next i w input).state.sequence = w.state.sequence + 1) := by
  cases label with
  | fetchSequence => exact Or.inr ⟨rfl, rfl⟩
  | setState id state => exact Or.inl (setState_sequence _ _ _)
  | commit read copy => exact Or.inl (commit_sequence _ _ _)
  | _ => exact Or.inl rfl

lemma sequence_le_next : w.state.sequence ≤ (label.next i w input).state.sequence := by
  have h : (label.next i w input).state.sequence = w.state.sequence ∨ _ := sequence_next
  rcases h with h | ⟨-, h⟩
  · exact h.ge
  · omega

lemma HoldsToken.next (h : HoldsToken service w record n) : HoldsToken service (label.next i w input) record n := by
  obtain ⟨⟨token, stored, htoken, hhash, hnumber⟩, hn⟩ := h
  exact ⟨⟨token, stored, htoken, hhash, hnumber.next⟩, hn.trans_le sequence_le_next⟩

lemma stripes_next (stripe : ℕ) : (label.next i w input).state.stripes stripe = w.state.stripes stripe ∨
      label = .lock stripe ∨ label = .unlock stripe := by
  cases label with
  | setState id state => exact Or.inl (congrFun (setState_stripes _ _ _) stripe)
  | commit read copy => exact Or.inl (congrFun (commit_stripes _ _ _) stripe)
  | lock other =>
    by_cases h : stripe = other
    · exact Or.inr (Or.inl (by rw [h]))
    · exact Or.inl (Function.update_of_ne h _ _)
  | unlock other =>
    by_cases h : stripe = other
    · exact Or.inr (Or.inr (by rw [h]))
    · exact Or.inl (Function.update_of_ne h _ _)
  | _ => exact Or.inl rfl

/-! ## The invariant -/

lemma Sound.updated (h : Sound w record) (now : ℕ) : Sound w { record with updatedAtMs := now } :=
  ⟨h.session, h.candidates_le, h.compiles_le, h.handoffs_le, h.ready⟩

lemma Sound.published (h : Sound w record) {state : WorkState} (hstate : state.isTerminal = false) (now : ℕ) :
    Sound w { record with state, updatedAtMs := now } := by
  refine ⟨h.session, h.candidates_le, h.compiles_le, h.handoffs_le, fun hready => ?_⟩
  obtain rfl : state = .ready := hready
  simp [WorkState.isTerminal] at hstate

lemma sound_inserted (h : Lawful service calls i w (.insert record)) :
    Sound ((WorkLabel.insert record).next i w input) record := by
  obtain ⟨-, -, hstate, hcandidates, hcompiles, hhandoffs, -⟩ := h
  refine ⟨⟨i, record, did_next.mpr (Or.inr ⟨rfl, rfl⟩), rfl, rfl, rfl⟩, ?_, ?_, ?_, ?_⟩
  · simp [hcandidates]
  · simp [hcompiles]
  · simp [hhandoffs]
  · intro hready
    simp [hstate] at hready

lemma Closed.next (h : Closed service w id m) (hlawful : Lawful service calls i w label)
    (hadmitted : Admitted calls w j id m) : Closed service (label.next i w input) id m := by
  intro record hrecord hstate
  cases storedFrom_next hrecord with
  | old hold =>
    obtain ⟨n, hn, htoken⟩ := h record hold hstate
    exact ⟨n, hn, htoken.next⟩
  | inserted hlabel _ =>
    subst hlabel
    rw [hlawful.2.2.1] at hstate
    simp at hstate
  | published hlabel _ _ =>
    subst hlabel
    exact absurd hstate hlawful.2
  | committed hlabel hkey _ _ =>
    subst hlabel hkey
    obtain ⟨-, n, htoken, hle⟩ := hlawful.2.2.2 hstate
    exact ⟨n, hle j m hadmitted, htoken.next⟩

lemma workInv_empty : WorkInv service calls ⟨.empty, []⟩ where
  sequence_le := by simp
  reserved_lt := by simp [Reserved]
  reserved_unique := by simp [Reserved]
  inserted := by simp [Inserted, Did]
  started := by simp [Did]
  stored := by simp [WorkStore.empty]
  handedOff := by simp [HandedOff, Did]
  token := by simp [WorkStore.empty]
  closed := by simp [Admitted]
  admitted := by simp [Admitted]
  number := by simp [Admitted]
  single := by simp [Admitted]
  staged := by simp [Did]
  answered := by simp [Did]

/-- Every lawful step keeps the invariant. -/
lemma WorkInv.next (h : WorkInv service calls w) (hlawful : Lawful service calls i w label) :
    WorkInv service calls (label.next i w input) where
  sequence_le entry hentry := by
    rcases List.mem_append.mp hentry with hold | hnew
    · exact (h.sequence_le entry hold).trans sequence_le_next
    · obtain rfl := List.mem_singleton.mp hnew
      exact sequence_le_next
  reserved_lt j n hreserved := by
    rcases reserved_next.mp hreserved with hold | ⟨rfl, rfl, rfl⟩
    · exact (h.reserved_lt j n hold).trans_le sequence_le_next
    · exact Nat.lt_succ_self _
  reserved_unique j k n hj hk := by
    rcases reserved_next.mp hj with hj' | ⟨rfl, -, rfl⟩
    · rcases reserved_next.mp hk with hk' | ⟨-, -, rfl⟩
      · exact h.reserved_unique j k n hj' hk'
      · exact absurd (h.reserved_lt j _ hj') (lt_irrefl _)
    · rcases reserved_next.mp hk with hk' | ⟨rfl, -, -⟩
      · exact absurd (h.reserved_lt k _ hk') (lt_irrefl _)
      · rfl
  inserted j id hinserted := by
    obtain ⟨record, hdid, rfl⟩ := hinserted
    rcases did_next.mp hdid with hold | ⟨rfl, rfl⟩
    · obtain ⟨now, n, hreserved, hid⟩ := h.inserted j record.id ⟨record, hold, rfl⟩
      exact ⟨now, n, hreserved.next, hid⟩
    · obtain ⟨now, n, hreserved, hid⟩ := hlawful.1
      exact ⟨now, n, hreserved.next, hid⟩
  started j record hdid := by
    rcases did_next.mp hdid with hold | ⟨rfl, rfl⟩
    · exact h.started j record hold
    · exact hlawful.2.2.2.2.2.2
  stored id record hrecord := by
    cases storedFrom_next hrecord with
    | old hold =>
      obtain ⟨hid, hsound⟩ := h.stored id record hold
      exact ⟨hid, hsound.next⟩
    | inserted hlabel hkey =>
      subst hlabel
      exact ⟨hkey, sound_inserted hlawful⟩
    | published hlabel hcurrent _ =>
      subst hlabel
      obtain ⟨hid, hsound⟩ := h.stored id _ hcurrent
      exact ⟨hid, (hsound.published hlawful.1 _).next⟩
    | committed hlabel hkey _ _ =>
      subst hlabel
      exact ⟨hkey, (hlawful.2.2.1.updated _).next⟩
  handedOff id hhanded := by
    obtain ⟨k, read, record, hdid, rfl, hstate⟩ := hhanded
    rcases did_next.mp hdid with hold | ⟨rfl, rfl⟩
    · obtain ⟨j, hj⟩ := h.handedOff record.id ⟨k, read, record, hold, rfl, hstate⟩
      exact ⟨j, hj.next⟩
    · rcases (hlawful.2.2.2 hstate).1 with ⟨hinserted, -⟩ | ⟨-, hbefore⟩
      · exact ⟨k, hinserted.next⟩
      · obtain ⟨j, hj⟩ := h.handedOff record.id hbefore
        exact ⟨j, hj.next⟩
  token id record hrecord hstate := by
    cases storedFrom_next hrecord with
    | old hold =>
      obtain ⟨hhanded, n, htoken⟩ := h.token id record hold hstate
      exact ⟨hhanded.next, n, htoken.next⟩
    | inserted hlabel _ =>
      subst hlabel
      rw [hlawful.2.2.1] at hstate
      simp at hstate
    | published hlabel _ _ =>
      subst hlabel
      exact absurd hstate hlawful.2
    | committed hlabel hkey _ _ =>
      subst hlabel hkey
      obtain ⟨-, n, htoken, -⟩ := hlawful.2.2.2 hstate
      exact ⟨⟨i, _, _, did_next.mpr (Or.inr ⟨rfl, rfl⟩), rfl, hstate⟩, n, htoken.next⟩
  closed j id m hadmitted := by
    rcases admitted_next.mp hadmitted with hold | ⟨rfl, ⟨changeId, rfl⟩, rfl, token, hpresents⟩
    · rcases h.closed j id m hold with hheld | hclosed
      · have hstripes : (label.next i w input).state.stripes (stripeOf id) = _ ∨ _ :=
          stripes_next (stripeOf id)
        rcases hstripes with hsame | rfl | rfl
        · exact Or.inl (hsame.trans hheld)
        · have hfree : w.state.stripes (stripeOf id) = none := hlawful
          rw [hfree] at hheld
          simp at hheld
        · obtain ⟨hmine, hclosed⟩ := hlawful
          obtain rfl : j = i := Option.some.inj (hheld.symm.trans hmine)
          exact Or.inr ((hclosed id m rfl hold).next ⟨hmine, hclosed⟩ hold)
      · exact Or.inr (hclosed.next hlawful hold)
    · exact Or.inl (hlawful.2 changeId rfl id token hpresents).1
  admitted j id m hadmitted := by
    rcases admitted_next.mp hadmitted with hold | ⟨rfl, ⟨changeId, rfl⟩, rfl, token, hpresents⟩
    · exact (h.admitted j id m hold).next
    · exact (hlawful.2 changeId rfl id token hpresents).2.1.next
  number hfree j id m token hadmitted hpresents := by
    rcases admitted_next.mp hadmitted with hold | ⟨rfl, ⟨changeId, rfl⟩, rfl, -⟩
    · obtain ⟨n, hn, hnumber⟩ := h.number hfree.of_next j id m token hold hpresents
      exact ⟨n, hn, hnumber.next⟩
    · obtain ⟨n, hn, hnumber⟩ :=
        ((hlawful.2 changeId rfl id token hpresents).2.2.2 hfree.of_next).1
      exact ⟨n, hn, hnumber.next⟩
  single hfree j k id m m' token hj hk hpj hpk := by
    rcases admitted_next.mp hj with hj' | ⟨rfl, ⟨changeId, rfl⟩, rfl, -⟩
    · rcases admitted_next.mp hk with hk' | ⟨rfl, ⟨changeId, rfl⟩, rfl, -⟩
      · exact h.single hfree.of_next j k id m m' token hj' hk' hpj hpk
      · exact absurd hpj (((hlawful.2 changeId rfl id token hpk).2.2.2 hfree.of_next).2 j m hj')
    · rcases admitted_next.mp hk with hk' | ⟨rfl, -, -, -⟩
      · exact absurd hpk (((hlawful.2 changeId rfl id token hpj).2.2.2 hfree.of_next).2 k m' hk')
      · rfl
  staged j request hdid haction := by
    rcases did_next.mp hdid with hold | ⟨rfl, rfl⟩
    · exact (h.staged j request hold haction).next
    · exact (hlawful.1 haction).next
  answered j request hdid := by
    rcases did_next.mp hdid with hold | ⟨rfl, rfl⟩
    · exact (h.answered j request hold).next
    · exact Did.next hlawful

end Protocol

end AgzRustMcp
