import AgzRustMcp.Lsp.Requests

/-!
# No stranded or misrouted request

The sender of a request is in one place at a time: in the pending table, in the hands of the reader
of responses, or used up.  `ClientInv` says so, and what is left in the table after the drain: only
requests that have not passed their second look at the closed flag.
-/

namespace AgzRustMcp.Lsp

open Std (ExtTreeMap)

variable {V : Type} {client : LspClient V} {request request' : Request V} {r : ℕ}

lemma isDigit_of_mem_toString {n : ℕ} {c : Char} (h : c ∈ (toString n).toList) : c.isDigit = true := by
  rw [Nat.toString_eq_repr, Nat.toList_repr] at h
  exact Nat.isDigit_of_mem_toDigits (by norm_num) (by norm_num) h

lemma eq_of_rpcIdKey_eq {id : MessageId} {n : ℕ} (h : rpcIdKey id = some (toString n)) :
    id = .number (.posInt n) := by
  cases id with
  | null => simp [rpcIdKey] at h
  | string text =>
    have hquote : '"' ∈ (toString n).toList := by
      rw [← Option.some.inj h]
      simp
    exact absurd (isDigit_of_mem_toString hquote) (by decide)
  | number number =>
    have htext : number.toText = toString n := Option.some.inj h
    cases number with
    | posInt m =>
      have hdigits : Nat.toDigits 10 m = Nat.toDigits 10 n := by
        simpa [Number.toText, Nat.toString_eq_repr] using congrArg String.toList htext
      rw [Numerals.toDigits_inj (by norm_num) (by norm_num) hdigits]
    | negInt m =>
      have hsign : '-' ∈ (toString n).toList := by
        rw [← htext]
        simp [Number.toText]
      exact absurd (isDigit_of_mem_toString hsign) (by decide)
    | float number =>
      have hlist : number.text.toList = (toString n).toList := congrArg String.toList htext
      rcases number.notInteger with hmem | hmem
      · exact absurd (isDigit_of_mem_toString (hlist ▸ hmem)) (by decide)
      · exact absurd (isDigit_of_mem_toString (hlist ▸ hmem)) (by decide)

/-! ## The invariant -/

/-- The request has not come to the pending table. -/
def Request.IsEarly (request : Request V) : Prop :=
  request.phase = .checking ∨ request.phase = .numbering ∨ request.phase = .registering

/-- A request received and returned at most one value, which was meant for it. -/
structure RequestInv (request : Request V) : Prop where
  deliveries_le : request.deliveries.length ≤ 1
  results_le : request.results.length ≤ 1
  results_nil : request.phase ≠ .returned → request.results = []
  early : request.IsEarly → request.deliveries = [] ∧ request.passed = false
  routed : ∀ delivery ∈ request.deliveries, ∀ id, delivery.source = .response id → rpcIdKey id = some request.idKey

/-- The sender of request `r` is not used up, and its key is `key`. -/
def LspClient.Unsent (client : LspClient V) (r : ℕ) (key : String) : Prop :=
  ∃ request, client.requests[r]? = some request ∧ ¬ request.IsEarly ∧ request.deliveries = [] ∧ request.idKey = key

/-- The drain of the pending table is done. -/
def LspClient.Drained (client : LspClient V) : Prop :=
  ∃ closing ∈ client.closings, closing.phase = .drained ∨ closing.phase = .finished

/-- Senders are unique, keys match, and what is pending behind the drain is early. -/
structure ClientInv (client : LspClient V) : Prop where
  requests : ∀ request ∈ client.requests, RequestInv request
  pending : ∀ (key : String) (entry : PendingRequest), client.pending[key]? = some entry →
    client.Unsent entry.sender key ∧ ∀ response ∈ client.held, response.sender ≠ entry.sender
  held : ∀ response ∈ client.held, ∃ key, rpcIdKey response.responseId = some key ∧ client.Unsent response.sender key
  distinct : (client.held.map HeldResponse.sender).Nodup
  flagged : ∀ closing ∈ client.closings, closing.phase ≠ .called → client.closed = true
  drained : client.Drained → ∀ (key : String) (entry : PendingRequest),
    client.pending[key]? = some entry → ∀ request, client.requests[entry.sender]? = some request →
    request.passed = false

lemma clientInv_init (maxFrameBytes : ℕ) : ClientInv ({ maxFrameBytes } : LspClient V) where
  requests := by simp
  pending := by simp
  held := by simp
  distinct := by simp
  flagged := by simp
  drained := by simp

lemma ClientInv.closed_of_drained (h : ClientInv client) (hdrained : client.Drained) : client.closed = true := by
  obtain ⟨closing, hmem, hphase⟩ := hdrained
  refine h.flagged closing hmem fun hcalled => ?_
  rcases hphase with hphase | hphase <;> simp [hphase] at hcalled

/-- What a step of a request keeps while its sender may be somewhere. -/
structure KeepsSender (request request' : Request V) : Prop where
  key : ¬ request.IsEarly → request'.idKey = request.idKey
  late : ¬ request.IsEarly → ¬ request'.IsEarly
  deliveries : request'.deliveries = request.deliveries

lemma LspClient.Unsent.set {q : ℕ} {key : String} (h : client.Unsent q key)
    (hget : client.requests[r]? = some request) (hkeep : KeepsSender request request') :
    (client.setRequest r request').Unsent q key := by
  obtain ⟨other, hother, hlate, hnone, hkey⟩ := h
  obtain ⟨hlt, -⟩ := List.getElem?_eq_some_iff.mp hget
  rcases eq_or_ne r q with rfl | hne
  · obtain rfl := Option.some.inj (hget.symm.trans hother)
    exact ⟨request', by simp [setRequest, hlt], hkeep.late hlate, hkeep.deliveries.trans hnone,
      (hkeep.key hlate).trans hkey⟩
  · exact ⟨other, by simpa [setRequest, List.getElem?_set_ne hne] using hother, hlate, hnone, hkey⟩

lemma ClientInv.set (h : ClientInv client) (hget : client.requests[r]? = some request)
    (hkeep : KeepsSender request request') (hinv : RequestInv request')
    (hpassed : client.closed = true → request'.passed = request.passed) :
    ClientInv (client.setRequest r request') where
  requests other hother := by
    rcases List.mem_or_eq_of_mem_set hother with hmem | rfl
    · exact h.requests other hmem
    · exact hinv
  pending key entry hentry :=
    ⟨(h.pending key entry hentry).1.set hget hkeep, (h.pending key entry hentry).2⟩
  held response hresponse := by
    obtain ⟨key, hkey, hunsent⟩ := h.held response hresponse
    exact ⟨key, hkey, hunsent.set hget hkeep⟩
  distinct := h.distinct
  flagged := h.flagged
  drained hdrained key entry hentry other hother := by
    obtain ⟨hlt, -⟩ := List.getElem?_eq_some_iff.mp hget
    rcases eq_or_ne r entry.sender with rfl | hne
    · obtain rfl : request' = other := by simpa [LspClient.setRequest, hlt] using hother
      rw [hpassed (h.closed_of_drained hdrained)]
      exact h.drained hdrained key entry hentry request hget
    · rw [LspClient.setRequest, List.getElem?_set_ne hne] at hother
      exact h.drained hdrained key entry hentry other hother

lemma ClientInv.erase (h : ClientInv client) (key : String) :
    ClientInv { client with pending := client.pending.erase key } := by
  have hsub : ∀ (k : String) (entry : PendingRequest), (client.pending.erase key)[k]? = some entry →
      client.pending[k]? = some entry := by
    intro k entry hentry
    rw [ExtTreeMap.getElem?_erase] at hentry
    split at hentry
    · exact absurd hentry (by simp)
    · exact hentry
  exact {
    requests := h.requests
    pending := fun k entry hentry => h.pending k entry (hsub k entry hentry)
    held := h.held
    distinct := h.distinct
    flagged := h.flagged
    drained := fun hdrained k entry hentry => h.drained hdrained k entry (hsub k entry hentry) }

/-! ## The steps of a request -/

lemma RequestInv.finish (h : RequestInv request) (hphase : request.phase ≠ .returned)
    (result : Except (LspError V) V) : RequestInv (request.finish result) where
  deliveries_le := h.deliveries_le
  results_le := by simp [Request.finish, h.results_nil hphase]
  results_nil hne := absurd rfl hne
  early hearly := by simp [Request.IsEarly, Request.finish] at hearly
  routed := h.routed

lemma RequestInv.move (h : RequestInv request) (hphase : request.phase ≠ .returned) {phase : RequestPhase V}
    (hearly : Request.IsEarly { request with phase } → request.IsEarly) : RequestInv { request with phase } where
  deliveries_le := h.deliveries_le
  results_le := h.results_le
  results_nil _ := h.results_nil hphase
  early he := h.early (hearly he)
  routed := h.routed

lemma ClientInv.finish (h : ClientInv client) (hget : client.requests[r]? = some request)
    (hphase : request.phase ≠ .returned) (result : Except (LspError V) V) :
    ClientInv (client.setRequest r (request.finish result)) := by
  have hinv := (h.requests request (List.mem_of_getElem? hget)).finish hphase result
  have hkeep : KeepsSender request (request.finish result) :=
    ⟨fun _ => rfl, fun _ he => by simp [Request.IsEarly, Request.finish] at he, rfl⟩
  exact h.set hget hkeep hinv fun _ => rfl

lemma ClientInv.move (h : ClientInv client) (hget : client.requests[r]? = some request)
    (hphase : request.phase ≠ .returned) (phase : RequestPhase V)
    (hearly : Request.IsEarly { request with phase } → request.IsEarly) :
    ClientInv (client.setRequest r { request with phase }) := by
  have hinv := (h.requests request (List.mem_of_getElem? hget)).move hphase hearly
  have hkeep : KeepsSender request { request with phase } :=
    ⟨fun _ => rfl, fun hlate he => hlate (hearly he), rfl⟩
  exact h.set hget hkeep hinv fun _ => rfl

lemma ClientInv.number (h : ClientInv client) (hget : client.requests[r]? = some request)
    (hphase : request.phase = .numbering) (id next : ℕ) :
    ClientInv { client.setRequest r { request with phase := .registering, id } with
      nextId := next } := by
  have hold := h.requests request (List.mem_of_getElem? hget)
  have hearly : request.IsEarly := Or.inr (Or.inl hphase)
  have hinv : RequestInv { request with phase := .registering, id } := {
    deliveries_le := hold.deliveries_le
    results_le := hold.results_le
    results_nil := fun _ => hold.results_nil (by simp [hphase])
    early := fun _ => hold.early hearly
    routed := fun delivery hmem => by simp [(hold.early hearly).1] at hmem }
  have hkeep : KeepsSender request { request with phase := .registering, id } :=
    ⟨fun hlate => absurd hearly hlate, fun hlate => absurd hearly hlate, rfl⟩
  have hset := h.set hget hkeep hinv fun _ => rfl
  exact ⟨hset.requests, hset.pending, hset.held, hset.distinct, hset.flagged, hset.drained⟩

lemma ClientInv.register (h : ClientInv client) (hget : client.requests[r]? = some request)
    (hphase : request.phase = .registering) : ClientInv (client.registerRequest r request) := by
  have hold := h.requests request (List.mem_of_getElem? hget)
  have hearly : request.IsEarly := Or.inr (Or.inr hphase)
  -- Nothing holds the sender of a request that has not come to the table.
  have hnot : ∀ key, ¬ client.Unsent r key := by
    rintro key ⟨other, hother, hlate, -⟩
    obtain rfl := Option.some.inj (hget.symm.trans hother)
    exact hlate hearly
  have hset := h.move hget (by simp [hphase]) .rechecking
    fun he => by simp [Request.IsEarly] at he
  obtain ⟨hlt, -⟩ := List.getElem?_eq_some_iff.mp hget
  unfold LspClient.registerRequest
  split
  · exact h.finish hget (by simp [hphase]) _
  · refine ⟨hset.requests, fun key entry hentry => ?_, hset.held, hset.distinct, hset.flagged,
      fun hdrained key entry hentry other hother => ?_⟩
    · rw [ExtTreeMap.getElem?_insert] at hentry
      split at hentry
      next heq =>
        obtain rfl := Option.some.inj hentry
        obtain rfl : request.idKey = key := compare_eq_iff_eq.mp heq
        refine ⟨⟨{ request with phase := .rechecking }, by simp [LspClient.setRequest, hlt],
          by simp [Request.IsEarly], (hold.early hearly).1, rfl⟩, fun response hresponse heq => ?_⟩
        obtain ⟨key, -, hunsent⟩ := h.held response hresponse
        rw [show response.sender = r from heq] at hunsent
        exact hnot key hunsent
      next => exact hset.pending key entry hentry
    · rw [ExtTreeMap.getElem?_insert] at hentry
      split at hentry
      next =>
        obtain rfl := Option.some.inj hentry
        obtain rfl : { request with phase := .rechecking } = other := by
          simpa [LspClient.setRequest, hlt] using hother
        exact (hold.early hearly).2
      next => exact hset.drained hdrained key entry hentry other hother

lemma ClientInv.recheck (h : ClientInv client) (hget : client.requests[r]? = some request)
    (hphase : request.phase = .rechecking) : ClientInv (client.setRequest r (client.recheckRequest request)) := by
  unfold LspClient.recheckRequest
  split
  · exact h.move hget (by simp [hphase]) _ fun he => by simp [Request.IsEarly] at he
  next hopen =>
    have hold := h.requests request (List.mem_of_getElem? hget)
    have hinv : RequestInv { request with phase := .writing, passed := true } := {
      deliveries_le := hold.deliveries_le
      results_le := hold.results_le
      results_nil := fun _ => hold.results_nil (by simp [hphase])
      early := fun he => by simp [Request.IsEarly] at he
      routed := hold.routed }
    exact h.set hget ⟨fun _ => rfl, fun _ he => by simp [Request.IsEarly] at he, rfl⟩ hinv
      fun hclosed => absurd hclosed hopen

lemma LspClient.checkRequest_cases (client : LspClient V) (request : Request V) (cancelled : Bool) :
    (∃ result, client.checkRequest request cancelled = request.finish result) ∨
      client.checkRequest request cancelled = { request with phase := .numbering } := by
  unfold checkRequest
  split
  · exact Or.inl ⟨_, rfl⟩
  split
  · exact Or.inl ⟨_, rfl⟩
  split
  · exact Or.inl ⟨_, rfl⟩
  · exact Or.inr rfl

lemma LspClient.frameRequest_cases (client : LspClient V) (request : Request V) (encoded : Except String ℕ) :
    (∃ error, client.frameRequest request encoded = { request with phase := .leaving error }) ∨
      client.frameRequest request encoded = { request with phase := .framed } := by
  unfold frameRequest
  split
  · exact Or.inl ⟨_, rfl⟩
  split
  · exact Or.inl ⟨_, rfl⟩
  split
  · exact Or.inl ⟨_, rfl⟩
  · exact Or.inr rfl

lemma LspClient.writeRequest_cases (client : LspClient V) (request : Request V) (failure : Option String) :
    (∃ error, client.writeRequest request failure = { request with phase := .leaving error }) ∨
      client.writeRequest request failure = { request with phase := .awaiting } := by
  unfold writeRequest
  split
  · exact Or.inl ⟨_, rfl⟩
  split
  · exact Or.inl ⟨_, rfl⟩
  · exact Or.inr rfl

lemma ClientInv.withdraw (h : ClientInv client) (hget : client.requests[r]? = some request)
    {cancelled : Bool} (hphase : request.phase = .withdrawing cancelled) :
    ClientInv (client.withdrawRequest r request cancelled) := by
  unfold LspClient.withdrawRequest
  split
  · have hmove := h.move hget (by simp [hphase]) (.notifying cancelled)
      fun he => by simp [Request.IsEarly] at he
    exact hmove.erase request.idKey
  · exact h.finish hget (by simp [hphase]) _

lemma ClientInv.receive (h : ClientInv client) (hget : client.requests[r]? = some request)
    (hphase : request.phase = .awaiting) : ClientInv (client.receiveResult r request) := by
  unfold LspClient.receiveResult
  split
  · exact h.finish hget (by simp [hphase]) _
  split
  · exact h.finish hget (by simp [hphase]) _
  · exact h

lemma ClientInv.stepRequest (h : ClientInv client) (hget : client.requests[r]? = some request)
    (step : RequestStep) : ClientInv (client.stepRequest r request step) := by
  unfold LspClient.stepRequest
  split
  case h_1 cancelled hphase =>
    rcases client.checkRequest_cases request cancelled with ⟨result, heq⟩ | heq
    · rw [heq]
      exact h.finish hget (by simp [hphase]) _
    · rw [heq]
      exact h.move hget (by simp [hphase]) _ fun _ => Or.inl hphase
  case h_2 hphase => exact h.number hget hphase _ _
  case h_3 hphase => exact h.register hget hphase
  case h_4 hphase => exact h.recheck hget hphase
  case h_5 encoded hphase =>
    rcases client.frameRequest_cases request encoded with ⟨error, heq⟩ | heq
    · rw [heq]
      exact h.move hget (by simp [hphase]) _ fun he => by simp [Request.IsEarly] at he
    · rw [heq]
      exact h.move hget (by simp [hphase]) _ fun he => by simp [Request.IsEarly] at he
  case h_6 failure hphase =>
    rcases client.writeRequest_cases request failure with ⟨error, heq⟩ | heq
    · rw [heq]
      exact h.move hget (by simp [hphase]) _ fun he => by simp [Request.IsEarly] at he
    · rw [heq]
      exact h.move hget (by simp [hphase]) _ fun he => by simp [Request.IsEarly] at he
  case h_7 error hphase => exact (h.finish hget (by simp [hphase]) _).erase request.idKey
  case h_8 hphase => exact h.receive hget hphase
  case h_9 cancelled hphase =>
    split
    · exact h
    · exact h.move hget (by simp [hphase]) _ fun he => by simp [Request.IsEarly] at he
  case h_10 cancelled hphase => exact h.withdraw hget hphase
  case h_11 cancelled hphase => exact h.finish hget (by simp [hphase]) _
  case h_12 =>
    have hold := h.requests request (List.mem_of_getElem? hget)
    have hinv : RequestInv { request with phase := .returned } := {
      deliveries_le := hold.deliveries_le
      results_le := hold.results_le
      results_nil := fun hne => absurd rfl hne
      early := fun he => by simp [Request.IsEarly] at he
      routed := hold.routed }
    exact h.set hget ⟨fun _ => rfl, fun _ he => by simp [Request.IsEarly] at he, rfl⟩ hinv
      fun _ => rfl
  case h_13 => exact h

/-! ## Responses and closing -/

lemma ClientInv.takeResponse (h : ClientInv client) (null : V) (response : Response V) :
    ClientInv (client.takeResponse null response) := by
  unfold LspClient.takeResponse
  split
  · exact ⟨h.requests, h.pending, h.held, h.distinct, h.flagged, h.drained⟩
  next key hkey =>
    split
    · exact h
    next entry hentry =>
      obtain ⟨hunsent, hnotHeld⟩ := h.pending key entry hentry
      have herase := h.erase key
      refine ⟨h.requests, fun k other hother => ⟨(herase.pending k other hother).1, ?_⟩, ?_, ?_,
        h.flagged, herase.drained⟩
      · intro response hresponse
        rcases List.mem_append.mp hresponse with hmem | hmem
        · exact (herase.pending k other hother).2 response hmem
        · -- The entry that was taken and the one that is left have different keys.
          obtain rfl := List.mem_singleton.mp hmem
          rintro (hsame : entry.sender = other.sender)
          obtain ⟨request, hget, -, -, hidKey⟩ := hunsent
          obtain ⟨request', hget', -, -, hidKey'⟩ := (herase.pending k other hother).1
          obtain rfl := Option.some.inj (hget.symm.trans (hsame ▸ hget'))
          rw [ExtTreeMap.getElem?_erase] at hother
          rw [if_pos (by rw [← hidKey, ← hidKey']; exact Std.ReflCmp.compare_self)] at hother
          exact absurd hother (by simp)
      · intro response' hresponse
        rcases List.mem_append.mp hresponse with hmem | hmem
        · exact h.held response' hmem
        · obtain rfl := List.mem_singleton.mp hmem
          exact ⟨key, hkey, hunsent⟩
      · rw [List.map_append, List.nodup_append]
        refine ⟨h.distinct, List.nodup_singleton _, ?_⟩
        intro sender hsender other hother
        obtain ⟨response', hmem, rfl⟩ := List.mem_map.mp hsender
        rw [List.mem_singleton.mp hother]
        exact hnotHeld response' hmem

lemma LspClient.Unsent.sendTo_of_ne {q : ℕ} {key : String} (h : client.Unsent q key) (hne : q ≠ r)
    (delivery : Delivery V) :
    ({ client with requests := sendTo client.requests r delivery } : LspClient V).Unsent q key := by
  obtain ⟨other, hother, hrest⟩ := h
  exact ⟨other, by simpa [sendTo, List.getElem?_modify, hne.symm] using hother, hrest⟩

lemma ClientInv.send (h : ClientInv client) {key : String} (hunsent : client.Unsent r key)
    (hpending : ∀ (k : String) (entry : PendingRequest), client.pending[k]? = some entry → entry.sender ≠ r)
    (hheld : ∀ response ∈ client.held, response.sender ≠ r) {delivery : Delivery V}
    (hroute : ∀ id, delivery.source = .response id → rpcIdKey id = some key) :
    ClientInv { client with requests := sendTo client.requests r delivery } := by
  obtain ⟨request, hget, hlate, hnone, hkey⟩ := hunsent
  obtain ⟨hlt, hrequest⟩ := List.getElem?_eq_some_iff.mp hget
  have hold := h.requests request (List.mem_of_getElem? hget)
  have hsame : sendTo client.requests r delivery = client.requests.set r (request.deliver delivery) := by
    rw [sendTo, List.modify_eq_set_getElem?, hget]
    rfl
  have hinv : RequestInv (request.deliver delivery) := by
    unfold Request.deliver
    split
    · exact hold
    next hphase =>
      exact {
        deliveries_le := by simp [hnone]
        results_le := hold.results_le
        results_nil := hold.results_nil
        early := fun he => absurd he hlate
        routed := by
          intro sent hsent id hid
          rw [hnone, List.nil_append, List.mem_singleton] at hsent
          subst hsent
          exact (hroute id hid).trans (congrArg some hkey.symm) }
  have hpassed : (request.deliver delivery).passed = request.passed := by
    unfold Request.deliver
    split <;> rfl
  refine ⟨fun other hother => ?_, fun k entry hentry => ?_, fun response hresponse => ?_, h.distinct,
    h.flagged, fun hdrained k entry hentry other hother => ?_⟩
  · rw [hsame] at hother
    rcases List.mem_or_eq_of_mem_set hother with hmem | rfl
    · exact h.requests other hmem
    · exact hinv
  · exact ⟨(h.pending k entry hentry).1.sendTo_of_ne (hpending k entry hentry) delivery, (h.pending k entry hentry).2⟩
  · obtain ⟨k, hk, hother⟩ := h.held response hresponse
    exact ⟨k, hk, hother.sendTo_of_ne (hheld response hresponse) delivery⟩
  · rw [hsame, List.getElem?_set_ne (hpending k entry hentry).symm] at hother
    exact h.drained hdrained k entry hentry other hother

lemma ClientInv.sendHeld (h : ClientInv client) (i : ℕ) : ClientInv (client.sendHeld i) := by
  unfold LspClient.sendHeld
  split
  · exact h
  next response hget =>
    have hmem := List.mem_of_getElem? hget
    obtain ⟨hlt, rfl⟩ := List.getElem?_eq_some_iff.mp hget
    obtain ⟨key, hkey, hunsent⟩ := h.held _ hmem
    have hsub : ∀ other ∈ client.held.eraseIdx i, other ∈ client.held :=
      fun other hother => List.mem_of_mem_eraseIdx hother
    have hrest : ClientInv { client with held := client.held.eraseIdx i } := {
      requests := h.requests
      pending := fun k entry hentry => ⟨(h.pending k entry hentry).1,
        fun other hother => (h.pending k entry hentry).2 other (hsub other hother)⟩
      held := fun other hother => h.held other (hsub other hother)
      distinct := h.distinct.sublist ((List.eraseIdx_sublist _ _).map _)
      flagged := h.flagged
      drained := h.drained }
    refine hrest.send (r := client.held[i].sender) hunsent
      (fun k entry hentry => ((h.pending k entry hentry).2 _ hmem).symm) ?_ ?_
    · -- The senders of held responses are distinct.
      intro other hother hsame
      obtain ⟨j, hj, hne, rfl⟩ := List.mem_eraseIdx_iff_getElem.mp hother
      have hbound : ∀ n < client.held.length, n < (client.held.map HeldResponse.sender).length :=
        fun n hn => by rwa [List.length_map]
      have heq : j = i := by
        refine (@List.Nodup.getElem_inj_iff _ _ h.distinct j (hbound j hj) i (hbound i hlt)).mp ?_
        simpa using hsame
      exact hne heq
    · intro id hid
      rw [← Source.response.inj hid]
      exact hkey

lemma ClientInv.sendAll (reason : String) (entries : List PendingRequest) (h : ClientInv client)
    (hempty : client.pending = ∅) (hnodup : (entries.map PendingRequest.sender).Nodup)
    (hentries : ∀ entry ∈ entries, (∃ key, client.Unsent entry.sender key) ∧
      ∀ response ∈ client.held, response.sender ≠ entry.sender) : ClientInv { client with
      requests := entries.foldl
        (fun requests entry => sendTo requests entry.sender (closedDelivery reason entry))
        client.requests } := by
  induction entries generalizing client with
  | nil => exact h
  | cons entry entries ih =>
    obtain ⟨hnotMem, hnodup⟩ := List.nodup_cons.mp hnodup
    obtain ⟨⟨key, hunsent⟩, hheld⟩ := hentries entry List.mem_cons_self
    have hsource : ∀ id, (closedDelivery reason entry : Delivery V).source = .response id →
        rpcIdKey id = some key := fun id hid => by simp [closedDelivery] at hid
    have hsend := h.send hunsent (by simp [hempty]) hheld hsource
    refine ih hsend hempty hnodup fun other hother => ?_
    obtain ⟨⟨key', hother'⟩, hheld'⟩ := hentries other (List.mem_cons_of_mem _ hother)
    have hne : other.sender ≠ entry.sender := fun heq => hnotMem (heq ▸ List.mem_map_of_mem hother)
    exact ⟨⟨key', hother'.sendTo_of_ne hne _⟩, hheld'⟩

lemma ClientInv.drain (h : ClientInv client) (reason : String) : ClientInv (client.drain reason) := by
  have hclear : ClientInv { client with pending := (∅ : ExtTreeMap String PendingRequest) } := {
    requests := h.requests
    pending := by simp
    held := h.held
    distinct := h.distinct
    flagged := h.flagged
    drained := by simp }
  refine hclear.sendAll reason _ rfl ?_ fun entry hentry => ?_
  · -- Entries of one request would have one key.
    rw [List.map_map, List.nodup_iff_pairwise_ne, List.pairwise_map]
    refine ExtTreeMap.distinct_keys_toList.imp_of_mem ?_
    rintro ⟨k, entry⟩ ⟨k', entry'⟩ hmem hmem' hkeys (hsame : entry.sender = entry'.sender)
    obtain ⟨request, hget, -, -, hkey⟩ :=
      (h.pending k entry (ExtTreeMap.mem_toList_iff_getElem?_eq_some.mp hmem)).1
    obtain ⟨request', hget', -, -, hkey'⟩ :=
      (h.pending k' entry' (ExtTreeMap.mem_toList_iff_getElem?_eq_some.mp hmem')).1
    obtain rfl := Option.some.inj (hget.symm.trans (hsame ▸ hget'))
    exact hkeys (by rw [← hkey, ← hkey']; exact Std.ReflCmp.compare_self)
  · obtain ⟨⟨k, entry⟩, hmem, rfl⟩ := List.mem_map.mp hentry
    have hpending := h.pending k entry (ExtTreeMap.mem_toList_iff_getElem?_eq_some.mp hmem)
    exact ⟨⟨k, hpending.1⟩, hpending.2⟩

lemma ClientInv.stepClosing (h : ClientInv client) (c : ℕ) : ClientInv (client.stepClosing c) := by
  unfold LspClient.stepClosing
  split
  · exact h
  next closing hget =>
    have hmem := List.mem_of_getElem? hget
    -- A call that has not set the flag yet, and one that has, move on.
    have hmove : ∀ {client' : LspClient V} (phase : ClosingPhase), ClientInv client' →
        client'.closings = client.closings → (phase ≠ .called → client'.closed = true) →
        ((phase = .drained ∨ phase = .finished) → client'.Drained ∨ client'.pending = ∅) →
        ClientInv { client' with closings := client'.closings.set c { closing with phase } } := by
      intro client' phase hinv hsame hclosed hdrained
      refine ⟨hinv.requests, hinv.pending, hinv.held, hinv.distinct, fun other hother hphase => ?_,
        fun hnow key entry hentry => ?_⟩
      · rcases List.mem_or_eq_of_mem_set hother with hold | rfl
        · exact hinv.flagged other hold hphase
        · exact hclosed hphase
      · obtain ⟨other, hother, hphase⟩ := hnow
        have hcases : client'.Drained ∨ client'.pending = ∅ := by
          rcases List.mem_or_eq_of_mem_set hother with hold | rfl
          · exact Or.inl ⟨other, hold, hphase⟩
          · exact hdrained hphase
        rcases hcases with hbefore | hempty
        · exact hinv.drained hbefore key entry hentry
        · simp [hempty] at hentry
    split
    next hphase =>
      split
      next hclosed => exact hmove _ h rfl (fun _ => hclosed) (by simp)
      next hopen =>
        have hset : ClientInv { client with closed := true } :=
          ⟨h.requests, h.pending, h.held, h.distinct, fun _ _ _ => rfl, h.drained⟩
        exact hmove _ hset rfl (fun _ => rfl) (by simp)
    next hphase =>
      have hclosed := h.flagged closing hmem (by simp [hphase])
      have hset : ClientInv { client with writerOpen := false } :=
        ⟨h.requests, h.pending, h.held, h.distinct, h.flagged, h.drained⟩
      exact hmove _ hset rfl (fun _ => hclosed) (by simp)
    next hphase =>
      have hclosed := h.flagged closing hmem (by simp [hphase])
      exact hmove _ (h.drain closing.reason) rfl (fun _ => hclosed) fun _ => Or.inr rfl
    next hphase =>
      have hclosed := h.flagged closing hmem (by simp [hphase])
      exact hmove _ h rfl (fun _ => hclosed) fun _ => Or.inl ⟨closing, hmem, Or.inl hphase⟩
    all_goals exact h

lemma ClientInv.addRequest (h : ClientInv client) (method : String) (timeoutMs : ℕ) (cancellable : Bool) :
    ClientInv { client with
      requests := client.requests ++ [{ method, timeoutMs, cancellable }] } := by
  have hunsent : ∀ {q : ℕ} {key : String}, client.Unsent q key →
      ({ client with requests := client.requests ++ [{ method, timeoutMs, cancellable }] } :
        LspClient V).Unsent q key := by
    rintro q key ⟨other, hother, hrest⟩
    obtain ⟨hlt, -⟩ := List.getElem?_eq_some_iff.mp hother
    exact ⟨other, by simpa [List.getElem?_append_left hlt] using hother, hrest⟩
  refine ⟨fun other hother => ?_, fun key entry hentry => ?_, fun response hresponse => ?_,
    h.distinct, h.flagged, fun hdrained key entry hentry other hother => ?_⟩
  · rcases List.mem_append.mp hother with hmem | hmem
    · exact h.requests other hmem
    · obtain rfl := List.mem_singleton.mp hmem
      exact ⟨by simp, by simp, fun _ => rfl, fun _ => ⟨rfl, rfl⟩, by simp⟩
  · exact ⟨hunsent (h.pending key entry hentry).1, (h.pending key entry hentry).2⟩
  · obtain ⟨key, hkey, hother⟩ := h.held response hresponse
    exact ⟨key, hkey, hunsent hother⟩
  · obtain ⟨⟨request, hget, -⟩, -⟩ := h.pending key entry hentry
    obtain ⟨hlt, -⟩ := List.getElem?_eq_some_iff.mp hget
    rw [List.getElem?_append_left hlt] at hother
    exact h.drained hdrained key entry hentry other hother

lemma ClientInv.step (h : ClientInv client) (step : ClientStep V) : ClientInv (client.step step) := by
  cases step with
  | request method timeoutMs cancellable => exact h.addRequest method _ cancellable
  | act r step =>
    simp only [LspClient.step]
    split
    · exact h
    next request hget => exact h.stepRequest hget step
  | takeResponse null response => exact h.takeResponse null response
  | sendHeld i => exact h.sendHeld i
  | markClosed reason =>
    refine ⟨h.requests, h.pending, h.held, h.distinct, fun closing hmem hphase => ?_,
      fun hdrained => ?_⟩
    · rcases List.mem_append.mp hmem with hold | hnew
      · exact h.flagged closing hold hphase
      · obtain rfl := List.mem_singleton.mp hnew
        exact absurd rfl hphase
    · obtain ⟨closing, hmem, hphase⟩ := hdrained
      rcases List.mem_append.mp hmem with hold | hnew
      · exact h.drained ⟨closing, hold, hphase⟩
      · obtain rfl := List.mem_singleton.mp hnew
        simp at hphase
  | close c => exact h.stepClosing c

lemma ClientInv.run (h : ClientInv client) (steps : List (ClientStep V)) : ClientInv (client.run steps) :=
  Runs.invariant (fun _ step ht => ht.step step) h

/-! ## The result -/

/-- In every state that a client reaches each request has received at most one value and returned
one result; a response reached only the request with its id; and after `mark_closed` no request past
its second look is pending. -/
theorem requests_not_stranded_or_misrouted (maxFrameBytes : ℕ) (steps : List (ClientStep V)) :
    let client : LspClient V := LspClient.run { maxFrameBytes } steps
    (∀ request ∈ client.requests, request.deliveries.length ≤ 1 ∧ request.results.length ≤ 1 ∧
        ∀ delivery ∈ request.deliveries, ∀ id, delivery.source = .response id → id = .number (.posInt request.id)) ∧
      ((∃ closing ∈ client.closings, closing.phase = .finished) →
        ∀ (key : String) (entry : PendingRequest), client.pending[key]? = some entry →
          ∀ request, client.requests[entry.sender]? = some request → request.passed = false) := by
  intro client
  have hinv : ClientInv client := (clientInv_init maxFrameBytes).run steps
  refine ⟨fun request hmem => ?_, fun hfinished => ?_⟩
  · have hrequest := hinv.requests request hmem
    exact ⟨hrequest.deliveries_le, hrequest.results_le, fun delivery hdelivery id hid =>
      eq_of_rpcIdKey_eq (hrequest.routed delivery hdelivery id hid)⟩
  · obtain ⟨closing, hmem, hphase⟩ := hfinished
    exact hinv.drained ⟨closing, hmem, Or.inr hphase⟩

end AgzRustMcp.Lsp
