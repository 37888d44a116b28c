import AgzRustMcp.Work.Conduct

/-!
# The four actions keep to the protocol

`start` owns the session it inserts until it writes it back; when
`resume` releases its stripe, the session is closed for the token it consumed.  `workPool_meets`
says that the pool of any calls keeps to the protocol.
-/

namespace AgzRustMcp

open Tasks

section Calls

variable {service : WorkService} {calls : List WorkCall} {guard : WorkGuard} {i m n : ℕ}
  {id : String} {P R : WorkWorld → Prop} {w : WorkWorld} {record : WorkRecord}

variable {read : WorkRecord} {input : WorkInput} {call : WorkCall} {token changeId : String}
  {Q : WorkOutcome → WorkWorld → Prop} {label : WorkLabel}

lemma Driven.lawful_commit (hw : Drives service calls i id m w)
    (h : Driven service w id m record) (hid : read.id = id) (hread : read.state.isTerminal = false) :
    Lawful service calls i w (.commit read record) := by
  refine ⟨h.id_eq.trans hid.symm, fun hterminal => ?_, h.sound, fun hneeds => ?_⟩
  · rw [hread] at hterminal
    simp at hterminal
  · obtain ⟨n, hn, htoken⟩ := h.token hneeds
    rw [h.id_eq]
    exact ⟨hw.owns, n, htoken, fun j m' hj => (hw.admitted_le j m' hj).trans hn⟩

lemma meets_finalizeWork {Q : WorkRecord → WorkWorld → Prop}
    (h : Settled service calls i P) (hdrives : ∀ w, P w → Drives service calls i id m w)
    (hw : P w) (hdriven : Driven service w id m record) (hid : read.id = id)
    (hread : read.state.isTerminal = false) (h' : Settled service calls i R)
    (hnext : ∀ w e final, P w → Driven service w id m final → R ((WorkLabel.commit read final).next i w e))
    (hQ : ∀ final w, R w → Sound w final → Q final w) :
    (finalizeWork read record).Meets (WorkMove service calls guard) guard i Q w := by
  have hlasting : Lasting fun w => Driven service w id m record := lasting_driven
  refine Task.Meets.bind ((h.and hlasting).look ⟨hw, hdriven⟩ (fun _ _ => rfl) trivial
    (fun _ _ => trivial) fun e w₀ w _ hw => ?_)
  have hwrite : ∀ final, Driven service w id m final →
      (commitWork read final >>= fun _ => pure final).Meets (WorkMove service calls guard) guard i
        Q w := by
    intro final hdriven
    have hlasting' : Lasting fun w => Driven service w id m final := lasting_driven
    refine Task.Meets.bind ((h.and hlasting').commit ⟨hw.1, hdriven⟩
      (fun w hw => hw.2.lawful_commit (hdrives w hw.1) hid hread) (h'.and hlasting')
      (fun w e hw => ⟨hnext w e final hw.1 hw.2, lasting_driven _ _ _ _ hw.2⟩) fun w hw => ?_)
    exact (h'.and hlasting').done hw fun w hw => hQ final w hw.1 hw.2.sound
  refine hwrite _ ?_
  split_ifs
  · exact hw.2.sound.cancel hw.2.id_eq _
  · exact hw.2

/-! ## `start` -/

lemma settled_unstarted :
    Settled service calls i fun w => WorkInv service calls w ∧ ∀ record, ¬ Did w i (.insert record) where
  inv _ hw := hw.1
  others j hj w label input hlawful hw := by
    refine ⟨hw.1.next hlawful, fun record hdid => ?_⟩
    rcases did_next.mp hdid with hold | ⟨hij, -⟩
    · exact hw.2 record hold
    · exact hj hij.symm
  quiet w label input hquiet hlawful hw := by
    refine ⟨hw.1.next hlawful, fun record hdid => ?_⟩
    rcases did_next.mp hdid with hold | ⟨-, rfl⟩
    · exact hw.2 record hold
    · exact hquiet

lemma drives_inserted (hinv : WorkInv service calls w) (hlawful : Lawful service calls i w (.insert record)) :
    Drives service calls i record.id 0 ((WorkLabel.insert record).next i w input) := by
  have hfirst : ¬ HandedOff ((WorkLabel.insert record).next i w input) record.id := by
    rintro ⟨k, read, copy, hdid, hid, hstate⟩
    rcases did_next.mp hdid with hold | ⟨-, heq⟩
    · obtain ⟨j, hj⟩ := hinv.handedOff record.id ⟨k, read, copy, hold, hid, hstate⟩
      obtain ⟨now, n, hreserved, heq⟩ := hinv.inserted j record.id hj
      obtain ⟨now', n', hreserved', heq'⟩ := hlawful.1
      obtain rfl := nextWorkId_inj (heq.symm.trans heq')
      obtain rfl := hinv.reserved_unique j i n hreserved hreserved'
      obtain ⟨other, hother, -⟩ := hj
      exact hlawful.2.1 other hother
    · simp at heq
  have hinv' : WorkInv service calls ((WorkLabel.insert record).next i w input) :=
    hinv.next hlawful
  have hinserted : Inserted ((WorkLabel.insert record).next i w input) i record.id :=
    ⟨record, did_next.mpr (Or.inr ⟨rfl, rfl⟩), rfl⟩
  exact ⟨hinv', Nat.zero_le _, fun j m' hj => absurd (hinv'.admitted j _ m' hj) hfirst,
    Or.inl ⟨hinserted, hfirst⟩, Or.inl hinserted⟩

lemma not_presents_of_start (hcall : calls[i]? = some call)
    (haction : call.request.action = .start) : ¬ Presents calls i id token := by
  rintro ⟨other, hother, hresume, -⟩
  obtain rfl := Option.some.inj (hcall.symm.trans hother)
  rw [haction] at hresume
  simp at hresume

lemma lawful_inspect_of_start (hcall : calls[i]? = some call) (haction : call.request.action = .start) :
    Lawful service calls i w (.call (inspectRequest changeId)) :=
  ⟨fun hstage => by simp [inspectRequest] at hstage, fun _ _ _ _ hpresents =>
    absurd hpresents (not_presents_of_start hcall haction)⟩

lemma Drives.next_inspect (h : Drives service calls i id m w) (hcall : calls[i]? = some call)
    (haction : call.request.action = .start) :
    Drives service calls i id m ((WorkLabel.call (inspectRequest changeId)).next i w input) := by
  refine ⟨h.inv.next (lawful_inspect_of_start hcall haction), h.le_sequence, fun j m' hj => ?_, ?_, h.joined.next⟩
  · rcases admitted_next.mp hj with hold | ⟨rfl, -, -, token, hpresents⟩
    · exact h.admitted_le j m' hold
    · exact absurd hpresents (not_presents_of_start hcall haction)
  · rcases h.owns with ⟨hinserted, hfirst⟩ | ⟨hheld, hhanded⟩
    · refine Or.inl ⟨hinserted.next, ?_⟩
      rintro ⟨k, read, copy, hdid, hid, hstate⟩
      rcases did_next.mp hdid with hold | ⟨-, heq⟩
      · exact hfirst ⟨k, read, copy, hold, hid, hstate⟩
      · simp at heq
    · exact Or.inr ⟨hheld, hhanded.next⟩

lemma Sound.adoptChange (h : Sound w record) (hstate : record.state = .collecting)
    (changeId : String) (inspected : ChangeOutcome) :
    Sound w (adoptChange record changeId inspected).1 ∧ (adoptChange record changeId inspected).1.id = record.id ∧
      (adoptChange record changeId inspected).1.state ≠ .ready ∧
      (adoptChange record changeId inspected).1.state ≠ .needsModel := by
  unfold AgzRustMcp.adoptChange
  split_ifs
  · refine ⟨h.copy rfl rfl rfl rfl rfl rfl ?_, rfl, ?_, ?_⟩ <;> simp [hstate]
  · refine ⟨h.copy rfl rfl rfl rfl rfl rfl ?_, rfl, ?_, ?_⟩ <;> simp [WorkRecord.fail]
  · refine ⟨h.copy rfl rfl rfl rfl rfl rfl ?_, rfl, ?_, ?_⟩ <;> simp [WorkRecord.fail]

lemma Sound.bindCreated (h : Sound w record) (hstate : record.state = .collecting) (created : ChangeOutcome) :
    Sound w (bindCreated record created) ∧ (bindCreated record created).id = record.id ∧
      (bindCreated record created).state ≠ .ready ∧ (bindCreated record created).state ≠ .needsModel := by
  unfold AgzRustMcp.bindCreated
  dsimp only
  split_ifs
  · refine ⟨h.copy rfl rfl rfl rfl rfl rfl ?_, rfl, ?_, ?_⟩ <;>
      simp [WorkRecord.extendWarnings, hstate]
  · refine ⟨h.copy rfl rfl rfl rfl rfl rfl ?_, rfl, ?_, ?_⟩ <;> simp [WorkRecord.block]
  · refine ⟨h.copy rfl rfl rfl rfl rfl rfl ?_, rfl, ?_, ?_⟩ <;> simp [WorkRecord.cancel]
  · refine ⟨h.copy rfl rfl rfl rfl rfl rfl ?_, rfl, ?_, ?_⟩ <;> simp [WorkRecord.fail]

lemma meets_collectChange {changeId : Option String}
    {Q : WorkRecord × Option ChangeData → WorkWorld → Prop} (hcall : calls[i]? = some call)
    (haction : call.request.action = .start) (hw : Drives service calls i id m w)
    (hsound : Sound w record) (hid : record.id = id)
    (hQ : ∀ bound w, Drives service calls i id m w → Sound w bound.1 → bound.1.id = id →
      bound.1.state ≠ .ready → bound.1.state ≠ .needsModel → Q bound w) :
    (collectChange record changeId).Meets (WorkMove service calls guard) guard i Q w := by
  have hdrives : Settled service calls i (Drives service calls i id m) := settled_drives
  have hlasting : Lasting fun w => Sound w record := lasting_sound
  have hset := hdrives.and hlasting
  refine Task.Meets.bind (hset.setState ⟨hw, hsound⟩ (by simp [WorkState.isTerminal])
    fun w hw => ?_)
  have hcollecting : ∀ w, Sound w record → Sound w { record with state := .collecting } :=
    fun w h => h.copy rfl rfl rfl rfl rfl rfl (by simp)
  cases changeId with
  | some changeId =>
    refine Task.Meets.bind (hset.execute_of hw
      (fun w hw => lawful_inspect_of_start hcall haction) hset
      (fun w e hw => ⟨hw.1.next_inspect hcall haction, hw.2.next⟩) fun inspected w hw _ => ?_)
    refine hset.done hw fun w hw => ?_
    obtain ⟨hsound, hbound, hready, hneeds⟩ :=
      (hcollecting w hw.2).adoptChange rfl changeId inspected
    exact hQ _ w hw.1 hsound (hbound.trans hid) hready hneeds
  | none =>
    refine Task.Meets.bind (hset.execute hw (by simp [createRequest])
      (fun _ _ haction => by simp [createRequest] at haction) fun created w hw _ => ?_)
    refine hset.done hw fun w hw => ?_
    obtain ⟨hsound, hbound, hready, hneeds⟩ := (hcollecting w hw.2).bindCreated rfl created
    exact hQ _ w hw.1 hsound (hbound.trans hid) hready hneeds

lemma meets_startSession {intent : WorkIntent} (hcall : calls[i]? = some call)
    (haction : call.request.action = .start) (hintent : call.request.intent = some intent)
    (hvalid : validateIntent intent = .ok ()) (hw : WorkInv service calls w ∧ ∀ record, ¬ Did w i (.insert record))
    (hQ : ∀ outcome w, WorkInv service calls w → Reports w outcome → Q outcome w) :
    (startSession service call.request call.workspace intent).Meets (WorkMove service calls guard) guard i Q w := by
  refine Task.Meets.bind (settled_unstarted.step hw (fun _ _ => rfl) (fun _ _ _ => trivial)
    fun e w₀ hw₀ _ => ?_)
  generalize hn : w₀.state.sequence = n
  have hreserved : Reserved (WorkLabel.fetchSequence.next i w₀ e) i n :=
    reserved_next.mpr (Or.inr ⟨rfl, rfl, hn.symm⟩)
  have hlasting : Lasting fun w => Reserved w i n := fun _ _ _ _ h => h.next
  have hset : Settled service calls i _ := settled_unstarted.and hlasting
  refine hset.done ⟨settled_unstarted.quiet w₀ .fetchSequence e trivial trivial hw₀, hreserved⟩
    fun w hw => ?_
  refine Task.Meets.bind (hset.clock hw fun now w hw => ?_)
  generalize hrecord : WorkRecord.initial (nextWorkId service.processId now n) now call.workspace
    intent call.request.budget = record
  have hlawful : ∀ w, (WorkInv service calls w ∧ ∀ record, ¬ Did w i (.insert record)) ∧
      Reserved w i n → Lawful service calls i w (.insert record) := by
    intro w hw
    subst hrecord
    exact ⟨⟨now, n, hw.2, rfl⟩, hw.1.2, rfl, rfl, rfl, rfl, call, hcall, haction, hintent, rfl, hvalid⟩
  refine Task.Meets.bind (hset.step hw (fun _ _ => rfl) (fun w hw _ => hlawful w hw)
    fun e w₁ hw₁ _ => ?_)
  have hdrives : Settled service calls i (Drives service calls i record.id 0) := settled_drives
  have hlasting' : Lasting fun w => Sound w record := lasting_sound
  refine (hdrives.and hlasting').done
    ⟨drives_inserted hw₁.1.1 (hlawful w₁ hw₁), sound_inserted (hlawful w₁ hw₁)⟩ fun w hw => ?_
  refine Task.Meets.bind (meets_collectChange hcall haction hw.1 hw.2 rfl
    fun bound w hw hsound hid hready hneeds => ?_)
  obtain ⟨bound, current⟩ := bound
  have hafter : ∀ final w, Drives service calls i record.id 0 w → Driven service w record.id 0 final →
      (finalizeWork record final >>= fun final => outcomeForRecord final .start).Meets
        (WorkMove service calls guard) guard i Q w := by
    intro final w hw hdriven
    refine Task.Meets.bind (meets_finalizeWork hdrives (fun _ h => h) hw hdriven rfl
      (by subst hrecord; rfl) settled_inv
      (fun w e final hw hdriven => hw.inv.next (hdriven.lawful_commit hw rfl
        (by subst hrecord; rfl))) fun final w hw hsound => ?_)
    exact settled_inv.outcomeForRecord hw hsound hQ
  refine Task.Meets.bind ?_
  unfold driveBound
  split
  · have hdriven : Driven service w record.id 0 bound :=
      ⟨hid, hsound, fun hstate => absurd hstate hneeds⟩
    have hlasting'' : Lasting fun w => Driven service w record.id 0 bound := lasting_driven
    exact (hdrives.and hlasting'').done ⟨hw, hdriven⟩ fun w hw => hafter bound w hw.1 hw.2
  · exact meets_drive hw hsound hid hready ⟨call, hcall, rfl, rfl⟩ hafter

lemma meets_start (hcall : calls[i]? = some call) (haction : call.request.action = .start)
    (hw : WorkInv service calls w ∧ ∀ record, ¬ Did w i (.insert record))
    (hQ : ∀ outcome w, WorkInv service calls w → Reports w outcome → Q outcome w) :
    (start service call.request call.workspace).Meets (WorkMove service calls guard) guard i Q
      w := by
  have hset : Settled service calls i fun w => WorkInv service calls w ∧
    ∀ record, ¬ Did w i (.insert record) := settled_unstarted
  have hrefuse : ∀ {status summary reason workId} {w : WorkWorld}, status ≠ "READY" →
      (WorkInv service calls w ∧ ∀ record, ¬ Did w i (.insert record)) →
      (Task.done (workRefuse .start status summary reason workId)).Meets
        (WorkMove service calls guard) guard i Q w :=
    fun hstatus hw => hset.done hw fun w hw => hQ _ w hw.1 (.refused hstatus)
  unfold start
  split
  · exact hrefuse (by decide) hw
  · split
    · exact hrefuse (by decide) hw
    · split
      · exact hrefuse (by decide) hw
      · next intent hintent =>
        split
        · exact hrefuse (by decide) hw
        · exact hrefuse (by decide) hw
        · exact hrefuse (by decide) hw
        · next hvalid hscope _ =>
          refine Task.Meets.bind (hset.look hw (fun _ _ => rfl) trivial (fun _ _ => trivial)
            fun e w₀ w _ hw => ?_)
          split
          · exact hrefuse (by decide) hw
          · refine Task.Meets.bind (hset.poll hw fun cancelled w hw => ?_)
            cases cancelled with
            | true => exact hrefuse (by decide) hw
            | false => exact meets_startSession hcall haction hintent hvalid hw hQ

/-! ## `resume` -/

lemma noteIgnored_eq (request : WorkRequest) (record : WorkRecord) :
    ∃ warnings, noteIgnored request record = { record with warnings } := by
  unfold noteIgnored WorkRecord.pushWarning
  split_ifs
  · exact ⟨record.warnings, rfl⟩
  · exact ⟨_, rfl⟩
  · exact ⟨_, rfl⟩
  · exact ⟨record.warnings, rfl⟩

variable (service calls) in
/-- Call `i` holds the stripe, and once admitted the session is closed for its token. -/
structure Holding (i : ℕ) (id : String) (w : WorkWorld) : Prop where
  inv : WorkInv service calls w
  held : w.state.stripes (stripeOf id) = some i
  closed : ∀ m, Admitted calls w i id m → Closed service w id m

variable (service calls) in
/-- Call `i` holds the stripe and a waiting copy, newer than other admissions. -/
structure Waiting (i : ℕ) (id : String) (record : WorkRecord) (w : WorkWorld) : Prop where
  inv : WorkInv service calls w
  held : w.state.stripes (stripeOf id) = some i
  unadmitted : ∀ m, ¬ Admitted calls w i id m
  handedOff : HandedOff w id
  id_eq : record.id = id
  token : ∃ n, HoldsToken service w record n
  admitted : ∀ j m, Admitted calls w j id m → ∃ n, m ≤ n ∧ HoldsToken service w record n

lemma admitted_next_other {j : ℕ} (hj : j ≠ i)
    (h : Admitted calls (label.next j w input) i id m) : Admitted calls w i id m := by
  rcases admitted_next.mp h with hold | ⟨hij, -⟩
  · exact hold
  · exact absurd hij.symm hj

lemma admitted_next_self (hlabel : ∀ changeId, label ≠ .call (inspectRequest changeId))
    (h : Admitted calls (label.next i w input) i id m) : Admitted calls w i id m := by
  rcases admitted_next.mp h with hold | ⟨-, ⟨changeId, heq⟩, -⟩
  · exact hold
  · exact absurd heq (hlabel changeId)

lemma WorkLabel.Quiet.ne_inspect (h : label.Quiet) (changeId : String) : label ≠ .call (inspectRequest changeId) := by
  rintro rfl
  exact h rfl

lemma settled_holding : Settled service calls i (Holding service calls i id) where
  inv _ hw := hw.inv
  others j hj w label input hlawful hw := by
    refine ⟨hw.inv.next hlawful, held_next_other hj hlawful hw.held, fun m hm => ?_⟩
    have hold := admitted_next_other hj hm
    exact (hw.closed m hold).next hlawful hold
  quiet w label input hquiet hlawful hw := by
    obtain ⟨hlock, hunlock⟩ := hquiet.ne_locks (stripeOf id)
    refine ⟨hw.inv.next hlawful, held_next_self hlock hunlock hw.held, fun m hm => ?_⟩
    have hold := admitted_next_self hquiet.ne_inspect hm
    exact (hw.closed m hold).next hlawful hold

lemma Holding.next_commit (h : Holding service calls i id w)
    (hlawful : Lawful service calls i w (.commit read record)) :
    Holding service calls i id ((WorkLabel.commit read record).next i w input) := by
  refine ⟨h.inv.next hlawful, held_next_self (by simp) (by simp) h.held, fun m hm => ?_⟩
  have hold := admitted_next_self (by simp) hm
  exact (h.closed m hold).next hlawful hold

lemma settled_waiting : Settled service calls i (Waiting service calls i id record) where
  inv _ hw := hw.inv
  others j hj w label input hlawful hw := by
    refine ⟨hw.inv.next hlawful, held_next_other hj hlawful hw.held,
      fun m hm => hw.unadmitted m (admitted_next_other hj hm), hw.handedOff.next, hw.id_eq, ?_,
      fun k m hk => ?_⟩
    · obtain ⟨n, hn⟩ := hw.token
      exact ⟨n, hn.next⟩
    · rcases admitted_next.mp hk with hold | ⟨rfl, ⟨changeId, rfl⟩, -, token, hpresents⟩
      · obtain ⟨n, hn, htoken⟩ := hw.admitted k m hold
        exact ⟨n, hn, htoken.next⟩
      · obtain ⟨hheld, -⟩ := hlawful.2 changeId rfl id token hpresents
        exact absurd (Option.some.inj (hheld.symm.trans hw.held)) hj
  quiet w label input hquiet hlawful hw := by
    obtain ⟨hlock, hunlock⟩ := hquiet.ne_locks (stripeOf id)
    refine ⟨hw.inv.next hlawful, held_next_self hlock hunlock hw.held,
      fun m hm => hw.unadmitted m (admitted_next_self hquiet.ne_inspect hm), hw.handedOff.next,
      hw.id_eq, ?_, fun k m hk => ?_⟩
    · obtain ⟨n, hn⟩ := hw.token
      exact ⟨n, hn.next⟩
    · rcases admitted_next.mp hk with hold | ⟨rfl, ⟨changeId, rfl⟩, -⟩
      · obtain ⟨n, hn, htoken⟩ := hw.admitted k m hold
        exact ⟨n, hn, htoken.next⟩
      · exact absurd rfl hquiet

lemma Presents.unique {id' token' : String} (h : Presents calls i id token)
    (h' : Presents calls i id' token') : id' = id ∧ token' = token := by
  obtain ⟨call, hcall, -, hid, htoken⟩ := h
  obtain ⟨call', hcall', -, hid', htoken'⟩ := h'
  obtain rfl := Option.some.inj (hcall.symm.trans hcall')
  exact ⟨Option.some.inj (hid'.symm.trans hid), Option.some.inj (htoken'.symm.trans htoken)⟩

lemma Waiting.lawful_inspect {stored : HandoffToken}
    (h : Waiting service calls i id record w) (hpresents : Presents calls i id token)
    (hstored : record.token = some stored) (hhash : service.sha token.toUTF8 = stored.tokenHash)
    (hdigested : Digested w token.toUTF8) : Lawful service calls i w (.call (inspectRequest changeId)) := by
  refine ⟨fun hstage => by simp [inspectRequest] at hstage, fun _ _ id' token' hpresents' => ?_⟩
  obtain ⟨rfl, rfl⟩ := hpresents.unique hpresents'
  refine ⟨h.held, h.handedOff, h.unadmitted, fun hfree => ?_⟩
  -- The stored hash is that of the token that was generated for the copy.
  have hmatch : ∀ n, HoldsToken service w record n → TokenNumber service w id' token' n := by
    rintro n ⟨⟨generated, other, hother, hgenerated, hnumber⟩, -⟩
    obtain rfl := Option.some.inj (hother.symm.trans hstored)
    have hbytes : token'.toUTF8 = generated.toUTF8 := by
      obtain ⟨_, _, _, _, _, hdigested'⟩ := hnumber
      exact hfree _ _ hdigested hdigested' (hhash.trans hgenerated)
    obtain rfl := String.toByteArray_inj.mp hbytes
    rwa [h.id_eq] at hnumber
  refine ⟨?_, fun j m hj hpresents => ?_⟩
  · obtain ⟨n, hn⟩ := h.token
    exact ⟨n, hn.2, hmatch n hn⟩
  · obtain ⟨k, hk, hnumber⟩ := h.inv.number hfree j id' m token' hj hpresents
    obtain ⟨n, hn, htoken⟩ := h.admitted j m hj
    have hsame := hnumber.unique hfree (hmatch n htoken)
    omega

lemma Waiting.drives (h : Waiting service calls i id record w) (hpresents : Presents calls i id token)
    (hlawful : Lawful service calls i w (.call (inspectRequest changeId))) :
    Drives service calls i id w.state.sequence ((WorkLabel.call (inspectRequest changeId)).next i w input) := by
  refine ⟨h.inv.next hlawful, le_rfl, fun j m hj => ?_,
    Or.inr ⟨h.held, h.handedOff.next⟩, Or.inr ⟨w.state.sequence, ?_⟩⟩
  · rcases admitted_next.mp hj with ⟨⟨entry, hentry, -, -, rfl⟩, -⟩ | ⟨-, -, rfl, -⟩
    · exact h.inv.sequence_le entry hentry
    · exact le_rfl
  · exact admitted_next.mpr (Or.inr ⟨rfl, ⟨changeId, rfl⟩, rfl, token, hpresents⟩)

lemma Drives.held (h : Drives service calls i id m w)
    (hpresents : Presents calls i id token) : w.state.stripes (stripeOf id) = some i := by
  rcases h.owns with ⟨⟨first, hdid, -⟩, -⟩ | ⟨hheld, -⟩
  · obtain ⟨call, hcall, haction, -⟩ := h.inv.started i first hdid
    exact absurd hpresents (not_presents_of_start hcall haction)
  · exact hheld

lemma Drives.holding_commit (h : Drives service calls i id m w) (hpresents : Presents calls i id token)
    (hdriven : Driven service w id m record) (hread : read.id = id) (hstate : read.state.isTerminal = false) :
    Holding service calls i id ((WorkLabel.commit read record).next i w input) := by
  have hlawful := hdriven.lawful_commit h hread hstate
  refine ⟨h.inv.next hlawful, held_next_self (by simp) (by simp) (h.held hpresents),
    fun m' hm' => ?_⟩
  have hle := h.admitted_le i m' (admitted_next_self (by simp) hm')
  intro stored hstored hneeds
  have hself : (w.state.commit record input.now).records[record.id]? = some stored := by
    rw [hdriven.id_eq]
    exact hstored
  rcases stored_commit_self hself with hcancelled | rfl
  · rw [hcancelled] at hneeds
    simp at hneeds
  · obtain ⟨n, hn, htoken⟩ := hdriven.token hneeds
    exact ⟨n, hle.trans hn, htoken.next⟩

lemma meets_commitOutcome (hw : Drives service calls i id m w) (hpresents : Presents calls i id token)
    (hdriven : Driven service w id m record) (hread : read.id = id) (hstate : read.state.isTerminal = false)
    (hQ : ∀ outcome w, Holding service calls i id w → Reports w outcome → Q outcome w) :
    (commitWork read record >>= fun _ => outcomeForRecord record .resume).Meets
      (WorkMove service calls guard) guard i Q w := by
  have hdrives : Settled service calls i (Drives service calls i id m) := settled_drives
  have hholding : Settled service calls i (Holding service calls i id) := settled_holding
  have hlasting : Lasting fun w => Driven service w id m record := lasting_driven
  refine Task.Meets.bind ((hdrives.and hlasting).commit ⟨hw, hdriven⟩
    (fun w hw => hw.2.lawful_commit hw.1 hread hstate) (hholding.and hlasting)
    (fun w e hw => ⟨hw.1.holding_commit hpresents hw.2 hread hstate, lasting_driven _ _ _ _ hw.2⟩)
    fun w hw => ?_)
  exact hholding.outcomeForRecord hw.1 hw.2.sound hQ

lemma meets_resumeBound {current : ChangeData} (hcall : calls[i]? = some call)
    (hpresents : Presents calls i id token) (hw : Drives service calls i id m w)
    (hsound : Sound w record) (hid : record.id = id) (hstate : record.state = .needsModel)
    (hread : read.id = id) (hreadState : read.state.isTerminal = false)
    (hQ : ∀ outcome w, Holding service calls i id w → Reports w outcome → Q outcome w) :
    (resumeBound service call.request read record current).Meets (WorkMove service calls guard) guard i Q w := by
  have hdrives : Settled service calls i (Drives service calls i id m) := settled_drives
  have hholding : Settled service calls i (Holding service calls i id) := settled_holding
  have hlasting : Lasting fun w => Sound w record := lasting_sound
  have hset := hdrives.and hlasting
  unfold resumeBound
  split
  · exact meets_commitOutcome hw hpresents (hsound.block hid _) hread hreadState hQ
  · refine Task.Meets.bind (hset.stopBeforeCandidate ⟨hw, hsound⟩ fun stop w hw hstop => ?_)
    cases stop with
    | some stop =>
      exact meets_commitOutcome hw.1 hpresents (hw.2.block hid stop) hread hreadState hQ
    | none =>
      refine Task.Meets.bind (meets_drive hw.1 hw.2 hid (by simp [hstate])
        ⟨call, hcall, rfl, rfl⟩ fun final w hw hdriven => ?_)
      refine Task.Meets.bind (meets_finalizeWork hdrives (fun _ h => h) hw hdriven hread hreadState
        hholding (fun w e final hw hdriven => hw.holding_commit hpresents hdriven hread hreadState)
        fun final w hw hsound => ?_)
      exact hholding.outcomeForRecord hw hsound hQ

lemma meets_resumeConsumed {stored : HandoffToken} (hcall : calls[i]? = some call)
    (hpresents : Presents calls i id token) (hw : Waiting service calls i id record w)
    (hsound : Sound w record) (hneeds : record.state = .needsModel)
    (hstored : record.token = some stored) (hhash : service.sha token.toUTF8 = stored.tokenHash)
    (hdigested : Digested w token.toUTF8)
    (hQ : ∀ outcome w, Holding service calls i id w → Reports w outcome → Q outcome w) :
    (resumeConsumed service call.request record stored).Meets (WorkMove service calls guard) guard i
      Q w := by
  have hid := hw.id_eq
  have hstate : record.state.isTerminal = false := by rw [hneeds]; rfl
  have hwaiting : Settled service calls i (Waiting service calls i id record) := settled_waiting
  have hlasting : Lasting fun w => Sound w record := lasting_sound
  have hhashed : Lasting fun w => Digested w token.toUTF8 := fun _ _ _ _ h => h.next
  have hset := (hwaiting.and hlasting).and hhashed
  have hlawful : ∀ w, (Waiting service calls i id record w ∧ Sound w record) ∧ Digested w token.toUTF8 →
      Lawful service calls i w (.call (inspectRequest stored.changeId)) :=
    fun w hw => hw.1.1.lawful_inspect hpresents hstored hhash hw.2
  -- From the admission on the call drives the session.
  have hdrives : ∀ m, Settled service calls i (Drives service calls i id m) :=
    fun m => settled_drives
  refine Task.Meets.bind (hset.execute_of ⟨⟨hw, hsound⟩, hdigested⟩ hlawful
    ((settled_exists hdrives).and hlasting)
    (fun w e hw => ⟨⟨_, hw.1.1.drives hpresents (hlawful w hw)⟩, hw.1.2.next⟩)
    fun inspected w hw _ => ?_)
  obtain ⟨⟨m, hw⟩, hsound⟩ := hw
  have hconsumed : Sound w record.consumeToken :=
    hsound.copy rfl rfl rfl rfl rfl rfl (by simp [WorkRecord.consumeToken, hneeds])
  have hholding : Settled service calls i (Holding service calls i id) := settled_holding
  split
  · -- The binding is gone: the session fails.
    have hlasting' : Lasting fun w => Sound w record.consumeToken := lasting_sound
    refine ((hdrives m).and hlasting').finishError ⟨hw, hconsumed⟩ hconsumed
      (show record.consumeToken.id = record.id from rfl) (fun hterminal => ?_) hholding
      (fun w e hw _ => ?_)
      (show "STALE" ≠ "READY" by decide) hQ
    · rw [hstate] at hterminal
      simp at hterminal
    · have hdriven : ∀ status reason, Driven service w id m (record.consumeToken.finished status reason) :=
        fun status reason => ⟨hid, hw.2.finished status reason,
          fun h => absurd h (finished_state_ne _ status reason)⟩
      exact hw.1.holding_commit hpresents (hdriven _ _) hid hstate
  · obtain ⟨warnings, hnoted⟩ := noteIgnored_eq call.request record.consumeToken
    rw [hnoted]
    have hnote : Sound w { record.consumeToken with warnings } :=
      hconsumed.copy rfl rfl rfl rfl rfl rfl (by simp [WorkRecord.consumeToken, hneeds])
    exact meets_resumeBound hcall hpresents hw hnote hid hneeds hid hstate hQ

/-! ### The whole of `resume` -/

lemma settled_unadmitted :
    Settled service calls i fun w => WorkInv service calls w ∧ ∀ m, ¬ Admitted calls w i id m where
  inv _ hw := hw.1
  others _ hj _ _ _ hlawful hw :=
    ⟨hw.1.next hlawful, fun m hm => hw.2 m (admitted_next_other hj hm)⟩
  quiet _ _ _ hquiet hlawful hw :=
    ⟨hw.1.next hlawful, fun m hm => hw.2 m (admitted_next_self hquiet.ne_inspect hm)⟩

lemma settled_locked : Settled service calls i fun w => Holding service calls i id w ∧
    ∀ m, ¬ Admitted calls w i id m where
  inv _ hw := hw.1.inv
  others _ hj _ _ _ hlawful hw :=
    ⟨settled_holding.others _ hj _ _ _ hlawful hw.1,
      fun m hm => hw.2 m (admitted_next_other hj hm)⟩
  quiet _ _ _ hquiet hlawful hw :=
    ⟨settled_holding.quiet _ _ _ hquiet hlawful hw.1,
      fun m hm => hw.2 m (admitted_next_self hquiet.ne_inspect hm)⟩

lemma Holding.waiting (h : Holding service calls i id w) (hadmitted : ∀ m, ¬ Admitted calls w i id m)
    (hstored : w.state.records[id]? = some record) (hstate : record.state = .needsModel) :
    Waiting service calls i id record w := by
  obtain ⟨hhanded, htoken⟩ := h.inv.token id record hstored hstate
  refine ⟨h.inv, h.held, hadmitted, hhanded, (h.inv.stored id record hstored).1, htoken,
    fun j m hj => ?_⟩
  rcases h.inv.closed j id m hj with hheld | hclosed
  · obtain rfl : j = i := Option.some.inj (hheld.symm.trans h.held)
    exact absurd hj (hadmitted m)
  · exact hclosed record hstored hstate

variable (service calls) in
/-- What a call that holds the stripe knows about the copy it has read. -/
structure HasRead (i : ℕ) (id : String) (record : WorkRecord) (w : WorkWorld) : Prop where
  holding : Holding service calls i id w
  unadmitted : ∀ m, ¬ Admitted calls w i id m
  sound : Sound w record
  id_eq : record.id = id
  waiting : record.state = .needsModel → Waiting service calls i id record w

lemma settled_hasRead : Settled service calls i (HasRead service calls i id record) where
  inv _ hw := hw.holding.inv
  others j hj w label input hlawful hw :=
    ⟨settled_holding.others j hj w label input hlawful hw.holding,
      fun m hm => hw.unadmitted m (admitted_next_other hj hm), hw.sound.next, hw.id_eq,
      fun h => settled_waiting.others j hj w label input hlawful (hw.waiting h)⟩
  quiet w label input hquiet hlawful hw :=
    ⟨settled_holding.quiet w label input hquiet hlawful hw.holding,
      fun m hm => hw.unadmitted m (admitted_next_self hquiet.ne_inspect hm), hw.sound.next,
      hw.id_eq, fun h => settled_waiting.quiet w label input hquiet hlawful (hw.waiting h)⟩

lemma meets_resumeLocked (hcall : calls[i]? = some call) (hpresents : Presents calls i id token)
    (hw : Holding service calls i id w ∧ ∀ m, ¬ Admitted calls w i id m)
    (hQ : ∀ outcome w, Holding service calls i id w → Reports w outcome → Q outcome w) :
    (resumeLocked service call.request call.workspace id token).Meets (WorkMove service calls guard) guard i Q w := by
  have hlocked : Settled service calls i fun w => Holding service calls i id w ∧
    ∀ m, ¬ Admitted calls w i id m := settled_locked
  have hholding : Settled service calls i (Holding service calls i id) := settled_holding
  have hread : ∀ record, Settled service calls i (HasRead service calls i id record) :=
    fun record => settled_hasRead
  refine Task.Meets.bind (hlocked.load (fun read w => read.elim
    (Holding service calls i id w ∧ ∀ m, ¬ Admitted calls w i id m)
    fun record => HasRead service calls i id record w) hw (fun read => ?_)
    (fun w hw => ?_) fun read w hw => ?_)
  · cases read with
    | none => exact hlocked
    | some record => exact hread record
  · cases hstored : w.state.records[id]? with
    | none => exact hw
    | some record =>
      obtain ⟨hid, hsound⟩ := hw.1.inv.stored id record hstored
      show HasRead service calls i id record w
      exact ⟨hw.1, hw.2, hsound, hid, fun hneeds => hw.1.waiting hw.2 hstored hneeds⟩
  cases read with
  | none => exact hlocked.done hw fun w hw => hQ _ w hw.1 (.refused (by decide))
  | some record =>
    change HasRead service calls i id record w at hw
    have hfailed : ∀ summary reason, (finishError record record .resume "STALE" summary reason).Meets
          (WorkMove service calls guard) guard i Q w := by
      refine fun summary reason => (hread record).finishError hw hw.sound rfl (fun _ => rfl)
        hholding (fun w e hw hsound => ?_) (by decide) hQ
      exact hw.holding.next_commit (lawful_finished hsound rfl (fun _ => rfl) _ _)
    dsimp only
    split
    · exact hfailed _ _
    · split
      · exact hfailed _ _
      · next hstate =>
        have hneeds : record.state = .needsModel := not_not.mp hstate
        cases hstored : record.token with
        | none => exact hfailed _ _
        | some stored =>
          dsimp only
          split
          · exact (hread record).reject hw hw.sound (by decide)
              fun outcome w hw => hQ outcome w hw.holding
          · refine Task.Meets.bind ((hread record).digest hw fun w hw hdigested => ?_)
            have hhashed : Lasting fun w => Digested w token.toUTF8 := fun _ _ _ _ h => h.next
            have hset := (hread record).and hhashed
            split
            · exact hset.reject ⟨hw, hdigested⟩ hw.sound (by decide)
                fun outcome w hw => hQ outcome w hw.1.holding
            · next hhash =>
              refine Task.Meets.bind (hset.clock ⟨hw, hdigested⟩ fun now w hw => ?_)
              obtain ⟨hw, hdigested⟩ := hw
              split
              · have hexpired : Sound w (record.consumeToken.block
                    "the continuation token expired before a candidate was provided") :=
                  hw.sound.copy rfl rfl rfl rfl rfl rfl (by simp [WorkRecord.block])
                have hlasting : Lasting fun w => Sound w (record.consumeToken.block
                  "the continuation token expired before a candidate was provided") := lasting_sound
                have hlawful : ∀ w, HasRead service calls i id record w ∧ Sound w
                    (record.consumeToken.block
                      "the continuation token expired before a candidate was provided") →
                    Lawful service calls i w (.commit record (record.consumeToken.block
                      "the continuation token expired before a candidate was provided")) :=
                  fun w hw => ⟨rfl, fun hterminal => by simp [hneeds, WorkState.isTerminal] at hterminal,
                    hw.2, fun h => by simp [WorkRecord.block] at h⟩
                refine Task.Meets.bind (((hread record).and hlasting).commit ⟨hw, hexpired⟩ hlawful
                  (hholding.and hlasting) (fun w e hw =>
                    ⟨hw.1.holding.next_commit (hlawful w hw), hw.2.next⟩) fun w hw => ?_)
                exact hholding.outcomeForRecord hw.1 hw.2 hQ
              · exact meets_resumeConsumed hcall hpresents (hw.waiting hneeds) hw.sound hneeds
                  hstored (not_not.mp hhash) hdigested hQ

lemma meets_resume (hcall : calls[i]? = some call) (haction : call.request.action = .resume)
    (hw : WorkInv service calls w ∧ ∀ id m, ¬ Admitted calls w i id m)
    (hQ : ∀ outcome w, WorkInv service calls w → Reports w outcome → Q outcome w) :
    (resume service i call.request call.workspace).Meets (WorkMove service calls guard) guard i Q
      w := by
  have hrefuse : ∀ {status summary reason workId} {w : WorkWorld}, status ≠ "READY" → WorkInv service calls w →
      (Task.done (workRefuse .resume status summary reason workId)).Meets
        (WorkMove service calls guard) guard i Q w :=
    fun hstatus hw => settled_inv.done hw fun w hw => hQ _ w hw (.refused hstatus)
  unfold resume
  split
  · exact hrefuse (by decide) hw.1
  split
  · exact hrefuse (by decide) hw.1
  next _ _ id hid =>
  split
  · exact hrefuse (by decide) hw.1
  split
  · exact hrefuse (by decide) hw.1
  next _ token htoken =>
  have hpresents : Presents calls i id token := ⟨call, hcall, haction, hid, htoken⟩
  have hset : Settled service calls i fun w => WorkInv service calls w ∧
    ∀ m, ¬ Admitted calls w i id m := settled_unadmitted
  have hlocked : Settled service calls i fun w => Holding service calls i id w ∧
    ∀ m, ¬ Admitted calls w i id m := settled_locked
  have hlawful : ∀ w : WorkWorld, (w.state.stripes (stripeOf id)).isNone = true →
      Lawful service calls i w (.lock (stripeOf id)) :=
    fun w hready => Option.isNone_iff_eq_none.mp hready
  refine Task.Meets.bind (hset.step ⟨hw.1, hw.2 id⟩ (fun _ _ => rfl)
    (fun w _ hready => hlawful w hready) fun e w₀ hw₀ hinv => ?_)
  have hunadmitted : ∀ m, ¬ Admitted calls ((WorkLabel.lock (stripeOf id)).next i w₀ e) i id m :=
    fun m hm => hw₀.2 m (admitted_next_self (by simp) hm)
  have hheld : ((WorkLabel.lock (stripeOf id)).next i w₀ e).state.stripes (stripeOf id) = some i :=
    Function.update_self ..
  refine hlocked.done ⟨⟨hinv, hheld, fun m hm => absurd hm (hunadmitted m)⟩, hunadmitted⟩
    fun w hw => ?_
  refine Task.Meets.bind (meets_resumeLocked hcall hpresents hw fun outcome w hw hreports => ?_)
  have hholding : Settled service calls i (Holding service calls i id) := settled_holding
  have hlasting : Lasting fun w => Reports w outcome := lasting_reports
  have hunlock : ∀ w, Holding service calls i id w ∧ Reports w outcome →
      Lawful service calls i w (.unlock (stripeOf id)) := by
    refine fun w hw => ⟨hw.1.held, fun id' m _ hadmitted => ?_⟩
    obtain ⟨token', hpresents'⟩ := hadmitted.2
    obtain ⟨rfl, -⟩ := hpresents.unique hpresents'
    exact hw.1.closed m hadmitted
  refine Task.Meets.bind ((hholding.and hlasting).step ⟨hw, hreports⟩ (fun _ _ => rfl)
    (fun w hw _ => hunlock w hw) fun e w₁ hw₁ hinv => ?_)
  refine (settled_inv.and hlasting).done ⟨hinv, lasting_reports _ _ _ _ hw₁.2⟩ fun w hw => ?_
  exact (settled_inv.and hlasting).done hw fun w hw => hQ outcome w hw.1 hw.2

/-! ## `inspect` and `cancel` -/

lemma meets_readCopy {value : WorkStore → Option WorkRecord} {Q : Option WorkRecord → WorkWorld → Prop}
    (hvalue : ∀ (store : WorkStore) record, value store = some record →
      ∃ id : String, store.records[id]? = some record) (hw : WorkInv service calls w)
    (hQ : ∀ read w, WorkInv service calls w → (∀ record ∈ read, Sound w record) → Q read w) :
    (Task.look .load fun _ store => value store : WorkTask (Option WorkRecord)).Meets
      (WorkMove service calls guard) guard i Q w := by
  refine settled_inv.load (fun read w => WorkInv service calls w ∧ ∀ record ∈ read, Sound w record)
    hw (fun read => settled_inv.and fun _ _ _ _ hread record hrecord => (hread record hrecord).next)
    (fun w hw => ⟨hw, fun record hrecord => ?_⟩) fun read w hw => hQ read w hw.1 hw.2
  obtain ⟨id, hid⟩ := hvalue w.state record hrecord
  exact (hw.stored id record hid).2

lemma mem_of_maxByKey {α : Type} {key : α → ℕ} {entries : List α} {a : α}
    (h : maxByKey key entries = some a) : a ∈ entries := by
  induction entries generalizing a with
  | nil => simp [maxByKey] at h
  | cons b entries ih =>
    unfold maxByKey at h
    split at h
    · obtain rfl := Option.some.inj h
      exact List.mem_cons_self
    · next c hc =>
      split at h
      · obtain rfl := Option.some.inj h
        exact List.mem_cons_self
      · obtain rfl := Option.some.inj h
        exact List.mem_cons_of_mem _ (ih hc)

lemma meets_finishError_inv {action : WorkAction} {summary reason : String} (hw : WorkInv service calls w)
    (hsound : Sound w record)
    (hQ : ∀ outcome w, WorkInv service calls w → Reports w outcome → Q outcome w) :
    (finishError record record action "STALE" summary reason).Meets (WorkMove service calls guard) guard i Q w :=
  settled_inv.finishError hw hsound rfl (fun _ => rfl) settled_inv
    (fun _ _ hw hsound => hw.next (lawful_finished hsound rfl (fun _ => rfl) _ _)) (by decide) hQ

lemma meets_inspectWork (hw : WorkInv service calls w)
    (hQ : ∀ outcome w, WorkInv service calls w → Reports w outcome → Q outcome w) :
    (inspectWork call.request call.workspace).Meets (WorkMove service calls guard) guard i Q w := by
  have hrefuse : ∀ {status summary reason workId} {w : WorkWorld}, status ≠ "READY" → WorkInv service calls w →
      (Task.done (workRefuse .inspect status summary reason workId)).Meets
        (WorkMove service calls guard) guard i Q w :=
    fun hstatus hw => settled_inv.done hw fun w hw => hQ _ w hw (.refused hstatus)
  have hfound : ∀ {record} {w : WorkWorld}, WorkInv service calls w → Sound w record →
      (inspectFound record call.workspace).Meets (WorkMove service calls guard) guard i Q w := by
    intro record w hw hsound
    unfold inspectFound
    split
    · exact meets_finishError_inv hw hsound hQ
    · refine Task.Meets.bind (settled_inv.dataOf hw hsound fun now w hw hsound => ?_)
      have hlasting : Lasting fun w => Sound w record := lasting_sound
      exact (settled_inv.and hlasting).done ⟨hw, hsound⟩ fun w hw =>
        hQ _ w hw.1 (.copy hw.2 fun hready => absurd hready (by decide))
  unfold inspectWork
  split
  · next id _ =>
    refine Task.Meets.bind (meets_readCopy (fun store record h => ⟨id, h⟩) hw
      fun read w hw hread => ?_)
    cases read with
    | none => exact hrefuse (by decide) hw
    | some record => exact hfound hw (hread record rfl)
  · refine Task.Meets.bind (meets_readCopy (fun store record h => ?_) hw fun read w hw hread => ?_)
    · obtain ⟨entry, hentry, rfl⟩ := Option.map_eq_some_iff.mp h
      have hmem := (List.mem_filter.mp (mem_of_maxByKey hentry)).1
      exact ⟨entry.1, Std.ExtTreeMap.mem_toList_iff_getElem?_eq_some.mp hmem⟩
    · cases read with
      | none => exact hrefuse (by decide) hw
      | some record => exact hfound hw (hread record rfl)
  · exact hrefuse (by decide) hw

lemma meets_cancelFound {workspace : Workspace} (hw : WorkInv service calls w) (hsound : Sound w record)
    (hQ : ∀ outcome w, WorkInv service calls w → Reports w outcome → Q outcome w) :
    (cancelFound record workspace).Meets (WorkMove service calls guard) guard i Q w := by
  have hlasting : Lasting fun w => Sound w record := lasting_sound
  have hinv : Settled service calls i (WorkInv service calls) := settled_inv
  have hset := hinv.and hlasting
  -- Writing the final copy back and reporting it.
  have hwrite : ∀ {final : WorkRecord} {w : WorkWorld}, WorkInv service calls w → Sound w final →
      final.id = record.id → final.state ≠ .needsModel →
      (record.state.isTerminal = true → final = { record with reason := final.reason }) →
      (commitWork record final >>= fun _ => cancelOutcome final).Meets
        (WorkMove service calls guard) guard i Q w := by
    intro final w hw hfinal hid hneeds hterminal
    have hlasting' : Lasting fun w => Sound w final := lasting_sound
    have hlawful : ∀ w, WorkInv service calls w ∧ Sound w final → Lawful service calls i w (.commit record final) :=
      fun w hw => ⟨hid, hterminal, hw.2, fun h => absurd h hneeds⟩
    refine Task.Meets.bind ((settled_inv.and hlasting').commit ⟨hw, hfinal⟩ hlawful
      (settled_inv.and hlasting') (fun w e hw => ⟨hw.1.next (hlawful w hw), hw.2.next⟩)
      fun w hw => ?_)
    refine Task.Meets.bind (settled_inv.dataOf hw.1 hw.2 fun now w hw hsound => ?_)
    exact (settled_inv.and hlasting').done ⟨hw, hsound⟩ fun w hw =>
      hQ _ w hw.1 (.copy hw.2 fun hready => absurd hready (by decide))
  unfold cancelFound
  split
  · exact meets_finishError_inv hw hsound hQ
  · split
    · next hterminal =>
      have hneeds : record.state ≠ .needsModel := by
        intro h
        rw [h] at hterminal
        simp [WorkState.isTerminal] at hterminal
      dsimp only
      split
      · exact hwrite hw ⟨hsound.session, hsound.candidates_le, hsound.compiles_le,
          hsound.handoffs_le, hsound.ready⟩ rfl hneeds fun _ => rfl
      · exact hwrite hw hsound rfl hneeds fun _ => rfl
    · next hterminal =>
      refine Task.Meets.bind (hset.step ⟨hw, hsound⟩ (fun _ _ => rfl) (fun _ _ _ => trivial)
        fun e w₀ hw₀ hinv => ?_)
      have hnext := hset.quiet w₀ (.cancelToken record.id) e trivial trivial hw₀
      refine hset.done hnext fun w hw => ?_
      exact hwrite hw.1 (hw.2.copy rfl rfl rfl rfl rfl rfl (by simp [WorkRecord.cancel])) rfl
        (by simp [WorkRecord.cancel]) fun h => absurd h hterminal

lemma meets_cancelWork (hw : WorkInv service calls w)
    (hQ : ∀ outcome w, WorkInv service calls w → Reports w outcome → Q outcome w) :
    (cancelWork call.request call.workspace).Meets (WorkMove service calls guard) guard i Q w := by
  have hrefuse : ∀ {status summary reason workId} {w : WorkWorld}, status ≠ "READY" → WorkInv service calls w →
      (Task.done (workRefuse .cancel status summary reason workId)).Meets
        (WorkMove service calls guard) guard i Q w :=
    fun hstatus hw => settled_inv.done hw fun w hw => hQ _ w hw (.refused hstatus)
  unfold cancelWork
  split
  · exact hrefuse (by decide) hw
  · next id _ =>
    refine Task.Meets.bind (meets_readCopy (fun store record h => ⟨id, h⟩) hw
      fun read w hw hread => ?_)
    cases read with
    | none => exact hrefuse (by decide) hw
    | some record => exact meets_cancelFound hw (hread record rfl) hQ

lemma meets_executeWork (hcall : calls[i]? = some call) :
    (executeWork service i call).Meets (WorkMove service calls guard) guard i
      (fun outcome w => WorkInv service calls w ∧ Reports w outcome) ⟨.empty, []⟩ := by
  have hinv : WorkInv service calls ⟨.empty, []⟩ := workInv_empty
  unfold executeWork
  split
  · next haction =>
    exact meets_start hcall haction ⟨hinv, by simp [Did]⟩ fun outcome w hw h => ⟨hw, h⟩
  · next haction =>
    exact meets_resume hcall haction ⟨hinv, by simp [Admitted]⟩ fun outcome w hw h => ⟨hw, h⟩
  · exact meets_inspectWork hinv fun outcome w hw h => ⟨hw, h⟩
  · exact meets_cancelWork hinv fun outcome w hw h => ⟨hw, h⟩

/-- The pool of any list of calls keeps to the protocol. -/
theorem workPool_meets (service : WorkService) (calls : List WorkCall) (guard : WorkGuard) :
    (workPool service calls).Meet (WorkMove service calls guard) guard
      fun _ outcome w => WorkInv service calls w ∧ Reports w outcome := by
  intro i task htask
  have htask' : (calls.mapIdx (executeWork service))[i]? = some task := htask
  rw [List.getElem?_mapIdx] at htask'
  obtain ⟨call, hcall, rfl⟩ := Option.map_eq_some_iff.mp htask'
  exact meets_executeWork hcall

end Calls

end AgzRustMcp
