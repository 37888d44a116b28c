import AgzRustMcp.Work.Protocol

/-!
# Every call keeps to the protocol

For each function of the actions there is one lemma: run as call `i`, it makes only lawful steps and
returns a record about which the protocol can say something.  `Drives` is what a call relies on
while it drives a session; `meets_executeWork` closes the walk.
-/

namespace AgzRustMcp

open Tasks

/-- A condition on the steps of a run. -/
abbrev WorkGuard := WorkWorld → ℕ → WorkLabel → WorkInput → Prop

section Conduct

variable (service : WorkService) (calls : List WorkCall) (guard : WorkGuard)

/-- What a step of call `i` under the guard does to the world. -/
structure WorkMove (i : ℕ) (w w' : WorkWorld) : Prop where
  inv : WorkInv service calls w
  step : ∃ label input, Lawful service calls i w label ∧ guard w i label input ∧ w' = label.next i w input

/-- The steps that change no lock and no record, and admit nobody. -/
def WorkLabel.Quiet : WorkLabel → Prop
  | .insert _ | .commit _ _ | .lock _ | .unlock _ => False
  | .call request => request.action ≠ .inspect
  | _ => True

/-- A property that call `i` can count on between two of its steps. -/
structure Settled (i : ℕ) (P : WorkWorld → Prop) : Prop where
  inv : ∀ w, P w → WorkInv service calls w
  others : ∀ j, j ≠ i → ∀ w label input, Lawful service calls j w label → P w → P (label.next j w input)
  quiet : ∀ w label input, label.Quiet → Lawful service calls i w label → P w → P (label.next i w input)

/-- A property that no step ever destroys. -/
def Lasting (R : WorkWorld → Prop) : Prop :=
  ∀ i w label input, R w → R (WorkLabel.next label i w input)

variable {service calls guard} {i m n : ℕ} {id : String} {P R : WorkWorld → Prop} {w : WorkWorld}
  {α : Type} {Q : α → WorkWorld → Prop}

lemma Settled.and (h : Settled service calls i P) (hR : Lasting R) : Settled service calls i fun w => P w ∧ R w where
  inv w hw := h.inv w hw.1
  others j hj w label input hlawful hw :=
    ⟨h.others j hj w label input hlawful hw.1, hR j w label input hw.2⟩
  quiet w label input hquiet hlawful hw :=
    ⟨h.quiet w label input hquiet hlawful hw.1, hR i w label input hw.2⟩

lemma settled_exists {β : Type} {P : β → WorkWorld → Prop}
    (h : ∀ b, Settled service calls i (P b)) : Settled service calls i fun w => ∃ b, P b w where
  inv w := fun ⟨b, hw⟩ => (h b).inv w hw
  others j hj w label input hlawful := fun ⟨b, hw⟩ =>
    ⟨b, (h b).others j hj w label input hlawful hw⟩
  quiet w label input hquiet hlawful := fun ⟨b, hw⟩ =>
    ⟨b, (h b).quiet w label input hquiet hlawful hw⟩

lemma settled_inv : Settled service calls i (WorkInv service calls) where
  inv _ hw := hw
  others _ _ _ _ _ hlawful hw := hw.next hlawful
  quiet _ _ _ _ hlawful hw := hw.next hlawful

lemma Settled.stable (h : Settled service calls i P) : Stable (WorkMove service calls guard) i P := by
  intro j hj w w' hmove hw
  obtain ⟨label, input, hlawful, -, rfl⟩ := hmove.step
  exact h.others j hj w label input hlawful hw

lemma Settled.done (h : Settled service calls i P) (hw : P w) {a : α} (hQ : ∀ w, P w → Q a w) :
    (Task.done a).Meets (WorkMove service calls guard) guard i Q w :=
  fun w' hothers => hQ w' (h.stable.others hw hothers)

variable {label : WorkLabel} {j : ℕ} {input : WorkInput} {changeId reason : String}
  {record read : WorkRecord} {action : WorkAction}

lemma Settled.step (h : Settled service calls i P) (hw : P w)
    {ready : WorkStore → Bool} {act : WorkInput → WorkStore → WorkStore}
    {next : WorkInput → WorkStore → WorkTask α} (hact : ∀ e s, act e s = label.effect i e s)
    (hlawful : ∀ w, P w → ready w.state = true → Lawful service calls i w label)
    (hnext : ∀ e w, P w → WorkInv service calls (label.next i w e) →
      (next e w.state).Meets (WorkMove service calls guard) guard i Q (label.next i w e)) :
    (Task.step label ready act next).Meets (WorkMove service calls guard) guard i Q w := by
  refine Task.meets_step h.stable hw fun w' hw' hready e hguard => ?_
  have hlaw := hlawful w' hw' hready
  have heq : w'.after i label act e = label.next i w' e := by
    simp only [World.after, WorkLabel.next, hact]
  rw [heq]
  exact ⟨⟨h.inv w' hw', label, e, hlaw, hguard, rfl⟩, hnext e w' hw' ((h.inv w' hw').next hlaw)⟩

lemma Settled.look (h : Settled service calls i P) (hw : P w)
    {value : WorkInput → WorkStore → α} (hact : ∀ e s, s = label.effect i e s)
    (hquiet : label.Quiet) (hlawful : ∀ w, P w → Lawful service calls i w label)
    (hQ : ∀ e w₀ w, P w₀ → P w → Q (value e w₀.state) w) :
    (Task.look label value).Meets (WorkMove service calls guard) guard i Q w := by
  refine h.step hw hact (fun w hw _ => hlawful w hw) fun e w₀ hw₀ _ => ?_
  have hnext := h.quiet w₀ label e hquiet (hlawful w₀ hw₀) hw₀
  exact h.done hnext fun w hw => hQ e w₀ w hw₀ hw

lemma Settled.clock (h : Settled service calls i P) (hw : P w) {Q : ℕ → WorkWorld → Prop}
    (hQ : ∀ now w, P w → Q now w) : AgzRustMcp.clock.Meets (WorkMove service calls guard) guard i Q w :=
  h.look hw (fun _ _ => rfl) trivial (fun _ _ => trivial) fun e _ w _ hw => hQ e.now w hw

lemma Settled.poll (h : Settled service calls i P) (hw : P w) {Q : Bool → WorkWorld → Prop}
    (hQ : ∀ cancelled w, P w → Q cancelled w) : isCancelled.Meets (WorkMove service calls guard) guard i Q w :=
  h.look hw (fun _ _ => rfl) trivial (fun _ _ => trivial) fun e _ w _ hw => hQ e.cancelled w hw

lemma Settled.setState (h : Settled service calls i P) (hw : P w) {state : WorkState}
    (hstate : state.isTerminal = false ∧ state ≠ .needsModel) {Q : Unit → WorkWorld → Prop} (hQ : ∀ w, P w → Q () w) :
    (AgzRustMcp.setState id state).Meets (WorkMove service calls guard) guard i Q w := by
  refine h.step hw (fun _ _ => rfl) (fun _ _ _ => hstate) fun e w₀ hw₀ _ => ?_
  exact h.done (h.quiet w₀ (.setState id state) e trivial hstate hw₀) hQ

lemma Settled.execute_of (h : Settled service calls i P) (hw : P w) {request : ChangeRequest}
    (hlawful : ∀ w, P w → Lawful service calls i w (.call request))
    (h' : Settled service calls i R) (hnext : ∀ w e, P w → R ((WorkLabel.call request).next i w e))
    {Q : ChangeOutcome → WorkWorld → Prop}
    (hQ : ∀ outcome w, R w → (∃ entry ∈ w.trace, entry.label = .answer request ∧
      entry.input.outcome = outcome) → Q outcome w) :
    (executeChange request).Meets (WorkMove service calls guard) guard i Q w := by
  refine h.step hw (fun _ _ => rfl) (fun w hw _ => hlawful w hw) fun e w₀ hw₀ _ => ?_
  have hdone : Lasting fun w => Did w i (.call request) := fun _ _ _ _ hw => hw.next
  refine (h'.and hdone).step ⟨hnext w₀ e hw₀, did_next.mpr (Or.inr ⟨rfl, rfl⟩)⟩ (fun _ _ => rfl)
    (fun w hw _ => hw.2) fun e w₁ hw₁ _ => ?_
  have hanswered : Lasting fun w => ∃ entry ∈ w.trace, entry.label = .answer request ∧
      entry.input.outcome = e.outcome := by
    rintro _ _ _ _ ⟨entry, hentry, hlabel⟩
    exact ⟨entry, List.mem_append_left _ hentry, hlabel⟩
  refine (h'.and hanswered).done ⟨h'.quiet w₁ (.answer request) e trivial hw₁.2 hw₁.1, ?_⟩
    fun w hw => hQ e.outcome w hw.1 hw.2
  exact ⟨_, List.mem_append_right _ List.mem_cons_self, rfl, rfl⟩

lemma Settled.execute (h : Settled service calls i P) (hw : P w) {request : ChangeRequest}
    (hinspect : request.action ≠ .inspect)
    (hstage : ∀ w, P w → request.action = .stage → StagesCandidate calls w i request)
    {Q : ChangeOutcome → WorkWorld → Prop}
    (hQ : ∀ outcome w, P w → (∃ entry ∈ w.trace, entry.label = .answer request ∧
      entry.input.outcome = outcome) → Q outcome w) :
    (executeChange request).Meets (WorkMove service calls guard) guard i Q w := by
  have hcall : ∀ w, P w → Lawful service calls i w (.call request) := by
    refine fun w hw => ⟨hstage w hw, fun changeId hrequest => ?_⟩
    subst hrequest
    exact absurd rfl hinspect
  exact h.execute_of hw hcall h (fun w e hw => h.quiet w _ e hinspect (hcall w hw) hw) hQ

/-! ## Driving a session -/

lemma WorkInv.inserted_unique (h : WorkInv service calls w) (hi : Inserted w i id)
    (hj : Inserted w j id) : i = j := by
  obtain ⟨now, n, hreserved, rfl⟩ := h.inserted i id hi
  obtain ⟨now', n', hreserved', hid⟩ := h.inserted j _ hj
  obtain rfl := nextWorkId_inj hid
  exact h.reserved_unique i j n hreserved hreserved'

variable (service calls) in
/-- Call `i` owns the session, with admissions up to `m` only. -/
structure Drives (i : ℕ) (id : String) (m : ℕ) (w : WorkWorld) : Prop where
  inv : WorkInv service calls w
  le_sequence : m ≤ w.state.sequence
  admitted_le : ∀ j m', Admitted calls w j id m' → m' ≤ m
  owns : Owns w i id
  joined : Joined calls w i id

lemma held_next_other {stripe : ℕ} (hj : j ≠ i)
    (hlawful : Lawful service calls j w label) (hheld : w.state.stripes stripe = some i) :
    (label.next j w input).state.stripes stripe = some i := by
  have hstripes : (label.next j w input).state.stripes stripe = _ ∨ _ := stripes_next stripe
  rcases hstripes with hsame | rfl | rfl
  · exact hsame.trans hheld
  · have hfree : w.state.stripes stripe = none := hlawful
    rw [hfree] at hheld
    simp at hheld
  · exact absurd (Option.some.inj (hlawful.1.symm.trans hheld)) hj

lemma held_next_self {stripe : ℕ} (hlock : label ≠ .lock stripe) (hunlock : label ≠ .unlock stripe)
    (hheld : w.state.stripes stripe = some i) : (label.next i w input).state.stripes stripe = some i := by
  have hstripes : (label.next i w input).state.stripes stripe = _ ∨ _ := stripes_next stripe
  rcases hstripes with hsame | h | h
  · exact hsame.trans hheld
  · exact absurd h hlock
  · exact absurd h hunlock

lemma WorkLabel.Quiet.ne_locks (h : label.Quiet) (stripe : ℕ) : label ≠ .lock stripe ∧ label ≠ .unlock stripe := by
  constructor
  · rintro rfl
    exact h
  · rintro rfl
    exact h

lemma Owns.next_other (hj : j ≠ i) (hinv : WorkInv service calls w) (hlawful : Lawful service calls j w label)
    (h : Owns w i id) : Owns (label.next j w input) i id := by
  rcases h with ⟨hinserted, hfirst⟩ | ⟨hheld, hhanded⟩
  · refine Or.inl ⟨hinserted.next, ?_⟩
    rintro ⟨k, read, record, hdid, rfl, hstate⟩
    rcases did_next.mp hdid with hold | ⟨rfl, rfl⟩
    · exact hfirst ⟨k, read, record, hold, rfl, hstate⟩
    · rcases (hlawful.2.2.2 hstate).1 with ⟨hother, -⟩ | ⟨-, hhanded⟩
      · exact hj (hinv.inserted_unique hother hinserted)
      · exact hfirst hhanded
  · exact Or.inr ⟨held_next_other hj hlawful hheld, hhanded.next⟩

lemma Owns.next_quiet (hquiet : label.Quiet) (h : Owns w i id) : Owns (label.next i w input) i id := by
  rcases h with ⟨hinserted, hfirst⟩ | ⟨hheld, hhanded⟩
  · refine Or.inl ⟨hinserted.next, ?_⟩
    rintro ⟨k, read, record, hdid, rfl, hstate⟩
    rcases did_next.mp hdid with hold | ⟨rfl, rfl⟩
    · exact hfirst ⟨k, read, record, hold, rfl, hstate⟩
    · exact hquiet
  · obtain ⟨hlock, hunlock⟩ := hquiet.ne_locks (stripeOf id)
    exact Or.inr ⟨held_next_self hlock hunlock hheld, hhanded.next⟩

lemma Owns.not_admits {token : String} (hj : j ≠ i)
    (hlawful : Lawful service calls j w (.call (inspectRequest changeId)))
    (hpresents : Presents calls j id token) (h : Owns w i id) : False := by
  obtain ⟨hheld, hhanded, -⟩ := hlawful.2 changeId rfl id token hpresents
  rcases h with ⟨-, hfirst⟩ | ⟨hmine, -⟩
  · exact hfirst hhanded
  · exact hj (Option.some.inj (hheld.symm.trans hmine))

lemma settled_drives : Settled service calls i (Drives service calls i id m) where
  inv _ hw := hw.inv
  others j hj w label input hlawful hw := by
    refine ⟨hw.inv.next hlawful, hw.le_sequence.trans sequence_le_next, fun k m' hk => ?_,
      hw.owns.next_other hj hw.inv hlawful, hw.joined.next⟩
    rcases admitted_next.mp hk with hold | ⟨rfl, ⟨changeId, rfl⟩, -, token, hpresents⟩
    · exact hw.admitted_le k m' hold
    · exact (hw.owns.not_admits hj hlawful hpresents).elim
  quiet w label input hquiet hlawful hw := by
    refine ⟨hw.inv.next hlawful, hw.le_sequence.trans sequence_le_next, fun k m' hk => ?_,
      hw.owns.next_quiet hquiet, hw.joined.next⟩
    rcases admitted_next.mp hk with hold | ⟨rfl, ⟨changeId, rfl⟩, -, token, hpresents⟩
    · exact hw.admitted_le k m' hold
    · exact absurd rfl hquiet

variable (service) in
/-- A record that may be written back: sound, with a late token. -/
structure Driven (w : WorkWorld) (id : String) (m : ℕ) (record : WorkRecord) : Prop where
  id_eq : record.id = id
  sound : Sound w record
  token : record.state = .needsModel → ∃ n, m ≤ n ∧ HoldsToken service w record n

lemma lasting_driven : Lasting fun w => Driven service w id m record := by
  rintro i w label input ⟨hid, hsound, htoken⟩
  refine ⟨hid, hsound.next, fun hstate => ?_⟩
  obtain ⟨n, hn, hholds⟩ := htoken hstate
  exact ⟨n, hn, hholds.next⟩

lemma lasting_sound : Lasting fun w => Sound w record :=
  fun _ _ _ _ hw => hw.next

lemma lasting_passed {gates : List WorkGate} {revision : ℕ} :
    Lasting fun w => ∀ gate ∈ gates, Passed w changeId revision gate :=
  fun _ _ _ _ hw gate hgate => (hw gate hgate).next

lemma Sound.copy {record copy : WorkRecord} (h : Sound w record) (hid : copy.id = record.id)
    (hintent : copy.intent = record.intent) (hbudget : copy.budget = record.budget)
    (hcandidates : copy.candidates = record.candidates) (hcompiles : copy.compiles = record.compiles)
    (hhandoffs : copy.handoffs = record.handoffs) (hready : copy.state ≠ .ready) : Sound w copy := by
  refine ⟨?_, ?_, ?_, ?_, fun hstate => absurd hstate hready⟩
  · rw [hid, hintent, hbudget]
    exact h.session
  · rw [hcandidates, hbudget]
    exact h.candidates_le
  · rw [hcompiles, hbudget]
    exact h.compiles_le
  · rw [hhandoffs, hbudget]
    exact h.handoffs_le

lemma Sound.driven {copy : WorkRecord} (h : Sound w record) (hrecord : record.id = id)
    (hid : copy.id = record.id) (hintent : copy.intent = record.intent)
    (hbudget : copy.budget = record.budget) (hcandidates : copy.candidates = record.candidates)
    (hcompiles : copy.compiles = record.compiles) (hhandoffs : copy.handoffs = record.handoffs)
    (hready : copy.state ≠ .ready) (hneeds : copy.state ≠ .needsModel) : Driven service w id m copy := by
  exact ⟨hid.trans hrecord, h.copy hid hintent hbudget hcandidates hcompiles hhandoffs hready,
    fun hstate => absurd hstate hneeds⟩

lemma Sound.block (h : Sound w record) (hid : record.id = id)
    (reason : String) : Driven service w id m (record.block reason) :=
  h.driven hid rfl rfl rfl rfl rfl rfl (by simp [WorkRecord.block]) (by simp [WorkRecord.block])

lemma Sound.fail (h : Sound w record) (hid : record.id = id)
    (reason : String) : Driven service w id m (record.fail reason) :=
  h.driven hid rfl rfl rfl rfl rfl rfl (by simp [WorkRecord.fail]) (by simp [WorkRecord.fail])

lemma Sound.cancel (h : Sound w record) (hid : record.id = id)
    (reason : String) : Driven service w id m (record.cancel reason) :=
  h.driven hid rfl rfl rfl rfl rfl rfl (by simp [WorkRecord.cancel]) (by simp [WorkRecord.cancel])

lemma Settled.stopBeforeCandidate (h : Settled service calls i P) (hw : P w) {Q : Option String → WorkWorld → Prop}
    (hQ : ∀ stop w, P w → (stop = none → record.candidates < record.budget.maxCandidates) → Q stop w) :
    (AgzRustMcp.stopBeforeCandidate record).Meets (WorkMove service calls guard) guard i Q w := by
  refine Task.Meets.bind (h.clock hw fun now w hw => ?_)
  refine h.done hw fun w hw => hQ _ w hw fun hnone => ?_
  split_ifs at hnone with _ hcandidates
  exact Nat.lt_of_not_le hcandidates

lemma Settled.stopBeforeCompile (h : Settled service calls i P) (hw : P w) {Q : Option String → WorkWorld → Prop}
    (hQ : ∀ stop w, P w → (stop = none → record.compiles < record.budget.maxCompiles) → Q stop w) :
    (AgzRustMcp.stopBeforeCompile record).Meets (WorkMove service calls guard) guard i Q w := by
  refine Task.Meets.bind (h.clock hw fun now w hw => ?_)
  refine h.done hw fun w hw => hQ _ w hw fun hnone => ?_
  split_ifs at hnone with _ hcompiles
  exact Nat.lt_of_not_le hcompiles

lemma Settled.stopBeforeHandoff (h : Settled service calls i P) (hw : P w) {Q : Option String → WorkWorld → Prop}
    (hQ : ∀ stop w, P w → (stop = none → record.handoffs < record.budget.maxHandoffs) → Q stop w) :
    (AgzRustMcp.stopBeforeHandoff record).Meets (WorkMove service calls guard) guard i Q w := by
  refine Task.Meets.bind (h.clock hw fun now w hw => ?_)
  refine h.done hw fun w hw => hQ _ w hw fun hnone => ?_
  split_ifs at hnone with hhandoffs
  exact Nat.lt_of_not_le hhandoffs

lemma saturatingAdd_le {a b : ℕ} (h : a < b) : saturatingAdd a 1 ≤ b :=
  (min_le_left _ _).trans h

variable {Q : WorkRecord → WorkWorld → Prop}

lemma Settled.digest (h : Settled service calls i P) (hw : P w) {bytes : ByteArray}
    {Q : Unit → WorkWorld → Prop} (hQ : ∀ w, P w → Digested w bytes → Q () w) :
    (Task.look (.digest bytes) fun _ _ => ()).Meets (WorkMove service calls guard) guard i Q w := by
  unfold Task.look
  refine h.step hw (fun _ _ => rfl) (fun _ _ _ => trivial) fun e w₀ hw₀ _ => ?_
  have hlasting : Lasting fun w => Digested w bytes := fun _ _ _ _ hd => hd.next
  have hnext := h.quiet w₀ (.digest bytes) e trivial trivial hw₀
  exact (h.and hlasting).done ⟨hnext, i, did_next.mpr (Or.inr ⟨rfl, rfl⟩)⟩
    fun w hw => hQ w hw.1 hw.2

lemma meets_issueToken {failure : HandoffFailure} {Q : WorkRecord × WorkHandoffData → WorkWorld → Prop}
    (h : Settled service calls i P) (hdrives : ∀ w, P w → Drives service calls i id m w) (hw : P w)
    (hQ : ∀ n issuedAtMs w, P w → m ≤ n → HoldsToken service w (withToken service record failure n issuedAtMs).1 n →
      Q (withToken service record failure n issuedAtMs) w) :
    (issueToken service record failure).Meets (WorkMove service calls guard) guard i Q w := by
  refine Task.Meets.bind (h.clock hw fun issuedAtMs w hw => ?_)
  refine Task.Meets.bind (h.step hw (fun _ _ => rfl) (fun _ _ _ => trivial) fun e w₀ hw₀ _ => ?_)
  -- The number is the value of the counter before the step.
  generalize hn : w₀.state.sequence = n
  have hm : m ≤ n := hn ▸ (hdrives w₀ hw₀).le_sequence
  have hlt : n < (WorkLabel.fetchSequence.next i w₀ e).state.sequence := by
    rw [← hn]
    exact Nat.lt_succ_self _
  have hdrawn : Lasting fun w : WorkWorld => n < w.state.sequence :=
    fun _ _ _ _ hlt => hlt.trans_le sequence_le_next
  have hset := h.and hdrawn
  refine hset.done ⟨h.quiet w₀ .fetchSequence e trivial trivial hw₀, hlt⟩ fun w hw => ?_
  refine Task.Meets.bind (hset.digest hw fun w hw htext => ?_)
  have hhashed : Lasting fun w => Digested w (tokenText record.id record.revision
    (record.patchHash.getD "") n issuedAtMs).toUTF8 := fun _ _ _ _ hd => hd.next
  refine Task.Meets.bind ((hset.and hhashed).digest ⟨hw, htext⟩ fun w hw htoken => ?_)
  have hhashed' : Lasting fun w => Digested w (generateToken service.sha record.id record.revision
    (record.patchHash.getD "") n issuedAtMs).toUTF8 := fun _ _ _ _ hd => hd.next
  refine ((hset.and hhashed).and hhashed').done ⟨hw, htoken⟩ fun w hw => ?_
  obtain ⟨⟨⟨hdr, hlt⟩, htext⟩, htoken⟩ := hw
  exact hQ n issuedAtMs w hdr hm
    ⟨⟨_, _, rfl, rfl, record.revision, record.patchHash.getD "", issuedAtMs, rfl, htext, htoken⟩, hlt⟩

lemma meets_handOff {failure : HandoffFailure}
    (hw : Drives service calls i id m w) (hsound : Sound w record) (hid : record.id = id)
    (hQ : ∀ final w, Drives service calls i id m w → Driven service w id m final → Q final w) :
    (handOff service record failure reason).Meets (WorkMove service calls guard) guard i Q w := by
  have hdrives : Settled service calls i (Drives service calls i id m) := settled_drives
  have hlasting : Lasting fun w => Sound w record := lasting_sound
  have hset := hdrives.and hlasting
  refine Task.Meets.bind (hset.stopBeforeHandoff ⟨hw, hsound⟩ fun stop w hw hstop => ?_)
  cases stop with
  | some stop => exact hset.done hw fun w hw => hQ _ w hw.1 (hw.2.block hid stop)
  | none =>
    have hroom := hstop rfl
    refine Task.Meets.bind (meets_issueToken hset (fun w hw => hw.1) hw
      fun n issuedAtMs w hw hn htoken => ?_)
    have hholds : Lasting fun w => HoldsToken service w (withToken service
      { record with handoffs := saturatingAdd record.handoffs 1 } failure n issuedAtMs).1 n :=
      fun _ _ _ _ hold => hold.next
    refine (hset.and hholds).done ⟨hw, htoken⟩ fun w hw => hQ _ w hw.1.1 ?_
    obtain ⟨⟨-, hsound⟩, htoken⟩ := hw
    exact ⟨hid, ⟨hsound.session, hsound.candidates_le, hsound.compiles_le, saturatingAdd_le hroom,
      fun hready => by simp at hready⟩, fun _ => ⟨n, hn, htoken⟩⟩

lemma meets_handoffFromCurrent {current : Option ChangeData}
    (hw : Drives service calls i id m w) (hsound : Sound w record) (hid : record.id = id)
    (hready : record.state ≠ .ready)
    (hQ : ∀ final w, Drives service calls i id m w → Driven service w id m final → Q final w) :
    (handoffFromCurrent service record current).Meets (WorkMove service calls guard) guard i Q w := by
  unfold handoffFromCurrent
  cases current with
  | none => exact meets_handOff hw hsound hid hQ
  | some data =>
    dsimp only
    split
    · exact meets_handOff hw (hsound.copy rfl rfl rfl rfl rfl rfl hready) hid hQ
    · exact meets_handOff hw (hsound.copy rfl rfl rfl rfl rfl rfl hready) hid hQ

lemma meets_handoffAfterFailure {gate : WorkGate} {row : ChangeEvidenceData} (hw : Drives service calls i id m w)
    (hsound : Sound w record) (hid : record.id = id) (hready : record.state ≠ .ready)
    (hQ : ∀ final w, Drives service calls i id m w → Driven service w id m final → Q final w) :
    (handoffAfterFailure service record gate row).Meets (WorkMove service calls guard) guard i Q
      w := by
  have hdrives : Settled service calls i (Drives service calls i id m) := settled_drives
  have hlasting : Lasting fun w => Sound w record := lasting_sound
  unfold handoffAfterFailure
  dsimp only
  split
  · exact (hdrives.and hlasting).done ⟨hw, hsound⟩ fun w hw => hQ _ w hw.1 (hw.2.block hid _)
  · exact meets_handOff hw (hsound.copy rfl rfl rfl rfl rfl rfl hready) hid hQ

lemma withGateAnswer_eq (record : WorkRecord) (gate : WorkGate) (outcome : ChangeOutcome) :
    ∃ evidence warnings, withGateAnswer record gate outcome = { record with evidence, warnings } := by
  unfold withGateAnswer
  dsimp only
  split
  · exact ⟨_, _, rfl⟩
  · exact ⟨_, _, rfl⟩

lemma meets_runGates {gates passed : List WorkGate} (hw : Drives service calls i id m w)
    (hsound : Sound w record) (hid : record.id = id) (hstate : record.state = .validating)
    (hchange : record.changeId = some changeId) (hpassed : ∀ gate ∈ passed, Passed w changeId record.revision gate)
    (hgates : ∀ gate ∈ record.intent.acceptanceGates, gate ∈ passed ∨ gate ∈ gates)
    (hQ : ∀ final w, Drives service calls i id m w → Driven service w id m final → Q final w) :
    (runGates service changeId gates record).Meets (WorkMove service calls guard) guard i Q w := by
  have hdrives : Settled service calls i (Drives service calls i id m) := settled_drives
  induction gates generalizing record passed w with
  | nil =>
    have hlasting : Lasting fun w => Sound w record := lasting_sound
    have hpasses : Lasting fun w => ∀ gate ∈ passed, Passed w changeId record.revision gate :=
      lasting_passed
    refine ((hdrives.and hlasting).and hpasses).done ⟨⟨hw, hsound⟩, hpassed⟩ fun w hw => ?_
    obtain ⟨⟨hw, hsound⟩, hpassed⟩ := hw
    refine hQ _ w hw ⟨hid, ⟨hsound.session, hsound.candidates_le, hsound.compiles_le,
      hsound.handoffs_le, fun _ => ⟨changeId, hchange, fun gate hgate => ?_⟩⟩, ?_⟩
    · exact hpassed gate ((hgates gate hgate).resolve_right List.not_mem_nil)
    · intro hneeds
      simp [WorkRecord.succeed] at hneeds
  | cons gate gates ih =>
    have hlasting : Lasting fun w => Sound w record := lasting_sound
    have hpasses : Lasting fun w => ∀ gate ∈ passed, Passed w changeId record.revision gate :=
      lasting_passed
    have hset := (hdrives.and hlasting).and hpasses
    have hready : record.state ≠ .ready := by simp [hstate]
    refine Task.Meets.bind (hset.poll ⟨⟨hw, hsound⟩, hpassed⟩ fun cancelled w hw => ?_)
    cases cancelled with
    | true => exact hset.done hw fun w hw => hQ _ w hw.1.1 (hw.1.2.cancel hid _)
    | false =>
      refine Task.Meets.bind (hset.stopBeforeCompile hw fun stop w hw hstop => ?_)
      cases stop with
      | some stop => exact hset.done hw fun w hw => hQ _ w hw.1.1 (hw.1.2.block hid stop)
      | none =>
        have hroom := hstop rfl
        refine Task.Meets.bind (hset.execute hw (by simp [validateRequest])
          (fun _ _ haction => by simp [validateRequest] at haction)
          fun outcome w hw hanswer => ?_)
        obtain ⟨⟨hw, hsound⟩, hpassed⟩ := hw
        obtain ⟨evidence, warnings, heq⟩ := withGateAnswer_eq
          { record with compiles := saturatingAdd record.compiles 1 } gate outcome
        dsimp only
        rw [heq]
        generalize hans : { record with
          compiles := saturatingAdd record.compiles 1, evidence, warnings } = answered
        have hid' : answered.id = id := by rw [← hans, hid]
        have hstate' : answered.state = .validating := by rw [← hans, hstate]
        have hrevision : answered.revision = record.revision := by rw [← hans]
        have hintent : answered.intent = record.intent := by rw [← hans]
        have hsound' : Sound w answered := by
          rw [← hans]
          exact ⟨hsound.session, hsound.candidates_le, saturatingAdd_le hroom, hsound.handoffs_le,
            fun hstate => absurd hstate hready⟩
        have hlasting' : Lasting fun w => Sound w answered := lasting_sound
        have hset' := hdrives.and hlasting'
        split
        · next hpass =>
          have hpassed' : ∀ gate' ∈ gate :: passed, Passed w changeId answered.revision gate' := by
            intro gate' hgate'
            rw [hrevision]
            rcases List.mem_cons.mp hgate' with rfl | hold
            · obtain ⟨entry, hentry, hlabel, houtcome⟩ := hanswer
              exact ⟨entry, hentry, _, hlabel, by rw [houtcome, hpass]⟩
            · exact hpassed gate' hold
          refine ih hw hsound' hid' hstate' (by rw [← hans, hchange]) hpassed' ?_
          intro gate' hgate'
          rw [hintent] at hgate'
          rcases hgates gate' hgate' with hold | hnew
          · exact Or.inl (List.mem_cons_of_mem _ hold)
          · rcases List.mem_cons.mp hnew with rfl | hrest
            · exact Or.inl List.mem_cons_self
            · exact Or.inr hrest
        · split
          · split
            · exact hset'.done ⟨hw, hsound'⟩ fun w hw => hQ _ w hw.1 (hw.2.fail hid' _)
            · exact meets_handoffAfterFailure hw hsound' hid' (by simp [hstate']) hQ
          · split
            · exact hset'.done ⟨hw, hsound'⟩ fun w hw => hQ _ w hw.1 (hw.2.cancel hid' _)
            · split
              · exact hset'.done ⟨hw, hsound'⟩ fun w hw => hQ _ w hw.1 (hw.2.block hid' _)
              · exact hset'.done ⟨hw, hsound'⟩ fun w hw => hQ _ w hw.1 (hw.2.fail hid' _)

lemma meets_stageAndValidate {fingerprint : String} {patches : List PatchInput} {newFiles : List NewFileInput}
    (hw : Drives service calls i id m w) (hsound : Sound w record) (hid : record.id = id)
    (hchange : record.changeId = some changeId) (hscope : candidateScopeError record.intent patches newFiles = none)
    (hroom : record.candidates < record.budget.maxCandidates)
    (hcall : ∃ call, calls[i]? = some call ∧ patches = call.request.patches ∧ newFiles = call.request.newFiles)
    (hQ : ∀ final w, Drives service calls i id m w → Driven service w id m final → Q final w) :
    (stageAndValidate service record changeId fingerprint patches newFiles).Meets
      (WorkMove service calls guard) guard i Q w := by
  have hdrives : Settled service calls i (Drives service calls i id m) := settled_drives
  have hlasting : Lasting fun w => Sound w record := lasting_sound
  have hset := hdrives.and hlasting
  refine Task.Meets.bind (hset.setState ⟨hw, hsound⟩ (by simp [WorkState.isTerminal])
    fun w hw => ?_)
  refine Task.Meets.bind (hset.execute hw (by simp [stageRequest]) (fun w hw _ => ?_)
    fun outcome w hw _ => ?_)
  · obtain ⟨k, first, hdid, hfirst, hintent, -⟩ := hw.2.session
    refine ⟨⟨k, first, hdid, ?_, ?_⟩, hcall⟩
    · rw [hfirst, hid]
      exact hw.1.joined
    · rw [hintent]
      exact hscope
  · obtain ⟨hw, hsound⟩ := hw
    have hstaging : Sound w ({ record with state := .staging }.extendWarnings
        outcome.data.cleanupWarnings) := hsound.copy rfl rfl rfl rfl rfl rfl (by
      simp [WorkRecord.extendWarnings])
    have hlasting' : Lasting fun w => Sound w ({ record with state := .staging }.extendWarnings
        outcome.data.cleanupWarnings) := lasting_sound
    have hset' := hdrives.and hlasting'
    dsimp only
    split
    · have hstaged : Sound w { withStaged ({ record with state := .staging }.extendWarnings
          outcome.data.cleanupWarnings) fingerprint outcome.data with state := .validating } :=
        ⟨hsound.session, saturatingAdd_le hroom, hsound.compiles_le, hsound.handoffs_le,
          fun hready => by simp at hready⟩
      have hlasting'' : Lasting fun w => Sound w { withStaged ({ record with
          state := .staging }.extendWarnings outcome.data.cleanupWarnings) fingerprint
          outcome.data with state := .validating } := lasting_sound
      refine Task.Meets.bind ((hdrives.and hlasting'').setState ⟨hw, hstaged⟩
        (by simp [WorkState.isTerminal]) fun w hw => ?_)
      have hnone : ∀ gate ∈ ([] : List WorkGate), Passed w changeId outcome.data.revision gate :=
        fun gate hgate => absurd hgate List.not_mem_nil
      exact meets_runGates hw.1 hw.2 hid rfl hchange hnone
        (fun gate hgate => Or.inr (mem_uniqueGates.mpr hgate)) hQ
    · split
      · exact hset'.done ⟨hw, hstaging⟩ fun w hw => hQ _ w hw.1 (hw.2.cancel hid _)
      · exact hset'.done ⟨hw, hstaging⟩ fun w hw => hQ _ w hw.1 (hw.2.fail hid _)

lemma meets_drive {current : Option ChangeData} {patches : List PatchInput} {newFiles : List NewFileInput}
    (hw : Drives service calls i id m w) (hsound : Sound w record) (hid : record.id = id)
    (hready : record.state ≠ .ready)
    (hcall : ∃ call, calls[i]? = some call ∧ patches = call.request.patches ∧ newFiles = call.request.newFiles)
    (hQ : ∀ final w, Drives service calls i id m w → Driven service w id m final → Q final w) :
    (drive service record current patches newFiles).Meets (WorkMove service calls guard) guard i Q w := by
  have hdrives : Settled service calls i (Drives service calls i id m) := settled_drives
  have hlasting : Lasting fun w => Sound w record := lasting_sound
  have hset := hdrives.and hlasting
  unfold drive
  split
  · exact meets_handoffFromCurrent hw hsound hid hready hQ
  · split
    · exact hset.done ⟨hw, hsound⟩ fun w hw => hQ _ w hw.1 (hw.2.block hid _)
    · next hscope =>
      refine Task.Meets.bind (hset.stopBeforeCandidate ⟨hw, hsound⟩ fun stop w hw hstop => ?_)
      cases stop with
      | some stop => exact hset.done hw fun w hw => hQ _ w hw.1 (hw.2.block hid stop)
      | none =>
        dsimp only
        split
        · exact hset.done hw fun w hw => hQ _ w hw.1 (hw.2.block hid _)
        · cases hchange : record.changeId with
          | none => exact hset.done hw fun w hw => hQ _ w hw.1 (hw.2.fail hid _)
          | some changeId =>
            exact meets_stageAndValidate hw.1 hw.2 hid hchange hscope (hstop rfl) hcall hQ

/-! ## Results -/

/-- What a call may report: a refusal without a record, or the data of a sound copy. -/
inductive Reports (w : WorkWorld) : WorkOutcome → Prop
  | refused {action status summary reason workId} (hstatus : status ≠ "READY") :
      Reports w (workRefuse action status summary reason workId)
  | copy {record action status summary isError reason now} (hsound : Sound w record)
      (hready : status = "READY" → record.state = .ready) :
      Reports w ⟨status, summary, isError, { workDataForRecord action record now with reason }⟩

lemma lasting_reports {outcome : WorkOutcome} : Lasting fun w => Reports w outcome := by
  intro i w label input hw
  cases hw with
  | refused hstatus => exact .refused hstatus
  | copy hsound hready => exact .copy hsound.next hready

lemma Settled.outcomeForRecord (h : Settled service calls i P) (hw : P w)
    (hsound : Sound w record) {Q : WorkOutcome → WorkWorld → Prop}
    (hQ : ∀ outcome w, P w → Reports w outcome → Q outcome w) :
    (AgzRustMcp.outcomeForRecord record action).Meets (WorkMove service calls guard) guard i Q
      w := by
  have hlasting : Lasting fun w => Sound w record := lasting_sound
  have hset := h.and hlasting
  refine Task.Meets.bind (Task.Meets.bind (hset.clock ⟨hw, hsound⟩ fun now w hw => ?_))
  refine hset.done hw fun w hw => hset.done hw fun w hw => hQ _ w hw.1 ?_
  cases hstate : record.state <;>
    exact .copy hw.2 fun hready => by first | exact hstate | simp at hready

lemma Settled.dataOf (h : Settled service calls i P) (hw : P w)
    (hsound : Sound w record) {Q : WorkData → WorkWorld → Prop}
    (hQ : ∀ now w, P w → Sound w record → Q (workDataForRecord action.asStr record now) w) :
    (AgzRustMcp.dataOf action record).Meets (WorkMove service calls guard) guard i Q w := by
  have hlasting : Lasting fun w => Sound w record := lasting_sound
  have hset := h.and hlasting
  refine Task.Meets.bind (hset.clock ⟨hw, hsound⟩ fun now w hw => ?_)
  exact hset.done hw fun w hw => hQ now w hw.1 hw.2

lemma Settled.commit (h : Settled service calls i P) (hw : P w)
    (hlawful : ∀ w, P w → Lawful service calls i w (.commit read record)) (h' : Settled service calls i R)
    (hnext : ∀ w e, P w → R ((WorkLabel.commit read record).next i w e))
    {Q : Unit → WorkWorld → Prop} (hQ : ∀ w, R w → Q () w) :
    (commitWork read record).Meets (WorkMove service calls guard) guard i Q w := by
  refine h.step hw (fun _ _ => rfl) (fun w hw _ => hlawful w hw) fun e w₀ hw₀ _ => ?_
  exact h'.done (hnext w₀ e hw₀) hQ

lemma finished_state_ne (record : WorkRecord) (status reason : String) :
    (record.finished status reason).state ≠ .needsModel := by
  unfold WorkRecord.finished
  dsimp only
  split_ifs with hterminal
  · intro hneeds
    rw [hneeds] at hterminal
    simp [WorkState.isTerminal] at hterminal
  · simp
  · simp

lemma Sound.finished (h : Sound w record) (status reason : String) : Sound w (record.finished status reason) := by
  refine ⟨h.session, h.candidates_le, h.compiles_le, h.handoffs_le, fun hready => h.ready ?_⟩
  unfold WorkRecord.finished at hready
  dsimp only at hready
  split_ifs at hready
  exact hready

lemma finished_of_terminal (h : record.state.isTerminal = true) (status reason : String) :
    record.finished status reason = { record with reason } := by
  unfold WorkRecord.finished
  rw [if_pos h]

lemma lawful_finished (hsound : Sound w record) (hid : record.id = read.id)
    (hread : read.state.isTerminal = true → record = read) (status reason : String) :
    Lawful service calls i w (.commit read (record.finished status reason)) := by
  refine ⟨hid, fun hterminal => ?_, hsound.finished status reason, fun hneeds =>
    absurd hneeds (finished_state_ne record status reason)⟩
  obtain rfl := hread hterminal
  rw [finished_of_terminal hterminal]

lemma Settled.finishError {status summary : String}
    (h : Settled service calls i P) (hw : P w) (hsound : Sound w record) (hid : record.id = read.id)
    (hread : read.state.isTerminal = true → record = read) (h' : Settled service calls i R)
    (hnext : ∀ w e, P w → Sound w record → R ((WorkLabel.commit read (record.finished status reason)).next i w e))
    (hstatus : status ≠ "READY") {Q : WorkOutcome → WorkWorld → Prop}
    (hQ : ∀ outcome w, R w → Reports w outcome → Q outcome w) :
    (AgzRustMcp.finishError read record action status summary reason).Meets
      (WorkMove service calls guard) guard i Q w := by
  have hlasting : Lasting fun w => Sound w record := lasting_sound
  refine Task.Meets.bind ((h.and hlasting).commit ⟨hw, hsound⟩
    (fun w hw => lawful_finished hw.2 hid hread status reason) (h'.and hlasting)
    (fun w e hw => ⟨hnext w e hw.1 hw.2, hw.2.next⟩) fun w hw => ?_)
  refine Task.Meets.bind (h'.dataOf hw.1 (hw.2.finished status reason) fun now w hw hsound => ?_)
  have hreports : Lasting fun w => Sound w (record.finished status reason) := lasting_sound
  exact (h'.and hreports).done ⟨hw, hsound⟩ fun w hw =>
    hQ _ w hw.1 (.copy hw.2 fun hready => absurd hready hstatus)

lemma Settled.reject {status summary : String} (h : Settled service calls i P) (hw : P w) (hsound : Sound w record)
    (hstatus : status ≠ "READY") {Q : WorkOutcome → WorkWorld → Prop}
    (hQ : ∀ outcome w, P w → Reports w outcome → Q outcome w) :
    (rejectWork record action status summary reason).Meets (WorkMove service calls guard) guard i Q
      w := by
  refine Task.Meets.bind (h.dataOf hw hsound fun now w hw hsound => ?_)
  have hlasting : Lasting fun w => Sound w record := lasting_sound
  exact (h.and hlasting).done ⟨hw, hsound⟩ fun w hw =>
    hQ _ w hw.1 (.copy hw.2 fun hready => absurd hready hstatus)

lemma Settled.load {β : Type} (h : Settled service calls i P) (P' : β → WorkWorld → Prop)
    (hw : P w) {value : WorkStore → β} (h' : ∀ b, Settled service calls i (P' b))
    (hread : ∀ w, P w → P' (value w.state) w) {Q : β → WorkWorld → Prop} (hQ : ∀ b w, P' b w → Q b w) :
    (Task.look .load fun _ store => value store).Meets (WorkMove service calls guard) guard i Q
      w := by
  unfold Task.look
  refine h.step hw (fun _ _ => rfl) (fun _ _ _ => trivial) fun e w₀ hw₀ _ => ?_
  exact (h' _).done ((h' _).quiet w₀ .load e trivial trivial (hread w₀ hw₀)) fun w hw => hQ _ w hw

end Conduct

end AgzRustMcp
