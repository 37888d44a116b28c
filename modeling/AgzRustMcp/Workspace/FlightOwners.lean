import AgzRustMcp.Workspace.MetadataFlight

/-!
# The owners of the metadata flights

A flight has one owner, which is the only one to load for its key.  When it has finished, the flight is no
longer active, and a follower finds its result: none of them sleeps on it (`flightInv_after`).
-/

namespace AgzRustMcp.Workspace

variable {φ α : Type}

def AcquirePhase.flight? : AcquirePhase φ α → Option (MetadataKey φ × ℕ)
  | .loading key flight => some (key, flight)
  | .verifying key flight _ => some (key, flight)
  | .finishing key flight _ => some (key, flight)
  | _ => none

def AcquirePhase.follows? : AcquirePhase φ α → Option (MetadataKey φ × ℕ)
  | .waiting key flight => some (key, flight)
  | .asleep key flight => some (key, flight)
  | _ => none

namespace MetadataWorld

/-- A caller owns a flight, and loads for its key. -/
def Loads (world : MetadataWorld φ α) (index : ℕ) (key : MetadataKey φ) (flight : ℕ) : Prop :=
  (world.phaseOf index).bind AcquirePhase.flight? = some (key, flight)

def Follows (world : MetadataWorld φ α) (index : ℕ) (key : MetadataKey φ) (flight : ℕ) : Prop :=
  (world.phaseOf index).bind AcquirePhase.follows? = some (key, flight)

/-- A caller sleeps until it is notified of the result of a flight. -/
def Sleeps (world : MetadataWorld φ α) (index : ℕ) (key : MetadataKey φ) (flight : ℕ) : Prop :=
  world.phaseOf index = some (.asleep key flight)

end MetadataWorld

/-! ## The steps of a caller -/

/-- A step that neither begins nor finishes a flight, nor joins one. -/
structure Quiet (flights : ℕ → Option (Except MetadataError α)) (before next : AcquirePhase φ α) : Prop where
  flight : next.flight? = before.flight?
  follows : next.follows? = none ∨ next.follows? = before.follows?
  unfinished : ∀ key flight result, before ≠ .finishing key flight result
  asleep : ∀ key flight, next = .asleep key flight → flights flight = none

section

variable {flights : ℕ → Option (Except MetadataError α)} {before next : AcquirePhase φ α}

lemma quiet_of_unfollowing (hflight : next.flight? = before.flight?) (hfollows : next.follows? = none)
    (hbefore : ∀ key flight result, before ≠ .finishing key flight result) : Quiet flights before next := by
  refine ⟨hflight, .inl hfollows, hbefore, ?_⟩
  rintro key flight rfl
  cases hfollows

lemma Quiet.after [DecidableEq φ] (h : Quiet flights before next) (state : MetadataState φ α) :
    state.after before next = state := by
  have hflight := h.flight
  cases before with
  | seeking key =>
    cases next with
    | loading other flight => cases hflight
    | _ => rfl
  | finishing key flight result => exact absurd rfl (h.unfinished key flight result)
  | _ => rfl

lemma quiet_stopOr {caller : AcquireCaller φ α} {now : ℕ} {stopped : MetadataError → AcquirePhase φ α}
    (hnext : Quiet flights before next) (hstopped : ∀ error, Quiet flights before (stopped error)) :
    Quiet flights before (caller.stopOr now stopped next) := by
  unfold AcquireCaller.stopOr
  split
  · exact hstopped _
  · exact hnext

lemma flights_beside (before phase : AcquirePhase φ α) :
    (before.beside phase).flight? = phase.flight? ∧ (before.beside phase).follows? = phase.follows? := by
  cases before with
  | finishing key flight result =>
    cases phase with
    | asleep key' flight' =>
      rw [AcquirePhase.beside, AcquirePhase.notified]
      split_ifs <;> exact ⟨rfl, rfl⟩
    | _ => exact ⟨rfl, rfl⟩
  | _ => exact ⟨rfl, rfl⟩

lemma eq_asleep_of_beside {phase : AcquirePhase φ α} {key : MetadataKey φ} {flight : ℕ}
    (h : before.beside phase = .asleep key flight) :
    phase = .asleep key flight ∧ ∀ key' result, before ≠ .finishing key' flight result := by
  cases before with
  | finishing key' flight' result =>
    cases phase with
    | asleep key'' flight'' =>
      rw [AcquirePhase.beside, AcquirePhase.notified] at h
      split_ifs at h with hsame
      refine ⟨h, ?_⟩
      rintro other result' hfinishing
      obtain ⟨-, rfl⟩ := AcquirePhase.asleep.inj h
      exact hsame (AcquirePhase.finishing.inj hfinishing).2.1.symm
    | _ => cases h
  | _ => exact ⟨h, nofun⟩

end

variable [DecidableEq φ]

lemma advance_cases (caller : AcquireCaller φ α) (world : MetadataWorld φ α) (answer : AcquireAnswer φ α) :
    (∃ key, caller.phase = .seeking key ∧ world.state.active key = none ∧
      caller.advance world answer = .loading key world.state.nextFlight) ∨
    (∃ key flight result, caller.phase = .finishing key flight result ∧
      caller.advance world answer = .done (result.map fun snapshot => (snapshot, .miss))) ∨
    (∃ key flight, caller.phase = .seeking key ∧ world.state.active key = some flight ∧
      caller.advance world answer = .waiting key flight) ∨
    Quiet world.state.flights caller.phase (caller.advance world answer) := by
  unfold AcquireCaller.advance
  cases hphase : caller.phase with
  | started =>
    refine .inr (.inr (.inr (quiet_stopOr ?_ fun error => quiet_of_unfollowing rfl rfl nofun)))
    split_ifs <;> exact quiet_of_unfollowing rfl rfl nofun
  | surveying generation =>
    refine .inr (.inr (.inr ?_))
    cases answer with
    | surveyed fingerprint => cases fingerprint <;> exact quiet_of_unfollowing rfl rfl nofun
    | failed message => exact quiet_of_unfollowing rfl rfl nofun
    | _ =>
      exact quiet_stopOr (quiet_of_unfollowing rfl rfl nofun) fun error => quiet_of_unfollowing rfl rfl nofun
  | bypassing =>
    refine .inr (.inr (.inr ?_))
    cases answer with
    | failed message => exact quiet_of_unfollowing rfl rfl nofun
    | reported stop => exact quiet_of_unfollowing rfl rfl nofun
    | _ =>
      exact quiet_stopOr (quiet_of_unfollowing rfl rfl nofun) fun error => quiet_of_unfollowing rfl rfl nofun
  | seeking key =>
    unfold AcquireCaller.stopOr
    dsimp only
    split
    · exact .inr (.inr (.inr (quiet_of_unfollowing rfl rfl nofun)))
    · cases world.state.cache key with
      | some snapshot => exact .inr (.inr (.inr (quiet_of_unfollowing rfl rfl nofun)))
      | none =>
        cases hactive : world.state.active key with
        | some flight => exact .inr (.inr (.inl ⟨key, flight, rfl, hactive, rfl⟩))
        | none => exact .inl ⟨key, rfl, hactive, rfl⟩
  | waiting key flight =>
    refine .inr (.inr (.inr ?_))
    dsimp only
    cases hresult : world.state.flights flight with
    | some result =>
      dsimp only
      unfold takeResult
      split <;> exact quiet_of_unfollowing rfl rfl nofun
    | none =>
      refine quiet_stopOr ?_ fun error => quiet_of_unfollowing rfl rfl nofun
      refine ⟨rfl, .inr rfl, nofun, ?_⟩
      intro key' flight' hsame
      obtain ⟨-, rfl⟩ := AcquirePhase.asleep.inj hsame
      exact hresult
  | asleep key flight => exact .inr (.inr (.inr ⟨rfl, .inr rfl, nofun, nofun⟩))
  | loading key flight =>
    refine .inr (.inr (.inr ?_))
    cases answer with
    | failed message => exact quiet_of_unfollowing rfl rfl nofun
    | reported stop => exact quiet_of_unfollowing rfl rfl nofun
    | _ =>
      exact quiet_stopOr (quiet_of_unfollowing rfl rfl nofun) fun error => quiet_of_unfollowing rfl rfl nofun
  | verifying key flight snapshot =>
    refine .inr (.inr (.inr ?_))
    cases answer with
    | surveyed fingerprint =>
      dsimp only
      unfold verifyFingerprint
      split_ifs <;> exact quiet_of_unfollowing rfl rfl nofun
    | failed message => exact quiet_of_unfollowing rfl rfl nofun
    | _ =>
      exact quiet_stopOr (quiet_of_unfollowing rfl rfl nofun) fun error => quiet_of_unfollowing rfl rfl nofun
  | finishing key flight result => exact .inr (.inl ⟨key, flight, result, rfl, rfl⟩)
  | done result => exact .inr (.inr (.inr (quiet_of_unfollowing rfl rfl nofun)))

/-! ## Phases of a world -/

section

variable {world : MetadataWorld φ α} {index : ℕ} {caller : AcquireCaller φ α}

lemma advance_of_caller (h : world.callers index = some caller) (answer : AcquireAnswer φ α) :
    world.advance index answer = { world with
        state := world.state.after caller.phase (caller.advance world answer)
        callers := Function.update
          (fun other => (world.callers other).map fun beside =>
            { beside with phase := caller.phase.beside beside.phase })
          index (some { caller with phase := caller.advance world answer }) } := by
  unfold MetadataWorld.advance
  rw [h]

lemma advance_of_none (h : world.callers index = none) (answer : AcquireAnswer φ α) :
    world.advance index answer = world := by
  unfold MetadataWorld.advance
  rw [h]

omit [DecidableEq φ] in
lemma phaseOf_of_caller (h : world.callers index = some caller) : world.phaseOf index = some caller.phase := by
  unfold MetadataWorld.phaseOf
  rw [h]
  rfl

lemma phaseOf_advance_self (h : world.callers index = some caller) (answer : AcquireAnswer φ α) :
    (world.advance index answer).phaseOf index = some (caller.advance world answer) := by
  rw [advance_of_caller h]
  unfold MetadataWorld.phaseOf
  dsimp only
  rw [Function.update_self]
  rfl

lemma phaseOf_advance_other (h : world.callers index = some caller) (answer : AcquireAnswer φ α) {other : ℕ}
    (hother : other ≠ index) :
    (world.advance index answer).phaseOf other = (world.phaseOf other).map caller.phase.beside := by
  rw [advance_of_caller h]
  unfold MetadataWorld.phaseOf
  dsimp only
  rw [Function.update_of_ne hother, Option.map_map, Option.map_map]
  rfl

lemma loads_advance_other (h : world.callers index = some caller) (answer : AcquireAnswer φ α) {other : ℕ}
    (hother : other ≠ index) (key : MetadataKey φ) (flight : ℕ) :
    (world.advance index answer).Loads other key flight ↔ world.Loads other key flight := by
  unfold MetadataWorld.Loads
  rw [phaseOf_advance_other h answer hother, Option.bind_map]
  have hsame : AcquirePhase.flight? ∘ caller.phase.beside = AcquirePhase.flight? :=
    funext fun phase => (flights_beside caller.phase phase).1
  rw [hsame]

lemma follows_advance_other (h : world.callers index = some caller) (answer : AcquireAnswer φ α) {other : ℕ}
    (hother : other ≠ index) (key : MetadataKey φ) (flight : ℕ) :
    (world.advance index answer).Follows other key flight ↔ world.Follows other key flight := by
  unfold MetadataWorld.Follows
  rw [phaseOf_advance_other h answer hother, Option.bind_map]
  have hsame : AcquirePhase.follows? ∘ caller.phase.beside = AcquirePhase.follows? :=
    funext fun phase => (flights_beside caller.phase phase).2
  rw [hsame]

lemma sleeps_of_advance_other (h : world.callers index = some caller) {answer : AcquireAnswer φ α} {other : ℕ}
    (hother : other ≠ index) {key : MetadataKey φ} {flight : ℕ}
    (hsleeps : (world.advance index answer).Sleeps other key flight) :
    world.Sleeps other key flight ∧ ∀ key' result, caller.phase ≠ .finishing key' flight result := by
  unfold MetadataWorld.Sleeps at hsleeps ⊢
  rw [phaseOf_advance_other h answer hother] at hsleeps
  obtain ⟨phase, hphase, hasleep⟩ := Option.map_eq_some_iff.mp hsleeps
  obtain ⟨rfl, hapart⟩ := eq_asleep_of_beside hasleep
  exact ⟨hphase, hapart⟩

lemma loads_advance_self (h : world.callers index = some caller) (answer : AcquireAnswer φ α)
    (key : MetadataKey φ) (flight : ℕ) : (world.advance index answer).Loads index key flight ↔
      (caller.advance world answer).flight? = some (key, flight) := by
  unfold MetadataWorld.Loads
  rw [phaseOf_advance_self h]
  rfl

omit [DecidableEq φ] in
lemma loads_iff (h : world.callers index = some caller) (key : MetadataKey φ) (flight : ℕ) :
    world.Loads index key flight ↔ caller.phase.flight? = some (key, flight) := by
  unfold MetadataWorld.Loads
  rw [phaseOf_of_caller h]
  rfl

end

/-! ## One owner -/

/-- An active flight has one owner and no result, and sleeping followers. -/
structure FlightInv (world : MetadataWorld φ α) : Prop where
  owner : ∀ index key flight, world.Loads index key flight →
    world.state.active key = some flight ∧ world.state.flights flight = none
  active : ∀ key flight, world.state.active key = some flight → ∃ index, world.Loads index key flight
  unique : ∀ index other key key' flight, world.Loads index key flight → world.Loads other key' flight → index = other
  follows : ∀ index key flight, world.Follows index key flight →
    world.state.active key = some flight ∨ world.state.flights flight ≠ none
  sleeps : ∀ index key flight, world.Sleeps index key flight → world.state.flights flight = none
  fresh : ∀ flight, world.state.nextFlight ≤ flight →
    world.state.flights flight = none ∧ ∀ key, world.state.active key ≠ some flight
  callers : ∀ index, world.nextCaller ≤ index → world.callers index = none

omit [DecidableEq φ] in
lemma flightInv_start (epoch : ℕ) : FlightInv (MetadataWorld.start epoch : MetadataWorld φ α) where
  owner := fun _ _ _ h => by cases h
  active := fun _ _ h => by cases h
  unique := fun _ _ _ _ _ h => by cases h
  follows := fun _ _ _ h => by cases h
  sleeps := fun _ _ _ h => by cases h
  fresh := fun _ _ => ⟨rfl, nofun⟩
  callers := fun _ _ => rfl

section

variable {world : MetadataWorld φ α}

omit [DecidableEq φ] in
lemma FlightInv.transport {next : MetadataWorld φ α} (h : FlightInv world)
    (hactive : next.state.active = world.state.active) (hflights : next.state.flights = world.state.flights)
    (hnext : next.state.nextFlight = world.state.nextFlight)
    (hloads : ∀ index key flight, next.Loads index key flight ↔ world.Loads index key flight)
    (hfollows : ∀ index key flight, next.Follows index key flight →
      world.Follows index key flight ∨ world.state.active key = some flight)
    (hsleeps : ∀ index key flight, next.Sleeps index key flight → world.state.flights flight = none)
    (hcallers : ∀ index, next.nextCaller ≤ index → next.callers index = none) : FlightInv next where
  owner := by
    intro index key flight hload
    rw [hactive, hflights]
    exact h.owner index key flight ((hloads index key flight).mp hload)
  active := by
    intro key flight hkey
    rw [hactive] at hkey
    obtain ⟨index, hload⟩ := h.active key flight hkey
    exact ⟨index, (hloads index key flight).mpr hload⟩
  unique := by
    intro index other key key' flight hload hload'
    exact h.unique index other key key' flight ((hloads _ _ _).mp hload) ((hloads _ _ _).mp hload')
  follows := by
    intro index key flight hfollow
    rw [hactive, hflights]
    rcases hfollows index key flight hfollow with hold | hkey
    · exact h.follows index key flight hold
    · exact .inl hkey
  sleeps := by
    intro index key flight hsleep
    rw [hflights]
    exact hsleeps index key flight hsleep
  fresh := by
    intro flight hle
    rw [hnext] at hle
    rw [hflights, hactive]
    exact h.fresh flight hle
  callers := hcallers

omit [DecidableEq φ] in
lemma FlightInv.same {next : MetadataWorld φ α} (h : FlightInv world)
    (hactive : next.state.active = world.state.active) (hflights : next.state.flights = world.state.flights)
    (hnext : next.state.nextFlight = world.state.nextFlight)
    (hphases : ∀ index, next.phaseOf index = world.phaseOf index)
    (hcallers : ∀ index, next.nextCaller ≤ index → next.callers index = none) : FlightInv next := by
  refine h.transport hactive hflights hnext ?_ ?_ ?_ hcallers
  · intro index key flight
    unfold MetadataWorld.Loads
    rw [hphases]
  · intro index key flight hfollow
    unfold MetadataWorld.Follows at hfollow ⊢
    rw [hphases] at hfollow
    exact .inl hfollow
  · intro index key flight hsleep
    unfold MetadataWorld.Sleeps at hsleep
    rw [hphases] at hsleep
    exact h.sleeps index key flight hsleep

variable {index : ℕ} {caller : AcquireCaller φ α} {answer : AcquireAnswer φ α}

lemma callers_advance (h : FlightInv world) (hcaller : world.callers index = some caller) (other : ℕ)
    (hle : (world.advance index answer).nextCaller ≤ other) : (world.advance index answer).callers other = none := by
  rw [advance_of_caller hcaller] at hle ⊢
  have hnone := h.callers other hle
  dsimp only
  have hother : other ≠ index := by
    rintro rfl
    rw [hnone] at hcaller
    cases hcaller
  rw [Function.update_of_ne hother, hnone]
  rfl

/-- A caller begins a flight with a new number. -/
lemma FlightInv.begins (h : FlightInv world) (hcaller : world.callers index = some caller)
    {key : MetadataKey φ} (hseeking : caller.phase = .seeking key) (hnone : world.state.active key = none)
    (hnext : caller.advance world answer = .loading key world.state.nextFlight) :
    FlightInv (world.advance index answer) := by
  have hstate : (world.advance index answer).state = world.state.begin key := by
    rw [advance_of_caller hcaller, hseeking, hnext]
    rfl
  have hactive : (world.advance index answer).state.active =
      Function.update world.state.active key (some world.state.nextFlight) := by
    rw [hstate]
    rfl
  have hflights : (world.advance index answer).state.flights = world.state.flights := by
    rw [hstate]
    rfl
  have hself : ∀ key' flight', (world.advance index answer).Loads index key' flight' →
      key' = key ∧ flight' = world.state.nextFlight := by
    intro key' flight' hload
    rw [loads_advance_self hcaller, hnext] at hload
    obtain ⟨rfl, rfl⟩ := Prod.mk.inj (Option.some.inj hload)
    exact ⟨rfl, rfl⟩
  have hold : ∀ other key' flight', other ≠ index → (world.advance index answer).Loads other key' flight' →
      world.Loads other key' flight' ∧ key' ≠ key ∧ flight' ≠ world.state.nextFlight := by
    intro other key' flight' hother hload
    rw [loads_advance_other hcaller answer hother] at hload
    have hflying := (h.owner other key' flight' hload).1
    refine ⟨hload, ?_, ?_⟩
    · rintro rfl
      rw [hnone] at hflying
      cases hflying
    · rintro rfl
      exact (h.fresh _ le_rfl).2 key' hflying
  constructor
  case owner =>
    intro other key' flight' hload
    rw [hactive, hflights]
    by_cases hother : other = index
    · rw [hother] at hload
      obtain ⟨rfl, rfl⟩ := hself key' flight' hload
      exact ⟨Function.update_self _ _ _, (h.fresh _ le_rfl).1⟩
    · obtain ⟨hload, hkey, -⟩ := hold other key' flight' hother hload
      rw [Function.update_of_ne hkey]
      exact h.owner other key' flight' hload
  case active =>
    intro key' flight' hkey
    rw [hactive, Function.update_apply] at hkey
    split_ifs at hkey with hsame
    · refine ⟨index, ?_⟩
      obtain rfl := Option.some.inj hkey
      rw [loads_advance_self hcaller, hnext, hsame]
      rfl
    · obtain ⟨other, hload⟩ := h.active key' flight' hkey
      have hother : other ≠ index := by
        rintro rfl
        rw [loads_iff hcaller, hseeking] at hload
        cases hload
      exact ⟨other, (loads_advance_other hcaller answer hother key' flight').mpr hload⟩
  case unique =>
    intro other other' key' key'' flight' hload hload'
    by_cases hother : other = index
    · rw [hother] at hload ⊢
      by_contra hother'
      exact (hold other' key'' flight' (Ne.symm hother') hload').2.2 (hself key' flight' hload).2
    · by_cases hother' : other' = index
      · rw [hother'] at hload'
        exact absurd (hself key'' flight' hload').2 (hold other key' flight' hother hload).2.2
      · exact h.unique other other' key' key'' flight' (hold _ _ _ hother hload).1 (hold _ _ _ hother' hload').1
  case follows =>
    intro other key' flight' hfollow
    have hother : other ≠ index := by
      rintro rfl
      unfold MetadataWorld.Follows at hfollow
      rw [phaseOf_advance_self hcaller, hnext] at hfollow
      cases hfollow
    rw [follows_advance_other hcaller answer hother] at hfollow
    rw [hactive, hflights]
    rcases h.follows other key' flight' hfollow with hkey | hresult
    · left
      rw [Function.update_of_ne]
      · exact hkey
      · rintro rfl
        rw [hnone] at hkey
        cases hkey
    · exact .inr hresult
  case sleeps =>
    intro other key' flight' hsleep
    have hother : other ≠ index := by
      rintro rfl
      unfold MetadataWorld.Sleeps at hsleep
      rw [phaseOf_advance_self hcaller, hnext] at hsleep
      cases hsleep
    rw [hflights]
    exact h.sleeps other key' flight' (sleeps_of_advance_other hcaller hother hsleep).1
  case fresh =>
    intro flight' hle
    have hlt : world.state.nextFlight < flight' := by
      rw [hstate] at hle
      exact hle
    obtain ⟨hflight, hkeys⟩ := h.fresh flight' hlt.le
    rw [hflights, hactive]
    refine ⟨hflight, ?_⟩
    intro key'
    rw [Function.update_apply]
    split_ifs
    · intro hsame
      exact hlt.ne (Option.some.inj hsame)
    · exact hkeys key'
  case callers => exact callers_advance h hcaller

/-- The owner leaves its result. -/
lemma FlightInv.finishes (h : FlightInv world) (hcaller : world.callers index = some caller)
    {key : MetadataKey φ} {flight : ℕ} {result : Except MetadataError α}
    (hfinishing : caller.phase = .finishing key flight result) : FlightInv (world.advance index answer) := by
  have hnext : caller.advance world answer = .done (result.map fun snapshot => (snapshot, .miss)) := by
    unfold AcquireCaller.advance
    rw [hfinishing]
  have hstate : (world.advance index answer).state = world.state.finish key flight result := by
    rw [advance_of_caller hcaller, hfinishing]
    rfl
  have hactive : (world.advance index answer).state.active = Function.update world.state.active key none := by
    rw [hstate]
    rfl
  have hflights : (world.advance index answer).state.flights =
      Function.update world.state.flights flight (some result) := by
    rw [hstate]
    rfl
  have hmine : world.Loads index key flight := by
    rw [loads_iff hcaller, hfinishing]
    rfl
  have hflying := (h.owner index key flight hmine).1
  -- The other owners have other keys and flights.
  have hrest : ∀ other key' flight', (world.advance index answer).Loads other key' flight' →
      other ≠ index ∧ world.Loads other key' flight' ∧ key' ≠ key ∧ flight' ≠ flight := by
    intro other key' flight' hload
    have hother : other ≠ index := by
      rintro rfl
      rw [loads_advance_self hcaller, hnext] at hload
      cases hload
    rw [loads_advance_other hcaller answer hother] at hload
    refine ⟨hother, hload, ?_, ?_⟩
    · rintro rfl
      have hsame := (h.owner other key' flight' hload).1.symm.trans hflying
      rw [Option.some.inj hsame] at hload
      exact hother (h.unique other index key' key' flight hload hmine)
    · rintro rfl
      exact hother (h.unique other index key' key flight' hload hmine)
  constructor
  case owner =>
    intro other key' flight' hload
    obtain ⟨-, hold, hkey, hflight⟩ := hrest other key' flight' hload
    rw [hactive, hflights, Function.update_of_ne hkey, Function.update_of_ne hflight]
    exact h.owner other key' flight' hold
  case active =>
    intro key' flight' hkey
    rw [hactive, Function.update_apply] at hkey
    split_ifs at hkey with hsame
    obtain ⟨other, hload⟩ := h.active key' flight' hkey
    have hother : other ≠ index := by
      rintro rfl
      rw [loads_iff hcaller, hfinishing] at hload
      exact hsame (Prod.mk.inj (Option.some.inj hload)).1.symm
    exact ⟨other, (loads_advance_other hcaller answer hother key' flight').mpr hload⟩
  case unique =>
    intro other other' key' key'' flight' hload hload'
    exact h.unique other other' key' key'' flight' (hrest _ _ _ hload).2.1 (hrest _ _ _ hload').2.1
  case follows =>
    intro other key' flight' hfollow
    have hother : other ≠ index := by
      rintro rfl
      unfold MetadataWorld.Follows at hfollow
      rw [phaseOf_advance_self hcaller, hnext] at hfollow
      cases hfollow
    rw [follows_advance_other hcaller answer hother] at hfollow
    rw [hactive, hflights]
    by_cases hflight : flight' = flight
    · right
      rw [hflight, Function.update_self]
      exact Option.some_ne_none result
    · rw [Function.update_of_ne hflight]
      rcases h.follows other key' flight' hfollow with hkey | hresult
      · left
        rw [Function.update_of_ne]
        · exact hkey
        · rintro rfl
          exact hflight (Option.some.inj (hkey.symm.trans hflying))
      · exact .inr hresult
  case sleeps =>
    intro other key' flight' hsleep
    have hother : other ≠ index := by
      rintro rfl
      unfold MetadataWorld.Sleeps at hsleep
      rw [phaseOf_advance_self hcaller, hnext] at hsleep
      cases hsleep
    obtain ⟨hold, hapart⟩ := sleeps_of_advance_other hcaller hother hsleep
    rw [hflights, Function.update_of_ne]
    · exact h.sleeps other key' flight' hold
    · rintro rfl
      exact hapart key result hfinishing
  case fresh =>
    intro flight' hle
    have hle' : world.state.nextFlight ≤ flight' := by
      rw [hstate] at hle
      exact hle
    obtain ⟨hflight, hkeys⟩ := h.fresh flight' hle'
    have hne : flight' ≠ flight := by
      rintro rfl
      exact hkeys key hflying
    rw [hflights, hactive, Function.update_of_ne hne]
    refine ⟨hflight, ?_⟩
    intro key'
    rw [Function.update_apply]
    split_ifs
    · exact nofun
    · exact hkeys key'
  case callers => exact callers_advance h hcaller

lemma FlightInv.advance (h : FlightInv world) (index : ℕ) (answer : AcquireAnswer φ α) :
    FlightInv (world.advance index answer) := by
  cases hcaller : world.callers index with
  | none =>
    rw [advance_of_none hcaller]
    exact h
  | some caller =>
    rcases advance_cases caller world answer with ⟨key, hseeking, hnone, hnext⟩ |
      ⟨key, flight, result, hfinishing, -⟩ | ⟨key, flight, hseeking, hsome, hnext⟩ | hquiet
    · exact h.begins hcaller hseeking hnone hnext
    · exact h.finishes hcaller hfinishing
    · have hstate : (world.advance index answer).state = world.state := by
        rw [advance_of_caller hcaller, hseeking, hnext]
        rfl
      refine h.transport (by rw [hstate]) (by rw [hstate]) (by rw [hstate]) ?_ ?_ ?_ (callers_advance h hcaller)
      · intro other key' flight'
        by_cases hother : other = index
        · rw [hother, loads_advance_self hcaller, loads_iff hcaller, hseeking, hnext]
          exact Iff.rfl
        · exact loads_advance_other hcaller answer hother key' flight'
      · intro other key' flight' hfollow
        by_cases hother : other = index
        · unfold MetadataWorld.Follows at hfollow
          rw [hother, phaseOf_advance_self hcaller, hnext] at hfollow
          obtain ⟨rfl, rfl⟩ := Prod.mk.inj (Option.some.inj hfollow)
          exact .inr hsome
        · exact .inl ((follows_advance_other hcaller answer hother key' flight').mp hfollow)
      · intro other key' flight' hsleep
        by_cases hother : other = index
        · unfold MetadataWorld.Sleeps at hsleep
          rw [hother, phaseOf_advance_self hcaller, hnext] at hsleep
          cases hsleep
        · exact h.sleeps other key' flight' (sleeps_of_advance_other hcaller hother hsleep).1
    · have hstate : (world.advance index answer).state = world.state := by
        rw [advance_of_caller hcaller]
        exact hquiet.after world.state
      refine h.transport (by rw [hstate]) (by rw [hstate]) (by rw [hstate]) ?_ ?_ ?_ (callers_advance h hcaller)
      · intro other key' flight'
        by_cases hother : other = index
        · rw [hother, loads_advance_self hcaller, loads_iff hcaller, hquiet.flight]
        · exact loads_advance_other hcaller answer hother key' flight'
      · intro other key' flight' hfollow
        left
        by_cases hother : other = index
        · unfold MetadataWorld.Follows at hfollow ⊢
          rw [hother, phaseOf_advance_self hcaller] at hfollow
          rw [hother, phaseOf_of_caller hcaller]
          rcases hquiet.follows with hnone | hsame
          · exact absurd (hnone.symm.trans hfollow) nofun
          · exact hsame.symm.trans hfollow
        · exact (follows_advance_other hcaller answer hother key' flight').mp hfollow
      · intro other key' flight' hsleep
        by_cases hother : other = index
        · unfold MetadataWorld.Sleeps at hsleep
          rw [hother, phaseOf_advance_self hcaller] at hsleep
          exact hquiet.asleep key' flight' (Option.some.inj hsleep)
        · exact h.sleeps other key' flight' (sleeps_of_advance_other hcaller hother hsleep).1

lemma FlightInv.step (h : FlightInv world) (event : MetadataEvent φ α) : FlightInv (world.step event) := by
  cases event with
  | call request =>
    have hphases : ∀ other, (world.step (.call request)).phaseOf other =
        if other = world.nextCaller then some .started else world.phaseOf other := by
      intro other
      unfold MetadataWorld.phaseOf MetadataWorld.step
      dsimp only
      rw [Function.update_apply]
      split_ifs <;> rfl
    have hnew : world.phaseOf world.nextCaller = none := by
      unfold MetadataWorld.phaseOf
      rw [h.callers _ le_rfl]
      rfl
    refine h.transport rfl rfl rfl ?_ ?_ ?_ ?_
    · intro other key flight
      unfold MetadataWorld.Loads
      rw [hphases]
      split_ifs with hother
      · rw [hother, hnew]
        exact iff_of_false nofun nofun
      · exact Iff.rfl
    · intro other key flight hfollow
      unfold MetadataWorld.Follows at hfollow ⊢
      rw [hphases] at hfollow
      split_ifs at hfollow with hother
      · cases hfollow
      · exact .inl hfollow
    · intro other key flight hsleep
      unfold MetadataWorld.Sleeps at hsleep
      rw [hphases] at hsleep
      split_ifs at hsleep with hother
      · cases hsleep
      · exact h.sleeps other key flight hsleep
    · intro other hle
      have hlt : world.nextCaller < other := hle
      unfold MetadataWorld.step
      dsimp only
      rw [Function.update_of_ne hlt.ne']
      exact h.callers other hlt.le
  | cancel index =>
    refine h.same rfl rfl rfl ?_ ?_
    · intro other
      unfold MetadataWorld.phaseOf MetadataWorld.step
      dsimp only
      rw [Function.update_apply]
      split_ifs with hother
      · rw [hother, Option.map_map]
        rfl
      · rfl
    · intro other hle
      have hnone := h.callers other hle
      unfold MetadataWorld.step
      dsimp only
      rw [Function.update_apply]
      split_ifs with hother
      · rw [← hother, hnone]
        rfl
      · exact hnone
  | tick => exact h.same rfl rfl rfl (fun _ => rfl) h.callers
  | newEpoch => exact h.same rfl rfl rfl (fun _ => rfl) h.callers
  | markDirty packageRoot => exact h.same rfl rfl rfl (fun _ => rfl) h.callers
  | clear => exact h.same rfl rfl rfl (fun _ => rfl) h.callers
  | advance index answer => exact h.advance index answer

end

/-- The invariant holds after every run. -/
theorem flightInv_after (epoch : ℕ) (events : List (MetadataEvent φ α)) :
    FlightInv (MetadataWorld.after epoch events) :=
  Runs.invariant (fun _ event h => h.step event) (flightInv_start epoch)

end AgzRustMcp.Workspace
