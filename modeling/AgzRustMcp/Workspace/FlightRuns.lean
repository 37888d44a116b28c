import AgzRustMcp.Workspace.FlightOwners

/-!
# Runs of the metadata service

Whatever the callers do: one caller loads for a key, a follower never takes over how another request
was stopped, and a snapshot gets into the cache only from a load during which nothing changed
(`metadata_single_flight`).  The last point is lost when the generations are forgotten (`clear`)
during the run.
-/

namespace AgzRustMcp.Workspace

variable {φ α : Type}

/-! ## Stopped requests -/

def AcquireCaller.IsStopped (caller : AcquireCaller φ α) (now : ℕ) : Stop → Prop
  | .cancelled => caller.cancelled = true
  | .timedOut => ∃ deadline, caller.request.deadline = some deadline ∧ deadline ≤ now

/-- How a phase ends, or will end, when its request was stopped. -/
def AcquirePhase.stop? : AcquirePhase φ α → Option Stop
  | .finishing _ _ (.error (.stopped stop)) => some stop
  | .done (.error (.stopped stop)) => some stop
  | _ => none

variable {caller : AcquireCaller φ α} {now flight index : ℕ} {stop : Stop}
  {world : MetadataWorld φ α} {phase : AcquirePhase φ α} {event : MetadataEvent φ α} {key : MetadataKey φ}

lemma isStopped_of_checkpoint (h : caller.checkpoint now = some stop) : caller.IsStopped now stop := by
  unfold AcquireCaller.checkpoint at h
  split at h
  · cases h
  · rename_i deadline hdeadline
    split_ifs at h with hcancelled hpast
    · obtain rfl := Option.some.inj h
      exact hcancelled
    · obtain rfl := Option.some.inj h
      exact ⟨deadline, hdeadline, hpast⟩

lemma AcquireCaller.IsStopped.later {now' : ℕ}
    (h : caller.IsStopped now stop) (hle : now ≤ now') : caller.IsStopped now' stop := by
  cases stop with
  | cancelled => exact h
  | timedOut =>
    obtain ⟨deadline, hdeadline, hpast⟩ := h
    exact ⟨deadline, hdeadline, hpast.trans hle⟩

lemma stop_beside (before phase : AcquirePhase φ α) : (before.beside phase).stop? = phase.stop? := by
  cases before with
  | finishing key flight result =>
    cases phase with
    | asleep key' flight' =>
      rw [AcquirePhase.beside, AcquirePhase.notified]
      split_ifs <;> rfl
    | _ => rfl
  | _ => rfl

lemma stop_of_stopOr {stopped : MetadataError → AcquirePhase φ α}
    {next : AcquirePhase φ α} (hstopped : ∀ found, (stopped (.stopped found)).stop? = some found)
    (hnext : next.stop? = none) (h : (caller.stopOr now stopped next).stop? = some stop) :
    caller.IsStopped now stop := by
  unfold AcquireCaller.stopOr at h
  split at h
  · rename_i found hfound
    rw [hstopped] at h
    obtain rfl := Option.some.inj h
    exact isStopped_of_checkpoint hfound
  · rw [hnext] at h
    cases h

lemma stop_takeResult (key : MetadataKey φ) (result : Except MetadataError α) :
    (takeResult key result).stop? = none := by
  cases result with
  | ok snapshot => rfl
  | error error => cases error <;> rfl

variable [DecidableEq φ]

lemma stop_of_advance {answer : AcquireAnswer φ α} (h : (caller.advance world answer).stop? = some stop) :
    caller.phase.stop? = some stop ∨ caller.IsStopped world.now stop ∨ answer = .reported stop := by
  unfold AcquireCaller.advance at h
  cases hphase : caller.phase with
  | started =>
    rw [hphase] at h
    refine .inr (.inl (stop_of_stopOr (fun _ => rfl) ?_ h))
    split_ifs <;> rfl
  | surveying generation =>
    rw [hphase] at h
    cases answer with
    | surveyed fingerprint => cases fingerprint <;> cases h
    | failed message => cases h
    | _ => exact .inr (.inl (stop_of_stopOr (fun _ => rfl) rfl h))
  | bypassing =>
    rw [hphase] at h
    cases answer with
    | failed message => cases h
    | reported found =>
      obtain rfl : found = stop := Option.some.inj h
      exact .inr (.inr rfl)
    | _ => exact .inr (.inl (stop_of_stopOr (fun _ => rfl) rfl h))
  | seeking key =>
    rw [hphase] at h
    refine .inr (.inl (stop_of_stopOr (fun _ => rfl) ?_ h))
    cases world.state.cache key with
    | some snapshot => rfl
    | none => cases world.state.active key <;> rfl
  | waiting key flight =>
    rw [hphase] at h
    dsimp only at h
    split at h
    · rename_i result _
      exact absurd ((stop_takeResult key result).symm.trans h) nofun
    · exact .inr (.inl (stop_of_stopOr (fun _ => rfl) rfl h))
  | asleep key flight =>
    rw [hphase] at h
    cases h
  | loading key flight =>
    rw [hphase] at h
    cases answer with
    | failed message => cases h
    | reported found =>
      obtain rfl : found = stop := Option.some.inj h
      exact .inr (.inr rfl)
    | _ => exact .inr (.inl (stop_of_stopOr (fun _ => rfl) rfl h))
  | verifying key flight snapshot =>
    rw [hphase] at h
    cases answer with
    | surveyed fingerprint =>
      dsimp only at h
      unfold verifyFingerprint at h
      split_ifs at h <;> cases h
    | failed message => cases h
    | _ => exact .inr (.inl (stop_of_stopOr (fun _ => rfl) rfl h))
  | finishing key flight result =>
    rw [hphase] at h
    left
    cases result with
    | ok snapshot => cases h
    | error error =>
      cases error with
      | stopped found => exact h
      | _ => cases h
  | done result =>
    rw [hphase] at h
    exact .inl h

/-- A stop that a caller ends with is its own, or the one of its own runner. -/
def StopsAreOwn (events : List (MetadataEvent φ α)) (world : MetadataWorld φ α) : Prop :=
  ∀ index caller, world.callers index = some caller → ∀ stop, caller.phase.stop? = some stop →
    caller.IsStopped world.now stop ∨ .advance index (.reported stop) ∈ events

lemma StopsAreOwn.step {events : List (MetadataEvent φ α)}
    (h : StopsAreOwn events world) (event : MetadataEvent φ α) :
    StopsAreOwn (events ++ [event]) (world.step event) := by
  -- What is true of a caller stays true.
  have hkeep : ∀ index caller, world.callers index = some caller → ∀ now, world.now ≤ now →
      ∀ stop, caller.phase.stop? = some stop →
        caller.IsStopped now stop ∨ .advance index (.reported stop) ∈ events ++ [event] := by
    intro index caller hcaller now hle stop hstop
    rcases h index caller hcaller stop hstop with hown | hmem
    · exact .inl (hown.later hle)
    · exact .inr (List.mem_append_left _ hmem)
  intro index caller hcaller stop hstop
  cases event with
  | call request =>
    unfold MetadataWorld.step at hcaller
    dsimp only at hcaller
    rw [Function.update_apply] at hcaller
    split_ifs at hcaller
    · obtain rfl := Option.some.inj hcaller
      cases hstop
    · exact hkeep index caller hcaller _ le_rfl stop hstop
  | cancel index' =>
    unfold MetadataWorld.step at hcaller
    dsimp only at hcaller
    rw [Function.update_apply] at hcaller
    split_ifs at hcaller with hsame
    · obtain ⟨before, hbefore, rfl⟩ := Option.map_eq_some_iff.mp hcaller
      rw [← hsame] at hbefore
      rcases hkeep index before hbefore _ le_rfl stop hstop with hown | hmem
      · left
        cases stop with
        | cancelled => rfl
        | timedOut => exact hown
      · exact .inr hmem
    · exact hkeep index caller hcaller _ le_rfl stop hstop
  | tick => exact hkeep index caller hcaller _ (Nat.le_succ _) stop hstop
  | newEpoch => exact hkeep index caller hcaller _ le_rfl stop hstop
  | markDirty packageRoot => exact hkeep index caller hcaller _ le_rfl stop hstop
  | clear => exact hkeep index caller hcaller _ le_rfl stop hstop
  | advance index' answer =>
    change (world.advance index' answer).callers index = some caller at hcaller
    change caller.IsStopped (world.advance index' answer).now stop ∨ _
    cases hfound : world.callers index' with
    | none =>
      rw [advance_of_none hfound] at hcaller ⊢
      exact hkeep index caller hcaller _ le_rfl stop hstop
    | some before =>
      rw [advance_of_caller hfound] at hcaller ⊢
      dsimp only at hcaller ⊢
      rw [Function.update_apply] at hcaller
      split_ifs at hcaller with hsame
      · obtain rfl := Option.some.inj hcaller
        rcases stop_of_advance hstop with hold | hown | hanswer
        · rw [hsame]
          exact hkeep index' before hfound _ le_rfl stop hold
        · exact .inl hown
        · right
          rw [hsame, hanswer]
          exact List.mem_append_right _ List.mem_cons_self
      · obtain ⟨beside, hbeside, rfl⟩ := Option.map_eq_some_iff.mp hcaller
        have hstop' : beside.phase.stop? = some stop := (stop_beside before.phase beside.phase).symm.trans hstop
        exact hkeep index beside hbeside _ le_rfl stop hstop'

lemma after_concat (epoch : ℕ) (events : List (MetadataEvent φ α)) (event : MetadataEvent φ α) :
    MetadataWorld.after epoch (events ++ [event]) = (MetadataWorld.after epoch events).step event :=
  Runs.run_append

lemma stopsAreOwn_after (epoch : ℕ) (events : List (MetadataEvent φ α)) :
    StopsAreOwn events (MetadataWorld.after epoch events) := by
  induction events using List.reverseRecOn with
  | nil => exact fun index caller h => by cases h
  | append_singleton events event ih =>
    rw [after_concat]
    exact ih.step event

/-! ## Generations -/

def AcquirePhase.key? : AcquirePhase φ α → Option (MetadataKey φ)
  | .seeking key => some key
  | .waiting key _ => some key
  | .asleep key _ => some key
  | .loading key _ => some key
  | .verifying key _ _ => some key
  | .finishing key _ _ => some key
  | _ => none

/-- A phase holds no generation that the package has not reached. -/
structure AcquirePhase.Reached (phase : AcquirePhase φ α) (packageRoot : Gate.FsPath)
    (generations : Gate.FsPath → ℕ) : Prop where
  surveying : ∀ generation, phase = .surveying generation → generation ≤ generations packageRoot
  key : ∀ key, phase.key? = some key → key.generation ≤ generations key.packageRoot

omit [DecidableEq φ] in
lemma key_beside (before phase : AcquirePhase φ α) : (before.beside phase).key? = phase.key? := by
  cases before with
  | finishing key flight result =>
    cases phase with
    | asleep key' flight' =>
      rw [AcquirePhase.beside, AcquirePhase.notified]
      split_ifs <;> rfl
    | _ => rfl
  | _ => rfl

omit [DecidableEq φ] in
lemma eq_surveying_of_beside {before : AcquirePhase φ α} {generation : ℕ}
    (h : before.beside phase = .surveying generation) : phase = .surveying generation := by
  cases before with
  | finishing key flight result =>
    cases phase with
    | asleep key' flight' =>
      rw [AcquirePhase.beside, AcquirePhase.notified] at h
      split_ifs at h
    | _ => exact h
  | _ => exact h

section

variable {packageRoot : Gate.FsPath} {generations : Gate.FsPath → ℕ} {phase : AcquirePhase φ α}

omit [DecidableEq φ] in
lemma reached_of_key {key : MetadataKey φ} (hreached : key.generation ≤ generations key.packageRoot)
    (hkey : phase.key? = none ∨ phase.key? = some key) (hphase : ∀ generation, phase ≠ .surveying generation) :
    phase.Reached packageRoot generations := by
  refine ⟨fun generation hsame => absurd hsame (hphase generation), ?_⟩
  intro key' hkey'
  rcases hkey with hnone | hsome
  · rw [hnone] at hkey'
    cases hkey'
  · obtain rfl := Option.some.inj (hsome.symm.trans hkey')
    exact hreached

omit [DecidableEq φ] in
lemma reached_stopOr {caller : AcquireCaller φ α} {now : ℕ} {stopped : MetadataError → AcquirePhase φ α}
    (hnext : phase.Reached packageRoot generations)
    (hstopped : ∀ error, (stopped error).Reached packageRoot generations) :
    (caller.stopOr now stopped phase).Reached packageRoot generations := by
  unfold AcquireCaller.stopOr
  split
  · exact hstopped _
  · exact hnext

omit [DecidableEq φ] in
lemma AcquirePhase.Reached.mono {later : Gate.FsPath → ℕ} (h : phase.Reached packageRoot generations)
    (hle : ∀ root, generations root ≤ later root) : phase.Reached packageRoot later :=
  ⟨fun generation hsame => (h.surveying generation hsame).trans (hle _),
    fun key hkey => (h.key key hkey).trans (hle _)⟩

omit [DecidableEq φ] in
lemma AcquirePhase.Reached.beside (h : phase.Reached packageRoot generations) (before : AcquirePhase φ α) :
    (before.beside phase).Reached packageRoot generations :=
  ⟨fun generation hsame => h.surveying generation (eq_surveying_of_beside hsame),
    fun key hkey => h.key key ((key_beside before phase).symm.trans hkey)⟩

end

lemma reached_advance (h : caller.phase.Reached caller.request.packageRoot world.state.generations)
    (answer : AcquireAnswer φ α) :
    (caller.advance world answer).Reached caller.request.packageRoot world.state.generations := by
  have hkeyless : ∀ phase : AcquirePhase φ α, phase.key? = none → (∀ generation, phase ≠ .surveying generation) →
      phase.Reached caller.request.packageRoot world.state.generations := by
    intro phase hkey hphase
    refine ⟨fun generation hsame => absurd hsame (hphase generation), ?_⟩
    intro key hsome
    rw [hkey] at hsome
    cases hsome
  have hfails : ∀ error, (AcquirePhase.fails error : AcquirePhase φ α).Reached caller.request.packageRoot
      world.state.generations := fun error => hkeyless _ rfl nofun
  unfold AcquireCaller.advance
  cases hphase : caller.phase with
  | started =>
    refine reached_stopOr ?_ hfails
    split_ifs
    · refine ⟨?_, nofun⟩
      intro generation hsame
      obtain rfl := AcquirePhase.surveying.inj hsame
      exact le_rfl
    · exact hfails _
  | surveying generation =>
    have hread := h.surveying generation hphase
    rw [hphase] at h
    cases answer with
    | surveyed fingerprint =>
      cases fingerprint with
      | none => exact hkeyless _ rfl nofun
      | some fingerprint =>
        have hreached : (caller.request.key generation fingerprint).generation ≤
            world.state.generations (caller.request.key generation fingerprint).packageRoot := hread
        exact reached_of_key hreached (.inr rfl) nofun
    | failed message => exact hfails _
    | _ => exact reached_stopOr h hfails
  | bypassing =>
    cases answer with
    | failed message => exact hfails _
    | reported stop => exact hfails _
    | _ => exact reached_stopOr (hkeyless _ rfl nofun) hfails
  | seeking key =>
    rw [hphase] at h
    refine reached_stopOr ?_ hfails
    cases world.state.cache key with
    | some snapshot => exact hkeyless _ rfl nofun
    | none =>
      cases world.state.active key with
      | some flight => exact reached_of_key (h.key key rfl) (.inr rfl) nofun
      | none => exact reached_of_key (h.key key rfl) (.inr rfl) nofun
  | waiting key flight =>
    rw [hphase] at h
    dsimp only
    cases world.state.flights flight with
    | some result =>
      cases result with
      | ok snapshot => exact hkeyless _ rfl nofun
      | error error =>
        cases error with
        | stopped stop => exact reached_of_key (h.key key rfl) (.inr rfl) nofun
        | _ => exact hfails _
    | none => exact reached_stopOr (reached_of_key (h.key key rfl) (.inr rfl) nofun) hfails
  | asleep key flight =>
    rw [hphase] at h
    exact reached_of_key (h.key key rfl) (.inr rfl) nofun
  | loading key flight =>
    rw [hphase] at h
    have hfinishing : ∀ result, (AcquirePhase.finishing key flight result : AcquirePhase φ α).Reached
        caller.request.packageRoot world.state.generations :=
      fun result => reached_of_key (h.key key rfl) (.inr rfl) nofun
    cases answer with
    | loaded snapshot => exact reached_stopOr (reached_of_key (h.key key rfl) (.inr rfl) nofun) fun _ => hfinishing _
    | failed message => exact hfinishing _
    | reported stop => exact hfinishing _
    | _ => exact reached_stopOr h fun _ => hfinishing _
  | verifying key flight snapshot =>
    rw [hphase] at h
    have hfinishing : ∀ result, (AcquirePhase.finishing key flight result : AcquirePhase φ α).Reached
        caller.request.packageRoot world.state.generations :=
      fun result => reached_of_key (h.key key rfl) (.inr rfl) nofun
    cases answer with
    | surveyed fingerprint =>
      dsimp only
      unfold verifyFingerprint
      split_ifs <;> exact hfinishing _
    | failed message => exact hfinishing _
    | _ => exact reached_stopOr h fun _ => hfinishing _
  | finishing key flight result => exact hkeyless _ rfl nofun
  | done result => exact hkeyless _ rfl nofun

/-! ## The generations of a run -/

lemma generations_advance (world : MetadataWorld φ α) (index : ℕ) (answer : AcquireAnswer φ α) :
    (world.advance index answer).state.generations = world.state.generations := by
  cases hcaller : world.callers index with
  | none => rw [advance_of_none hcaller]
  | some caller =>
    rw [advance_of_caller hcaller]
    dsimp only
    unfold MetadataState.after
    split <;> rfl

lemma generations_step (world : MetadataWorld φ α) (h : event ≠ .clear)
    (root : Gate.FsPath) : world.state.generations root ≤ (world.step event).state.generations root := by
  cases event with
  | markDirty packageRoot =>
    change _ ≤ Function.update world.state.generations packageRoot (world.state.generations packageRoot + 1) root
    rw [Function.update_apply]
    split_ifs with hsame
    · rw [hsame]
      exact Nat.le_succ _
    · exact le_rfl
  | clear => exact absurd rfl h
  | advance index answer =>
    change _ ≤ (world.advance index answer).state.generations root
    rw [generations_advance]
  | _ => exact le_rfl

lemma generations_markDirty (world : MetadataWorld φ α) (root : Gate.FsPath) :
    (world.step (.markDirty root)).state.generations root = world.state.generations root + 1 :=
  Function.update_self _ _ _

/-- Nobody holds a generation ahead of its package. -/
def GenerationsReached (events : List (MetadataEvent φ α)) (world : MetadataWorld φ α) : Prop :=
  .clear ∈ events ∨ ∀ index caller, world.callers index = some caller →
    caller.phase.Reached caller.request.packageRoot world.state.generations

lemma GenerationsReached.step {events : List (MetadataEvent φ α)}
    (h : GenerationsReached events world) (event : MetadataEvent φ α) :
    GenerationsReached (events ++ [event]) (world.step event) := by
  rcases h with hclear | h
  · exact .inl (List.mem_append_left _ hclear)
  by_cases hevent : event = .clear
  · left
    rw [hevent]
    exact List.mem_append_right _ List.mem_cons_self
  right
  have hgrow := generations_step world hevent
  intro index caller hcaller
  cases event with
  | call request =>
    unfold MetadataWorld.step at hcaller
    dsimp only at hcaller
    rw [Function.update_apply] at hcaller
    split_ifs at hcaller
    · obtain rfl := Option.some.inj hcaller
      exact ⟨nofun, nofun⟩
    · exact h index caller hcaller
  | cancel index' =>
    unfold MetadataWorld.step at hcaller
    dsimp only at hcaller
    rw [Function.update_apply] at hcaller
    split_ifs at hcaller with hsame
    · obtain ⟨before, hbefore, rfl⟩ := Option.map_eq_some_iff.mp hcaller
      exact h index' before hbefore
    · exact h index caller hcaller
  | tick => exact h index caller hcaller
  | newEpoch => exact h index caller hcaller
  | markDirty packageRoot => exact (h index caller hcaller).mono hgrow
  | clear => exact absurd rfl hevent
  | advance index' answer =>
    change (world.advance index' answer).callers index = some caller at hcaller
    change caller.phase.Reached _ (world.advance index' answer).state.generations
    rw [generations_advance]
    cases hfound : world.callers index' with
    | none =>
      rw [advance_of_none hfound] at hcaller
      exact h index caller hcaller
    | some before =>
      rw [advance_of_caller hfound] at hcaller
      dsimp only at hcaller
      rw [Function.update_apply] at hcaller
      split_ifs at hcaller with hsame
      · obtain rfl := Option.some.inj hcaller
        exact reached_advance (h index' before hfound) answer
      · obtain ⟨beside, hbeside, rfl⟩ := Option.map_eq_some_iff.mp hcaller
        exact (h index beside hbeside).beside before.phase

lemma generationsReached_after (epoch : ℕ) (events : List (MetadataEvent φ α)) :
    GenerationsReached events (MetadataWorld.after epoch events) := by
  induction events using List.reverseRecOn with
  | nil => exact .inr fun index caller h => by cases h
  | append_singleton events event ih =>
    rw [after_concat]
    exact ih.step event

/-! ## Loads -/

/-- A caller begins a load with the last one of the events. -/
def BeginsLoad (epoch : ℕ) (events : List (MetadataEvent φ α)) (index : ℕ) (key : MetadataKey φ)
    (flight : ℕ) : Prop :=
  ∃ earlier answer, events = earlier ++ [.advance index answer] ∧
    (MetadataWorld.after epoch earlier).phaseOf index = some (.seeking key) ∧
    (MetadataWorld.after epoch events).phaseOf index = some (.loading key flight)

/-- A caller with a snapshot finds the fingerprint of its key again. -/
def FindsAgain (epoch : ℕ) (before since : List (MetadataEvent φ α)) (index : ℕ) (key : MetadataKey φ)
    (flight : ℕ) (snapshot : α) : Prop :=
  ∃ earlier later, since = earlier ++ .advance index (.surveyed (some key.graphFingerprint)) :: later ∧
    (MetadataWorld.after epoch (before ++ earlier)).phaseOf index = some (.verifying key flight snapshot)

/-- Since a load was begun its package has a later generation, unless it was not marked dirty or the
generations were forgotten; a snapshot is ready only when the fingerprint was found again. -/
structure LoadedSince (epoch : ℕ) (before since : List (MetadataEvent φ α)) (index : ℕ) (key : MetadataKey φ)
    (flight : ℕ) (phase : AcquirePhase φ α) : Prop where
  begins : BeginsLoad epoch before index key flight
  unmarked : .clear ∈ before ++ since ∨ .markDirty key.packageRoot ∉ since ∨
    key.generation < (MetadataWorld.after epoch (before ++ since)).state.generations key.packageRoot
  again : ∀ snapshot, phase = .finishing key flight (.ok snapshot) →
    FindsAgain epoch before since index key flight snapshot

lemma finishing_of_advance {answer : AcquireAnswer φ α} {snapshot : α}
    (h : caller.advance world answer = .finishing key flight (.ok snapshot)) :
    caller.phase = .verifying key flight snapshot ∧ answer = .surveyed (some key.graphFingerprint) := by
  have hstopOr : ∀ {now : ℕ} {stopped : MetadataError → AcquirePhase φ α} {next : AcquirePhase φ α},
      (∀ error, stopped error ≠ .finishing key flight (.ok snapshot)) →
        next ≠ .finishing key flight (.ok snapshot) →
          caller.stopOr now stopped next ≠ .finishing key flight (.ok snapshot) := by
    intro now stopped next hstopped hnext
    unfold AcquireCaller.stopOr
    split
    · exact hstopped _
    · exact hnext
  unfold AcquireCaller.advance at h
  cases hphase : caller.phase with
  | started =>
    rw [hphase] at h
    refine absurd h (hstopOr nofun ?_)
    split_ifs <;> exact nofun
  | surveying generation =>
    rw [hphase] at h
    cases answer with
    | surveyed fingerprint => cases fingerprint <;> cases h
    | failed message => cases h
    | _ => exact absurd h (hstopOr nofun nofun)
  | bypassing =>
    rw [hphase] at h
    cases answer with
    | failed message => cases h
    | reported stop => cases h
    | _ => exact absurd h (hstopOr nofun nofun)
  | seeking key' =>
    rw [hphase] at h
    refine absurd h (hstopOr nofun ?_)
    cases world.state.cache key' with
    | some found => exact nofun
    | none => cases world.state.active key' <;> exact nofun
  | waiting key' flight' =>
    rw [hphase] at h
    dsimp only at h
    split at h
    · rename_i result _
      cases result with
      | ok found => cases h
      | error error => cases error <;> cases h
    · exact absurd h (hstopOr nofun nofun)
  | asleep key' flight' =>
    rw [hphase] at h
    cases h
  | loading key' flight' =>
    rw [hphase] at h
    cases answer with
    | failed message => cases h
    | reported stop => cases h
    | _ => exact absurd h (hstopOr nofun nofun)
  | verifying key' flight' found =>
    rw [hphase] at h
    cases answer with
    | surveyed fingerprint =>
      dsimp only at h
      unfold verifyFingerprint at h
      split_ifs at h with hfingerprint
      · obtain ⟨rfl, rfl, hfound⟩ := AcquirePhase.finishing.inj h
        obtain rfl := Except.ok.inj hfound
        exact ⟨rfl, congrArg _ hfingerprint⟩
      · cases h
    | failed message => cases h
    | _ => exact absurd h (hstopOr nofun nofun)
  | finishing key' flight' result =>
    rw [hphase] at h
    cases h
  | done result =>
    rw [hphase] at h
    cases h

omit [DecidableEq φ] in
lemma beside_of_owner {before : AcquirePhase φ α} (h : (before.beside phase).flight? ≠ none) :
    before.beside phase = phase := by
  cases before with
  | finishing key flight result =>
    cases phase with
    | asleep key' flight' => exact absurd (flights_beside _ _).1 h
    | _ => rfl
  | _ => rfl

lemma phaseOf_of_step (hphase : (world.step event).phaseOf index = some phase)
    (hflight : phase.flight? ≠ none) (hevent : ∀ answer, event ≠ .advance index answer) :
    world.phaseOf index = some phase := by
  unfold MetadataWorld.phaseOf at hphase ⊢
  cases event with
  | call request =>
    unfold MetadataWorld.step at hphase
    dsimp only at hphase
    rw [Function.update_apply] at hphase
    split_ifs at hphase
    · obtain rfl := Option.some.inj hphase
      exact absurd rfl hflight
    · exact hphase
  | cancel index' =>
    unfold MetadataWorld.step at hphase
    dsimp only at hphase
    rw [Function.update_apply] at hphase
    split_ifs at hphase with hsame
    · rw [hsame]
      rw [Option.map_map] at hphase
      exact hphase
    · exact hphase
  | tick => exact hphase
  | newEpoch => exact hphase
  | markDirty packageRoot => exact hphase
  | clear => exact hphase
  | advance index' answer =>
    have hother : index ≠ index' := by
      rintro rfl
      exact hevent answer rfl
    cases hfound : world.callers index' with
    | none =>
      have hsame : world.step (.advance index' answer) = world := advance_of_none hfound answer
      rw [hsame] at hphase
      exact hphase
    | some caller =>
      have hbeside := phaseOf_advance_other hfound answer hother
      unfold MetadataWorld.phaseOf at hbeside
      change ((world.advance index' answer).callers index).map AcquireCaller.phase = some phase at hphase
      rw [hbeside] at hphase
      obtain ⟨before, hbefore, hsame⟩ := Option.map_eq_some_iff.mp hphase
      rw [hbefore, ← hsame, beside_of_owner (by rw [hsame]; exact hflight)]

section

variable {epoch : ℕ} {before since : List (MetadataEvent φ α)} {index : ℕ} {key : MetadataKey φ} {flight : ℕ}
  {phase next : AcquirePhase φ α}

lemma LoadedSince.concat (h : LoadedSince epoch before since index key flight phase)
    (hreached : .clear ∈ before ++ since ∨
      key.generation ≤ (MetadataWorld.after epoch (before ++ since)).state.generations key.packageRoot)
    (event : MetadataEvent φ α) (hagain : ∀ snapshot, next = .finishing key flight (.ok snapshot) → phase = next ∨
      (phase = .verifying key flight snapshot ∧ event = .advance index (.surveyed (some key.graphFingerprint)) ∧
        (MetadataWorld.after epoch (before ++ since)).phaseOf index = some phase)) :
    LoadedSince epoch before (since ++ [event]) index key flight next where
  begins := h.begins
  unmarked := by
    rw [← List.append_assoc, after_concat]
    by_cases hclear : .clear ∈ before ++ since ++ [event]
    · exact .inl hclear
    right
    have hevent : event ≠ .clear := by
      rintro rfl
      exact hclear (List.mem_append_right _ List.mem_cons_self)
    have hbefore : .clear ∉ before ++ since := fun hmem => hclear (List.mem_append_left _ hmem)
    have hgrow := generations_step (MetadataWorld.after epoch (before ++ since)) hevent key.packageRoot
    have hunmarked := h.unmarked.resolve_left hbefore
    by_cases hmark : event = .markDirty key.packageRoot
    · right
      rw [hmark, generations_markDirty]
      exact Nat.lt_succ_of_le (hreached.resolve_left hbefore)
    · rcases hunmarked with hnot | hlater
      · left
        intro hmem
        rcases List.mem_append.mp hmem with hold | hnew
        · exact hnot hold
        · exact hmark (List.mem_singleton.mp hnew).symm
      · exact .inr (hlater.trans_le hgrow)
  again := by
    intro snapshot hnext
    rcases hagain snapshot hnext with hsame | ⟨hverifying, hevent, hphase⟩
    · obtain ⟨earlier, later, hsince, hphase⟩ := h.again snapshot (hsame.trans hnext)
      exact ⟨earlier, later ++ [event], by rw [hsince, List.append_assoc, List.cons_append], hphase⟩
    · exact ⟨since, [], by rw [hevent], by rw [hphase, hverifying]⟩

end

lemma loadedSince_after (epoch : ℕ) (events : List (MetadataEvent φ α))
    (hphase : (MetadataWorld.after epoch events).phaseOf index = some phase)
    (hflight : phase.flight? = some (key, flight)) :
    ∃ before since, events = before ++ since ∧ LoadedSince epoch before since index key flight phase := by
  induction events using List.reverseRecOn generalizing phase with
  | nil => cases hphase
  | append_singleton events event ih =>
    have hgenerations := generationsReached_after epoch events
    have hreached : ∀ caller, (MetadataWorld.after epoch events).callers index = some caller →
        caller.phase.key? = some key → .clear ∈ events ∨
          key.generation ≤ (MetadataWorld.after epoch events).state.generations key.packageRoot :=
      fun caller hcaller hkey => hgenerations.imp_right fun h => (h index caller hcaller).key key hkey
    have hkey : ∀ phase : AcquirePhase φ α, phase.flight? = some (key, flight) → phase.key? = some key := by
      intro phase hflight
      cases phase with
      | loading key' flight' => exact congrArg some (Prod.mk.inj (Option.some.inj hflight)).1
      | verifying key' flight' snapshot => exact congrArg some (Prod.mk.inj (Option.some.inj hflight)).1
      | finishing key' flight' result => exact congrArg some (Prod.mk.inj (Option.some.inj hflight)).1
      | _ => cases hflight
    rw [after_concat] at hphase
    by_cases hevent : ∃ answer, event = .advance index answer
    · obtain ⟨answer, rfl⟩ := hevent
      cases hcaller : (MetadataWorld.after epoch events).callers index with
      | none =>
        have hsame : (MetadataWorld.after epoch events).step (.advance index answer) =
            MetadataWorld.after epoch events := advance_of_none hcaller answer
        rw [hsame] at hphase
        unfold MetadataWorld.phaseOf at hphase
        rw [hcaller] at hphase
        cases hphase
      | some caller =>
        have hself := phaseOf_advance_self hcaller answer
        obtain rfl : caller.advance (MetadataWorld.after epoch events) answer = phase :=
          Option.some.inj (hself.symm.trans hphase)
        have hwas := phaseOf_of_caller hcaller
        rcases advance_cases caller (MetadataWorld.after epoch events) answer with ⟨key', hseeking, -, hnext⟩ |
          ⟨key', flight', result, -, hnext⟩ | ⟨key', flight', -, -, hnext⟩ | hquiet
        · -- The load begins here.
          rw [hnext] at hflight
          obtain ⟨rfl, rfl⟩ := Prod.mk.inj (Option.some.inj hflight)
          refine ⟨events ++ [.advance index answer], [], (List.append_nil _).symm, ?_, .inr (.inl nofun), ?_⟩
          · refine ⟨events, answer, rfl, by rw [hwas, hseeking], ?_⟩
            rw [after_concat]
            exact hphase.trans (congrArg some hnext)
          · intro snapshot hfinishing
            rw [hnext] at hfinishing
            cases hfinishing
        · rw [hnext] at hflight
          cases hflight
        · rw [hnext] at hflight
          cases hflight
        · rw [hquiet.flight] at hflight
          obtain ⟨before, since, rfl, hloaded⟩ := ih hwas hflight
          refine ⟨before, since ++ [.advance index answer], (List.append_assoc _ _ _), ?_⟩
          apply hloaded.concat (hreached caller hcaller (hkey _ hflight))
          intro snapshot hfinishing
          obtain ⟨hverifying, rfl⟩ := finishing_of_advance hfinishing
          exact .inr ⟨hverifying, rfl, hwas⟩
    · have hother : ∀ answer, event ≠ .advance index answer := fun answer hsame => hevent ⟨answer, hsame⟩
      have hwas := phaseOf_of_step hphase (by rw [hflight]; exact nofun) hother
      obtain ⟨caller, hcaller, hcallerphase⟩ := Option.map_eq_some_iff.mp hwas
      obtain ⟨before, since, rfl, hloaded⟩ := ih hwas hflight
      refine ⟨before, since ++ [event], List.append_assoc _ _ _, ?_⟩
      exact hloaded.concat (hreached caller hcaller (by rw [hcallerphase]; exact hkey _ hflight)) event
        fun _ _ => .inl rfl

lemma cache_step {snapshot : α} (h : (world.step event).state.cache key = some snapshot) :
    world.state.cache key = some snapshot ∨ ∃ index answer flight, event = .advance index answer ∧
      world.phaseOf index = some (.finishing key flight (.ok snapshot)) ∧
      world.state.generations key.packageRoot = key.generation := by
  cases event with
  | markDirty packageRoot =>
    left
    change (if key.packageRoot = packageRoot then none else world.state.cache key) = some snapshot at h
    split_ifs at h with hsame
    exact h
  | clear => cases h
  | advance index answer =>
    change (world.advance index answer).state.cache key = some snapshot at h
    cases hcaller : world.callers index with
    | none =>
      rw [advance_of_none hcaller] at h
      exact .inl h
    | some caller =>
      have hwas := phaseOf_of_caller hcaller
      rw [advance_of_caller hcaller] at h
      dsimp only at h
      unfold MetadataState.after at h
      split at h
      · exact .inl h
      · rename_i key' flight result hfinishing
        unfold MetadataState.finish at h
        cases result with
        | error error => exact .inl h
        | ok found =>
          dsimp only at h
          split_ifs at h with hgeneration
          · rw [Function.update_apply] at h
            split_ifs at h with hsame
            · obtain rfl := Option.some.inj h
              rw [hsame]
              exact .inr ⟨index, answer, flight, rfl, hwas.trans (congrArg some hfinishing), hgeneration⟩
            · exact .inl h
          · exact .inl h
      · exact .inl h
  | _ => exact .inl h

lemma flights_step (h : world.state.flights flight ≠ none)
    (event : MetadataEvent φ α) : (world.step event).state.flights flight ≠ none := by
  cases event with
  | advance index answer =>
    change (world.advance index answer).state.flights flight ≠ none
    cases hcaller : world.callers index with
    | none =>
      rw [advance_of_none hcaller]
      exact h
    | some caller =>
      rw [advance_of_caller hcaller]
      dsimp only
      unfold MetadataState.after
      split
      · exact h
      · rename_i key' flight' result _
        change Function.update world.state.flights flight' (some result) flight ≠ none
        rw [Function.update_apply]
        split_ifs
        · exact Option.some_ne_none _
        · exact h
      · exact h
  | _ => exact h

lemma flights_run (h : world.state.flights flight ≠ none) (events : List (MetadataEvent φ α)) :
    (Runs.run MetadataWorld.step world events).state.flights flight ≠ none := by
  induction events generalizing world with
  | nil => exact h
  | cons event events ih => exact ih (flights_step h event)

/-- A flight with a result is active for no key, and is left. -/
structure Released (world : MetadataWorld φ α) (flight : ℕ) : Prop where
  inactive : ∀ key, world.state.active key ≠ some flight
  awake : ∀ index key, ¬ world.Sleeps index key flight
  leaves : ∀ index key answer, ¬ (world.step (.advance index answer)).Follows index key flight

lemma FlightInv.released (h : FlightInv world)
    (hresult : world.state.flights flight ≠ none) : Released world flight := by
  have hinactive : ∀ key, world.state.active key ≠ some flight := by
    intro key hactive
    obtain ⟨index, hload⟩ := h.active key flight hactive
    exact hresult (h.owner index key flight hload).2
  have hawake : ∀ index key, ¬ world.Sleeps index key flight :=
    fun index key hsleep => hresult (h.sleeps index key flight hsleep)
  refine ⟨hinactive, hawake, ?_⟩
  intro index key answer hfollow
  change (world.advance index answer).Follows index key flight at hfollow
  unfold MetadataWorld.Follows at hfollow
  cases hcaller : world.callers index with
  | none =>
    rw [advance_of_none hcaller] at hfollow
    unfold MetadataWorld.phaseOf at hfollow
    rw [hcaller] at hfollow
    cases hfollow
  | some caller =>
    have hwas := phaseOf_of_caller hcaller
    rw [phaseOf_advance_self hcaller] at hfollow
    change (caller.advance world answer).follows? = some (key, flight) at hfollow
    rcases advance_cases caller world answer with ⟨key', -, -, hnext⟩ | ⟨key', flight', result, -, hnext⟩ |
      ⟨key', flight', -, hactive, hnext⟩ | hquiet
    · rw [hnext] at hfollow
      cases hfollow
    · rw [hnext] at hfollow
      cases hfollow
    · rw [hnext] at hfollow
      obtain ⟨rfl, rfl⟩ := Prod.mk.inj (Option.some.inj hfollow)
      exact hinactive key' hactive
    · have hbefore : caller.phase.follows? = some (key, flight) := by
        rcases hquiet.follows with hnone | hsame
        · exact absurd (hnone.symm.trans hfollow) nofun
        · exact hsame.symm.trans hfollow
      -- The caller waits and is awake, so that it takes the result.
      cases hphase : caller.phase with
      | waiting key' flight' =>
        rw [hphase] at hbefore
        obtain ⟨rfl, rfl⟩ := Prod.mk.inj (Option.some.inj hbefore)
        obtain ⟨result, hsome⟩ := Option.ne_none_iff_exists'.mp hresult
        unfold AcquireCaller.advance at hfollow
        rw [hphase] at hfollow
        dsimp only at hfollow
        rw [hsome] at hfollow
        cases result with
        | ok snapshot => cases hfollow
        | error error => cases error <;> cases hfollow
      | asleep key' flight' =>
        rw [hphase] at hbefore hwas
        obtain ⟨rfl, rfl⟩ := Prod.mk.inj (Option.some.inj hbefore)
        exact hawake index key' hwas
      | _ =>
        rw [hphase] at hbefore
        cases hbefore

lemma released_after_finishing (epoch : ℕ) (events later : List (MetadataEvent φ α)) {result : Except MetadataError α}
    (hphase : (MetadataWorld.after epoch events).phaseOf index = some (.finishing key flight result))
    (answer : AcquireAnswer φ α) :
    Released (MetadataWorld.after epoch (events ++ .advance index answer :: later)) flight := by
  have hinv := flightInv_after epoch (events ++ .advance index answer :: later)
  apply hinv.released
  have hrun : MetadataWorld.after epoch (events ++ .advance index answer :: later) =
      Runs.run MetadataWorld.step ((MetadataWorld.after epoch events).step (.advance index answer)) later :=
    Runs.run_append
  rw [hrun]
  apply flights_run
  change ((MetadataWorld.after epoch events).advance index answer).state.flights flight ≠ none
  obtain ⟨caller, hcaller, hfinishing⟩ := Option.map_eq_some_iff.mp hphase
  rw [advance_of_caller hcaller, hfinishing]
  change Function.update (MetadataWorld.after epoch events).state.flights flight (some result) flight ≠ none
  rw [Function.update_self]
  exact Option.some_ne_none _

/-! ## Single flight -/

/-- For every interleaving: one caller at a time loads for a key; its flight is released when its
owner ends; a request that ends as stopped was stopped itself, or by its own runner; and a cached
snapshot comes from a load after which its fingerprint was found again and during which its package
was not marked dirty, where the generations are not forgotten. -/
theorem metadata_single_flight (epoch : ℕ) (events : List (MetadataEvent φ α)) :
    (∀ index other key flight flight', (MetadataWorld.after epoch events).Loads index key flight →
      (MetadataWorld.after epoch events).Loads other key flight' → index = other) ∧
    (∀ index key flight result,
      (MetadataWorld.after epoch events).phaseOf index = some (.finishing key flight result) →
        ∀ answer later, Released (MetadataWorld.after epoch (events ++ .advance index answer :: later)) flight) ∧
    (∀ index caller stop, (MetadataWorld.after epoch events).callers index = some caller →
      caller.phase = .done (.error (.stopped stop)) →
        caller.IsStopped (MetadataWorld.after epoch events).now stop ∨ .advance index (.reported stop) ∈ events) ∧
    (∀ event key snapshot, (MetadataWorld.after epoch (events ++ [event])).state.cache key = some snapshot →
      (MetadataWorld.after epoch events).state.cache key = some snapshot ∨
        ∃ before since index flight, events = before ++ since ∧ BeginsLoad epoch before index key flight ∧
          FindsAgain epoch before since index key flight snapshot ∧
          (.clear ∈ events ∨ .markDirty key.packageRoot ∉ since)) := by
  have hinv := flightInv_after epoch events
  refine ⟨?one, ?finished, ?stopped, ?cached⟩
  case one =>
    intro index other key flight flight' hload hload'
    have hsame := (hinv.owner index key flight hload).1.symm.trans (hinv.owner other key flight' hload').1
    rw [← Option.some.inj hsame] at hload'
    exact hinv.unique index other key key flight hload hload'
  case finished =>
    intro index key flight result hphase answer later
    exact released_after_finishing epoch events later hphase answer
  case stopped =>
    intro index caller stop hcaller hdone
    apply stopsAreOwn_after epoch events index caller hcaller stop
    rw [hdone]
    rfl
  case cached =>
    intro event key snapshot hcached
    rw [after_concat] at hcached
    rcases cache_step hcached with hold | ⟨index, answer, flight, -, hphase, hgeneration⟩
    · exact .inl hold
    · right
      obtain ⟨before, since, rfl, hloaded⟩ := loadedSince_after epoch events hphase rfl
      refine ⟨before, since, index, flight, rfl, hloaded.begins, hloaded.again snapshot rfl, ?_⟩
      rcases hloaded.unmarked with hclear | hnot | hlater
      · exact .inl hclear
      · exact .inr hnot
      · omega

end AgzRustMcp.Workspace
