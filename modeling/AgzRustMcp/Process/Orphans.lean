import AgzRustMcp.Foundation.Sha256
import AgzRustMcp.Process.Journal

/-!
# Orphans

A record of a dead owner may go only when no process of the recorded group is running.  But recovery
also removes it when it cannot find the recorded child, which is only the leader of the group: this
is the only way in which a running group is forgotten (`recoverOrphans_forgets_none_iff`).
-/

namespace AgzRustMcp.Process

/-! ## What may be forgotten -/

/-- No process runs in the group of a record that was removed. -/
def ForgetsNone (state : RecoveryState) : Prop :=
  ∀ entry ∈ state.removed, ∀ stored, entry.file = .stored stored → state.table.Gone stored.record.group

/-- The entry is a record which recovery takes for that of a dead owner. -/
def OfDeadOwner (journal : ProcessJournal) (table : ProcessTable) (entry : JournalEntry)
    (stored : StoredJournalRecord) : Prop :=
  entry.file = .stored stored ∧ stored.record.version = journalVersion ∧
    validToken stored.record.token = true ∧ entry.stem = stored.record.token ∧
    ownerState journal table stored.record = none

/-- The leader is not found while a member runs, and nothing keeps the record. -/
def Abandons (journal : ProcessJournal) (table : ProcessTable) (turn : RecoveryTurn) : Prop :=
  ∃ entry answers stored, turn = .ok (entry, answers) ∧ entry.extension = some "json" ∧
    OfDeadOwner journal table entry stored ∧ readProcessIdentity table stored.record.childPid = .ok none ∧
    answers.removes = true ∧ ¬ table.Gone stored.record.group

/-- No turn of the loop meets a running group without its leader. -/
def NeverAbandons (journal : ProcessJournal) (limit : ℕ) : RecoveryState → List RecoveryTurn → Prop
  | _, [] => True
  | state, turn :: turns => limit ≤ state.report.inspected ∨ (¬ Abandons journal state.table turn ∧
      NeverAbandons journal limit (recoverTurn journal limit state turn) turns)

/-- Records of supervisors: the group is that of the child. -/
def LeftBySupervisors (turns : List RecoveryTurn) : Prop :=
  ∀ entry answers stored, .ok (entry, answers) ∈ turns → entry.file = .stored stored →
    ∃ token owner childPid startTime executable commandHash,
      stored.record = JournalRecord.new token owner childPid startTime executable commandHash

/-- A kill of a group that succeeds ends all its members. -/
def KillsWholeGroups (turns : List RecoveryTurn) : Prop :=
  ∀ entry answers, .ok (entry, answers) ∈ turns → answers.kill.result = .ok () →
    ∀ pid, answers.kill.effect pid ≠ .survives

section

variable {journal : ProcessJournal} {limit : ℕ} {table : ProcessTable} {answers : RecoveryAnswers}
  {entry : JournalEntry} {stored : StoredJournalRecord} {state : RecoveryState}
  {effect : ℕ → KillEffect} {group pgid : ℕ}

lemma eq_some_of_kill {pid : ℕ} {process : ProcEntry} (h : table.kill pgid effect pid = some process)
    (hrunning : process.running = true) : table pid = some process := by
  unfold ProcessTable.kill at h
  split at h
  · simp at h
  next found hfound =>
  split_ifs at h with hgroup
  · split at h
    · rw [hfound, h]
    · cases h
      simp at hrunning
    · simp at h
  · rw [hfound, h]

lemma ProcessTable.Gone.kill {group : ProcessGroupIdentity} (h : table.Gone group) :
    (table.kill pgid effect).Gone group := by
  intro pid process hprocess hgroup
  by_contra hrunning
  rw [Bool.not_eq_false] at hrunning
  have hbefore := h pid process (eq_some_of_kill hprocess hrunning) hgroup
  simp [hbefore] at hrunning

lemma gone_kill (h : ∀ pid, effect pid ≠ .survives) : (table.kill pgid effect).Gone (.unix pgid) := by
  intro pid process hprocess hgroup
  obtain rfl : pgid = process.group := ProcessGroupIdentity.unix.inj hgroup
  unfold ProcessTable.kill at hprocess
  split at hprocess
  · simp at hprocess
  next found hfound =>
  split_ifs at hprocess with hsame
  · split at hprocess
    next hsurvives => exact absurd hsurvives (h pid)
    · cases hprocess
      rfl
    · simp at hprocess
  · cases hprocess
    exact absurd rfl hsame

lemma kill_of_group_ne {pid : ℕ} {process : ProcEntry} (h : table pid = some process)
    (hne : process.group ≠ pgid) : table.kill pgid effect pid = some process := by
  unfold ProcessTable.kill
  simp [h, hne]

lemma readProcessIdentity_kill {pid : ℕ} (h : readProcessIdentity table pid = .ok none) :
    readProcessIdentity (table.kill pgid effect) pid = .ok none := by
  cases hprocess : table pid with
  | none => simp [readProcessIdentity, ProcessTable.kill, hprocess]
  | some process =>
    by_cases hgroup : process.group = pgid
    · cases heffect : effect pid with
      | survives => simpa [readProcessIdentity, ProcessTable.kill, hprocess, hgroup, heffect] using h
      | exits => simp [readProcessIdentity, ProcessTable.kill, hprocess, hgroup, heffect]
      | disappears => simp [readProcessIdentity, ProcessTable.kill, hprocess, hgroup, heffect]
    · rw [readProcessIdentity, kill_of_group_ne hprocess hgroup]
      rwa [readProcessIdentity, hprocess] at h

lemma verifyChild_eq_ok {alternate : Option String}
    (h : verifyChild journal table answers stored.record alternate = .ok pgid) :
    stored.record.group = .unix pgid ∧ readProcessIdentity table pgid ≠ .ok none := by
  unfold verifyChild at h
  split at h
  · simp at h
  · simp at h
  next identity hread =>
  split at h
  · simp at h
  split at h
  · simp at h
  split at h
  · simp at h
  · simp at h
  next recorded hrecorded =>
  split at h
  · simp at h
  next hgroup =>
  have hpgid : recorded = pgid := by
    dsimp only at h
    repeat' split at h
    all_goals simp at h
    exact h
  subst hpgid
  push Not at hgroup
  refine ⟨hrecorded, ?_⟩
  rw [hgroup.2.1, hread]
  simp

lemma absent_of_alreadyExited {alternate : Option String} {reason : String}
    (h : verifyChild journal table answers stored.record alternate = .error (.alreadyExited reason)) :
    readProcessIdentity table stored.record.childPid = .ok none := by
  unfold verifyChild at h
  split at h
  next hread => exact hread
  · simp at h
  · dsimp only at h
    repeat' split at h
    all_goals simp at h

lemma recoverEntry_cases (journal : ProcessJournal) (table : ProcessTable)
    (answers : RecoveryAnswers) (entry : JournalEntry) : ((recoverEntry journal table answers entry).removed = false ∧
        (recoverEntry journal table answers entry).table = table) ∨
      (∃ stored, OfDeadOwner journal table entry stored ∧
        readProcessIdentity table stored.record.childPid = .ok none ∧
        (recoverEntry journal table answers entry).removed = answers.removes ∧
        (recoverEntry journal table answers entry).table = table) ∨
      ∃ stored pgid, entry.file = .stored stored ∧ stored.record.group = .unix pgid ∧
        readProcessIdentity table pgid ≠ .ok none ∧
        ((recoverEntry journal table answers entry).removed = true → answers.kill.result = .ok ()) ∧
        (recoverEntry journal table answers entry).table = table.kill pgid answers.kill.effect := by
  unfold recoverEntry
  split
  · exact Or.inl ⟨rfl, rfl⟩
  · exact Or.inl ⟨rfl, rfl⟩
  · exact Or.inl ⟨rfl, rfl⟩
  next stored hstored =>
  split_ifs with hversion htoken
  · exact Or.inl ⟨rfl, rfl⟩
  · exact Or.inl ⟨rfl, rfl⟩
  push Not at hversion htoken
  split
  · exact Or.inl ⟨rfl, rfl⟩
  next howner =>
  have hdead : OfDeadOwner journal table entry stored :=
    ⟨hstored, hversion, by simpa using htoken.1, htoken.2, howner⟩
  unfold recoverOrphan
  dsimp only
  split
  next reason hverify => exact Or.inr (Or.inl ⟨stored, hdead, absent_of_alreadyExited hverify, rfl, rfl⟩)
  · exact Or.inl ⟨rfl, rfl⟩
  · exact Or.inl ⟨rfl, rfl⟩
  next pgid hverify =>
  obtain ⟨hgroup, hread⟩ := verifyChild_eq_ok hverify
  unfold forceKillGroup
  cases ["/bin/kill", "/usr/bin/kill"].find? answers.isFile with
  | none => exact Or.inl ⟨rfl, rfl⟩
  | some program =>
    refine Or.inr (Or.inr ⟨stored, pgid, hstored, hgroup, hread, ?_⟩)
    dsimp only
    cases answers.kill.result with
    | ok _ => exact ⟨fun _ => rfl, rfl⟩
    | error reason => exact ⟨by simp, rfl⟩

lemma recoverTurn_cases (journal : ProcessJournal) (limit : ℕ) (state : RecoveryState) (turn : RecoveryTurn) :
    ((recoverTurn journal limit state turn).table = state.table ∧
        (recoverTurn journal limit state turn).removed = state.removed) ∨
      (∃ entry answers stored, turn = .ok (entry, answers) ∧ entry.extension = some "json" ∧
        OfDeadOwner journal state.table entry stored ∧
        readProcessIdentity state.table stored.record.childPid = .ok none ∧
        answers.removes = true ∧ (recoverTurn journal limit state turn).table = state.table ∧
        (recoverTurn journal limit state turn).removed = state.removed ++ [entry]) ∨
      ∃ entry answers stored pgid, turn = .ok (entry, answers) ∧ entry.file = .stored stored ∧
        stored.record.group = .unix pgid ∧ readProcessIdentity state.table pgid ≠ .ok none ∧
        (recoverTurn journal limit state turn).table = state.table.kill pgid answers.kill.effect ∧
        ((recoverTurn journal limit state turn).removed = state.removed ∨ answers.kill.result = .ok () ∧
            (recoverTurn journal limit state turn).removed = state.removed ++ [entry]) := by
  unfold recoverTurn
  split
  · exact Or.inl ⟨rfl, rfl⟩
  next entry answers =>
  split_ifs with hextension
  · exact Or.inl ⟨rfl, rfl⟩
  dsimp only
  rw [not_not] at hextension
  rcases recoverEntry_cases journal state.table answers entry with
    ⟨hkept, htable⟩ | ⟨stored, hdead, habsent, hremoved, htable⟩ |
    ⟨stored, pgid, hstored, hgroup, hread, hremoved, htable⟩
  · exact Or.inl ⟨htable, by simp [hkept]⟩
  · cases hremoves : answers.removes with
    | false => exact Or.inl ⟨htable, by simp [hremoved, hremoves]⟩
    | true =>
      exact Or.inr (Or.inl ⟨entry, answers, stored, rfl, hextension, hdead, habsent, hremoves,
        htable, by simp [hremoved, hremoves]⟩)
  · refine Or.inr (Or.inr ⟨entry, answers, stored, pgid, rfl, hstored, hgroup, hread, htable, ?_⟩)
    by_cases htaken : (recoverEntry journal state.table answers entry).removed = true
    · exact Or.inr ⟨hremoved htaken, by simp [htaken]⟩
    · exact Or.inl (by simp [htaken])

lemma recoverTurn_of_absent (limit : ℕ) {turn : RecoveryTurn} (hturn : turn = .ok (entry, answers))
    (hextension : entry.extension = some "json") (hdead : OfDeadOwner journal state.table entry stored)
    (habsent : readProcessIdentity state.table stored.record.childPid = .ok none)
    (hremoves : answers.removes = true) : (recoverTurn journal limit state turn).table = state.table ∧
      (recoverTurn journal limit state turn).removed = state.removed ++ [entry] := by
  obtain ⟨hstored, hversion, htoken, hstem, howner⟩ := hdead
  have houtcome : recoverEntry journal state.table answers entry = ⟨state.table, true,
      .ok ⟨stored.record.token, .alreadyExited, "recorded child is no longer present"⟩⟩ := by
    unfold recoverEntry recoverOrphan verifyChild
    simp [hstored, hversion, htoken, hstem, howner, habsent, hremoves]
  subst hturn
  unfold recoverTurn
  simp [hextension, houtcome]

/-! ## Runs -/

lemma ForgetsNone.turn {turn : RecoveryTurn} (h : ForgetsNone state)
    (hkills : KillsWholeGroups [turn]) (hnever : ¬ Abandons journal state.table turn) :
    ForgetsNone (recoverTurn journal limit state turn) := by
  intro taken htaken found hfound
  rcases recoverTurn_cases journal limit state turn with ⟨htable, hremoved⟩ |
    ⟨entry, answers, stored, rfl, hextension, hdead, habsent, hremoves, htable, hremoved⟩ |
    ⟨entry, answers, stored, pgid, rfl, hstored, hgroup, -, htable, hremoved⟩
  · rw [hremoved] at htaken
    rw [htable]
    exact h taken htaken found hfound
  · rw [hremoved] at htaken
    rw [htable]
    rcases List.mem_append.mp htaken with hbefore | hnow
    · exact h taken hbefore found hfound
    · obtain rfl := List.mem_singleton.mp hnow
      obtain rfl := JournalFile.stored.inj (hdead.1.symm.trans hfound)
      by_contra hrunning
      exact hnever ⟨taken, answers, stored, rfl, hextension, hdead, habsent, hremoves, hrunning⟩
  · rw [htable]
    rcases hremoved with hremoved | ⟨hresult, hremoved⟩
    · rw [hremoved] at htaken
      exact (h taken htaken found hfound).kill
    · rw [hremoved] at htaken
      rcases List.mem_append.mp htaken with hbefore | hnow
      · exact (h taken hbefore found hfound).kill
      · obtain rfl := List.mem_singleton.mp hnow
        obtain rfl := JournalFile.stored.inj (hstored.symm.trans hfound)
        rw [hgroup]
        exact gone_kill (hkills taken answers List.mem_cons_self hresult)

lemma ForgetsNone.turns {turns : List RecoveryTurn} (h : ForgetsNone state)
    (hkills : KillsWholeGroups turns) (hnever : NeverAbandons journal limit state turns) :
    ForgetsNone (recoverTurns journal limit state turns) := by
  induction turns generalizing state with
  | nil => exact h
  | cons turn turns ih =>
    unfold recoverTurns
    split_ifs with hlimit
    · exact h
    · obtain ⟨hturn, hrest⟩ := hnever.resolve_left hlimit
      refine ih (h.turn (fun entry answers hmem => ?_) hturn) (fun entry answers hmem => ?_) hrest
      · exact hkills entry answers (List.mem_cons.mpr (Or.inl (List.mem_singleton.mp hmem)))
      · exact hkills entry answers (List.mem_cons_of_mem _ hmem)

/-- A record was removed whose group runs without its leader. -/
def Abandoned (state : RecoveryState) : Prop :=
  ∃ entry ∈ state.removed, ∃ stored pgid, entry.file = .stored stored ∧
    stored.record.group = .unix pgid ∧ readProcessIdentity state.table pgid = .ok none ∧
    ¬ state.table.Gone (.unix pgid)

lemma Abandoned.turn {turn : RecoveryTurn} (h : Abandoned state) :
    Abandoned (recoverTurn journal limit state turn) := by
  obtain ⟨lost, hlost, found, pgid, hfound, hpgid, habsent, hrunning⟩ := h
  have hkept : lost ∈ (recoverTurn journal limit state turn).removed := by
    rcases recoverTurn_cases journal limit state turn with ⟨-, hremoved⟩ |
      ⟨entry, answers, stored, -, -, -, -, -, -, hremoved⟩ |
      ⟨entry, answers, stored, other, -, -, -, -, -, hremoved | ⟨-, hremoved⟩⟩
    all_goals simp [hremoved, hlost]
  refine ⟨lost, hkept, found, pgid, hfound, hpgid, ?_⟩
  rcases recoverTurn_cases journal limit state turn with ⟨htable, -⟩ |
    ⟨entry, answers, stored, -, -, -, -, -, htable, -⟩ |
    ⟨entry, answers, stored, other, -, -, -, hread, htable, -⟩
  · rw [htable]
    exact ⟨habsent, hrunning⟩
  · rw [htable]
    exact ⟨habsent, hrunning⟩
  · rw [htable]
    have hne : pgid ≠ other := by
      rintro rfl
      exact hread habsent
    refine ⟨readProcessIdentity_kill habsent, fun hgone => hrunning ?_⟩
    intro pid process hprocess hgroup
    obtain rfl : pgid = process.group := ProcessGroupIdentity.unix.inj hgroup
    exact hgone pid process (kill_of_group_ne hprocess hne) rfl

lemma Abandoned.turns {turns : List RecoveryTurn} (h : Abandoned state) :
    Abandoned (recoverTurns journal limit state turns) := by
  induction turns generalizing state with
  | nil => exact h
  | cons turn turns ih =>
    unfold recoverTurns
    split_ifs
    · exact h
    · exact ih h.turn

lemma neverAbandons_of_not_abandoned {turns : List RecoveryTurn} (hleft : LeftBySupervisors turns)
    (h : ¬ Abandoned (recoverTurns journal limit state turns)) : NeverAbandons journal limit state turns := by
  induction turns generalizing state with
  | nil => exact trivial
  | cons turn turns ih =>
    by_cases hlimit : limit ≤ state.report.inspected
    · exact Or.inl hlimit
    · rw [recoverTurns, if_neg hlimit] at h
      have hrest := ih (fun entry answers stored hmem =>
        hleft entry answers stored (List.mem_cons_of_mem _ hmem)) h
      refine Or.inr ⟨?_, hrest⟩
      rintro ⟨entry, answers, stored, rfl, hextension, hdead, habsent, hremoves, hrunning⟩
      obtain ⟨token, owner, childPid, startTime, executable, commandHash, hrecord⟩ :=
        hleft entry answers stored List.mem_cons_self hdead.1
      have hgroup : stored.record.group = .unix stored.record.childPid := by rw [hrecord]; rfl
      have hturn := recoverTurn_of_absent limit rfl hextension hdead habsent hremoves
      refine h (Abandoned.turns ⟨entry, ?_, stored, _, hdead.1, hgroup, ?_, ?_⟩)
      · simp [hturn.2]
      · rw [hturn.1]
        exact habsent
      · rw [hturn.1]
        exact hgroup ▸ hrunning

/-- A group is forgotten exactly when a gone owner's child is not found while a member runs. -/
theorem recoverOrphans_forgets_none_iff (journal : ProcessJournal) (limit : ℕ) (table : ProcessTable)
    (turns : List RecoveryTurn) (hleft : LeftBySupervisors turns) (hkills : KillsWholeGroups turns) :
    ForgetsNone (recoverOrphansWithLimit journal limit table (.ok turns)) ↔
      NeverAbandons journal limit ⟨table, [], {}⟩ turns := by
  constructor
  · intro h
    refine neverAbandons_of_not_abandoned hleft ?_
    rintro ⟨entry, hentry, stored, pgid, hstored, hgroup, -, hrunning⟩
    exact hrunning (hgroup ▸ h entry hentry stored hstored)
  · intro h
    have hnone : ForgetsNone ⟨table, [], {}⟩ := by simp [ForgetsNone]
    exact hnone.turns hkills h

end

/-! ## A group of two processes -/

def laterJournal : ProcessJournal := ⟨20, some 5, some 20, Sha256.sha256Hex⟩

/-- The record of a child 10 whose owner was the process 7. -/
def groupRecord : StoredJournalRecord where
  record := .new "job-7-0" (7, some 1) 10 (some 2) "/proc/10/exe"
    (commandHashBytes Sha256.sha256Hex "/proc/10/exe" [[45]])
  alternateCommandHash := none

/-- The record in the journal directory; a kill ends everything that it is sent to. -/
def groupTurn : RecoveryTurn :=
  .ok (⟨"job-7-0", some "json", .stored groupRecord⟩, ⟨.ok, fun _ => true, ⟨.ok (), fun _ => .disappears⟩, true⟩)

def groupMember : ProcEntry := ⟨2, 10, true, .found "/usr/bin/cargo", .found [99, 0, 45, 0]⟩

def wholeGroup : ProcessTable := fun pid => if pid = 10 ∨ pid = 11 then some groupMember else none

/-- The member of the group 10 after its leader has exited. -/
def leaderlessGroup : ProcessTable := fun pid => if pid = 11 then some groupMember else none

lemma leftBySupervisors_groupTurn : LeftBySupervisors [groupTurn] := by
  intro entry answers stored hmem hstored
  cases List.mem_singleton.mp hmem
  cases hstored
  exact ⟨_, _, _, _, _, _, rfl⟩

lemma killsWholeGroups_groupTurn : KillsWholeGroups [groupTurn] := by
  intro entry answers hmem _ pid
  cases List.mem_singleton.mp hmem
  simp

theorem recoverOrphans_forgets_none_whole_group :
    ForgetsNone (recoverOrphansWithLimit laterJournal 256 wholeGroup (.ok [groupTurn])) := by
  refine (recoverOrphans_forgets_none_iff laterJournal 256 wholeGroup [groupTurn]
    leftBySupervisors_groupTurn killsWholeGroups_groupTurn).mpr (Or.inr ⟨?_, trivial⟩)
  rintro ⟨entry, answers, stored, hturn, -, hdead, habsent, -⟩
  cases hturn
  cases hdead.1
  simp [readProcessIdentity, wholeGroup, groupMember, groupRecord, JournalRecord.new] at habsent

/-- The leader has exited, and a member still runs. -/
theorem running_group_is_forgotten :
    ¬ ∀ (journal : ProcessJournal) (table : ProcessTable) (turns : List RecoveryTurn),
      LeftBySupervisors turns → KillsWholeGroups turns → ForgetsNone (recoverOrphans journal table (.ok turns)) := by
  intro h
  have hnone := h laterJournal leaderlessGroup [groupTurn] leftBySupervisors_groupTurn
    killsWholeGroups_groupTurn
  have hdead : OfDeadOwner laterJournal leaderlessGroup ⟨"job-7-0", some "json", .stored groupRecord⟩
      groupRecord := by
    refine ⟨rfl, rfl, by decide +kernel, rfl, ?_⟩
    simp [ownerState, readProcessIdentity, leaderlessGroup, groupRecord, JournalRecord.new, laterJournal]
  have hturn : (recoverTurn laterJournal 256 ⟨leaderlessGroup, [], {}⟩ groupTurn).table = leaderlessGroup ∧
      (recoverTurn laterJournal 256 ⟨leaderlessGroup, [], {}⟩ groupTurn).removed =
        [] ++ [⟨"job-7-0", some "json", .stored groupRecord⟩] :=
    recoverTurn_of_absent 256 rfl rfl hdead rfl rfl
  have hgone : leaderlessGroup.Gone (.unix 10) := by
    have hentry := hnone ⟨"job-7-0", some "json", .stored groupRecord⟩
      (hturn.2 ▸ List.mem_cons_self) groupRecord rfl
    exact hturn.1 ▸ hentry
  have hmember := hgone 11 groupMember rfl rfl
  simp [groupMember] at hmember

end AgzRustMcp.Process
