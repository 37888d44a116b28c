import AgzRustMcp.Foundation.Interference
import AgzRustMcp.Repair.CandidateSound

/-!
# Cleanup warnings and other changes

The service copies its one list of warnings into every outcome, and a repair run takes the warnings
of an outcome for facts about its own candidate.  `warnings_of_others_do_not_show` says what keeps
the histories of different changes apart.
-/

namespace AgzRustMcp

section Server

variable {sha : ByteArray → String} {config : ChangeConfig} {server server' : ChangeServer}
  {op : ChangeOp} {a : String}

/-! ## Two servers that agree about the other changes -/

/-- The changes other than `a`. -/
def ChangeServer.others (server : ChangeServer) (a : String) : Finmap fun _ : String => ChangeDir :=
  server.changes.erase a

/-- The servers have collected the same warnings and hold the same changes but for `a`. -/
structure AgreeBut (a : String) (server server' : ChangeServer) : Prop where
  warnings : server.warnings = server'.warnings
  dirs : ∀ id, id ≠ a → server.changes.lookup id = server'.changes.lookup id

/-- An action on `a` adds no warning; only others make a create fail at the limit. -/
def KeepsToItself (sha : ByteArray → String) (config : ChangeConfig) (a : String)
    (server : ChangeServer) (op : ChangeOp) : Prop :=
  if op.id = a then (server.perform sha config op).1.warnings = server.warnings
  else op.isCreate = true → server.activeCount ≥ config.maxActive → activeAmong (server.others a) ≥ config.maxActive

instance (sha : ByteArray → String) (config : ChangeConfig) (a : String) (server : ChangeServer)
    (op : ChangeOp) : Decidable (KeepsToItself sha config a server op) :=
  inferInstanceAs (Decidable (if op.id = a then _ else _))

lemma AgreeBut.symm (h : AgreeBut a server server') : AgreeBut a server' server :=
  ⟨h.warnings.symm, fun id hid => (h.dirs id hid).symm⟩

lemma AgreeBut.activeAmong_others (h : AgreeBut a server server') :
    activeAmong (server.others a) = activeAmong (server'.others a) := by
  have heq : server.others a = server'.others a := by
    refine Finmap.ext_lookup fun id => ?_
    by_cases hid : id = a
    · subst hid
      rw [ChangeServer.others, ChangeServer.others, Finmap.lookup_erase, Finmap.lookup_erase]
    · rw [ChangeServer.others, ChangeServer.others, Finmap.lookup_erase_ne hid,
        Finmap.lookup_erase_ne hid, h.dirs id hid]
  rw [heq]

lemma activeAmong_others_le (server : ChangeServer) (a : String) :
    activeAmong (server.others a) ≤ server.activeCount := by
  unfold ChangeServer.activeCount ChangeServer.others activeAmong
  cases ha : server.changes.lookup a with
  | none =>
    have herase : server.changes.erase a = server.changes := by
      refine Finmap.ext_lookup fun id => ?_
      by_cases hid : id = a
      · subst hid
        rw [Finmap.lookup_erase, ha]
      · rw [Finmap.lookup_erase_ne hid]
    rw [herase]
  | some dir =>
    rw [FiniteMap.total_eq_add_erase _ ha]
    exact Nat.le_add_left _ _

lemma lookup_perform {id : String} (hid : id ≠ op.id) :
    (server.perform sha config op).1.changes.lookup id = server.changes.lookup id := by
  unfold ChangeServer.perform
  split
  · rfl
  · exact Finmap.lookup_insert_of_ne _ hid

lemma AgreeBut.perform_unseen (h : AgreeBut a server' server) (hop : op.id = a)
    (hkeeps : KeepsToItself sha config a server op) : AgreeBut a server' (server.perform sha config op).1 := by
  rw [KeepsToItself, if_pos hop] at hkeeps
  exact ⟨h.warnings.trans hkeeps.symm,
    fun id hid => (h.dirs id hid).trans (lookup_perform (hop ▸ hid)).symm⟩

lemma AgreeBut.perform_seen (h : AgreeBut a server server') (hop : op.id ≠ a)
    (hkeeps : KeepsToItself sha config a server op) (hkeeps' : KeepsToItself sha config a server' op) :
    (server.perform sha config op).2 = (server'.perform sha config op).2 ∧
      AgreeBut a (server.perform sha config op).1 (server'.perform sha config op).1 := by
  rw [KeepsToItself, if_neg hop] at hkeeps hkeeps'
  -- Both servers refuse a create at the limit, or neither does.
  have hlimit : (op.isCreate = true ∧ server.activeCount ≥ config.maxActive) ↔
      (op.isCreate = true ∧ server'.activeCount ≥ config.maxActive) := by
    refine and_congr_right fun hcreate => ⟨fun hge => ?_, fun hge => ?_⟩
    · have hothers := hkeeps hcreate hge
      rw [h.activeAmong_others] at hothers
      exact hothers.trans (activeAmong_others_le server' a)
    · have hothers := hkeeps' hcreate hge
      rw [← h.activeAmong_others] at hothers
      exact hothers.trans (activeAmong_others_le server a)
  have hdir : server.dirOf op.id = server'.dirOf op.id := by
    rw [ChangeServer.dirOf, ChangeServer.dirOf, h.dirs op.id hop]
  unfold ChangeServer.perform
  by_cases hfull : op.isCreate = true ∧ server.activeCount ≥ config.maxActive
  · rw [if_pos hfull, if_pos (hlimit.mp hfull), h.warnings]
    exact ⟨rfl, h⟩
  · rw [if_neg hfull, if_neg (mt hlimit.mpr hfull), hdir, h.warnings]
    refine ⟨rfl, rfl, fun id hid => ?_⟩
    by_cases hself : id = op.id
    · subst hself
      rw [Finmap.lookup_insert, Finmap.lookup_insert]
    · rw [Finmap.lookup_insert_of_ne _ hself, Finmap.lookup_insert_of_ne _ hself, h.dirs id hid]

end Server

/-! ## Histories -/

section Histories

variable (sha : ByteArray → String) (config : ChangeConfig)

/-- Every action of the history keeps to itself what concerns `a`. -/
def KeepsToItselfAlong (a : String) (server : ChangeServer) (history : List ChangeOp) : Prop :=
  Runs.Along (Interference.next (ChangeServer.perform sha config)) (KeepsToItself sha config a) server
    history

instance (a : String) (server : ChangeServer) (history : List ChangeOp) :
    Decidable (KeepsToItselfAlong sha config a server history) :=
  Runs.decidableAlong server history

/-- The outcomes of the actions of a history that are about `b`. -/
def answersTo (b : String) (server : ChangeServer) (history : List ChangeOp) : List ChangeOutcome :=
  (Interference.observed (ChangeServer.perform sha config) (fun op => op.id = b) server
    history).map Prod.snd

end Histories

/-- The answers of a run that carry warnings are among the given outcomes. -/
def CandidateEnv.WarnedBy (env : CandidateEnv) (outcomes : List ChangeOutcome) : Prop :=
  ∀ answer ∈ [env.baseStage, env.stage, env.validate, env.discard], answer.Warns → answer ∈ outcomes

section Isolation

variable {sha : ByteArray → String} {config : ChangeConfig} {a b : String} {server : ChangeServer}
  {history history' : List ChangeOp}

lemma answersTo_eq (hb : b ≠ a) (hkeeps : KeepsToItselfAlong sha config a server history)
    (hkeeps' : KeepsToItselfAlong sha config a server history')
    (hsame : (history.filter fun op => op.id ≠ a) = history'.filter fun op => op.id ≠ a) :
    answersTo sha config b server history = answersTo sha config b server history' := by
  have hbut : Interference.observed (ChangeServer.perform sha config) (fun op => op.id ≠ a) server
      history = Interference.observed (ChangeServer.perform sha config) (fun op => op.id ≠ a) server
        history' := by
    refine Interference.observed_eq (R := AgreeBut a) (fun _ _ h => h.symm) ?_ ?_
      ⟨rfl, fun _ _ => rfl⟩ hkeeps hkeeps' hsame
    · intro s t op hop hcond hR
      exact hR.perform_unseen (by simpa using hop) hcond
    · intro s t op hop hcond hcond' hR
      exact hR.perform_seen (by simpa using hop) hcond hcond'
  -- Who sees the actions on `b` only sees less than who sees everything but `a`.
  have hless : ∀ op : ChangeOp, decide (op.id = b) = true → decide (op.id ≠ a) = true := by
    intro op hop
    have hopb : op.id = b := by simpa using hop
    simpa [hopb] using hb
  rw [answersTo, answersTo, ← Interference.filter_observed hless, hbut, Interference.filter_observed hless]

/-- Two histories that differ only in the actions on one change give every other change the same
warnings, and a repair run ends by a warning in both or in neither unless the other shows one. -/
theorem warnings_of_others_do_not_show
    (hkeeps : KeepsToItselfAlong sha config a server history)
    (hkeeps' : KeepsToItselfAlong sha config a server history')
    (hsame : (history.filter fun op => op.id ≠ a) = history'.filter fun op => op.id ≠ a)
    (hb : b ≠ a) :
    (answersTo sha config b server history).map (·.data.cleanupWarnings) =
        (answersTo sha config b server history').map (·.data.cleanupWarnings) ∧
      ∀ guards base basePatches baseNewFiles target env candidate,
        env.WarnedBy (answersTo sha config b server history) →
        ((runCandidate guards base basePatches baseNewFiles target env candidate).run
          []).1.IsCleanupFailure →
        ∃ answer ∈ answersTo sha config b server history', answer.Warns := by
  have heq := answersTo_eq hb hkeeps hkeeps' hsame
  refine ⟨by rw [heq], fun guards base basePatches baseNewFiles target env candidate hby hfail => ?_⟩
  rw [← heq]
  rcases warns_of_cleanupFailure hfail with h | h | h | h
  · exact ⟨_, hby _ (by simp) h, h⟩
  · exact ⟨_, hby _ (by simp) h, h⟩
  · exact ⟨_, hby _ (by simp) h, h⟩
  · exact ⟨_, hby _ (by simp) h, h⟩

end Isolation

def twoChanges : List ChangeOp := [oneFileCreate "chg-0-1-0", oneFileCreate "chg-0-1-1"]

/-- A discard that cannot remove the copy. -/
def stuckDiscard (id : String) : ChangeOp :=
  .discard id { DiscardEnv.quiet with
    worktreeWarnings := ["could not remove candidate: Directory not empty (os error 39)"] }

theorem warnings_of_others_do_not_show_quiet_discard :
    ((answersTo Sha256.sha256Hex .default "chg-0-1-1" .new
        (twoChanges ++ [.discard "chg-0-1-0" .quiet, .inspect "chg-0-1-1" none])).map
        (·.data.cleanupWarnings) =
      (answersTo Sha256.sha256Hex .default "chg-0-1-1" .new
        (twoChanges ++ [.inspect "chg-0-1-1" none])).map (·.data.cleanupWarnings)) ∧
      (answersTo Sha256.sha256Hex .default "chg-0-1-1" .new
        (twoChanges ++ [.inspect "chg-0-1-1" none])).map (·.data.cleanupWarnings) = [[], []] :=
  ⟨(warnings_of_others_do_not_show (a := "chg-0-1-0") (by decide +kernel) (by decide +kernel) rfl
    (by decide)).1, by decide +kernel⟩

theorem warning_shows_in_other_change :
    ¬ ∀ (sha : ByteArray → String) (config : ChangeConfig) (a b : String) (server : ChangeServer)
      (history history' : List ChangeOp),
      ((history.filter fun op => op.id ≠ a) = history'.filter fun op => op.id ≠ a) → b ≠ a →
      (answersTo sha config b server history).map (·.data.cleanupWarnings) =
        (answersTo sha config b server history').map (·.data.cleanupWarnings) := by
  intro h
  have hsame := h Sha256.sha256Hex .default "chg-0-1-0" "chg-0-1-1" .new
    (twoChanges ++ [stuckDiscard "chg-0-1-0", .inspect "chg-0-1-1" none])
    (twoChanges ++ [.inspect "chg-0-1-1" none]) rfl (by decide)
  exact absurd hsame (by decide +kernel)

end AgzRustMcp
