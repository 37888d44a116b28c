import AgzRustMcp.Cache.Steps

/-!
# The first writer wins

One writer at most ever renames its file, and the artifact is that file from then on.  A writer that has
renamed reports `published` unless its process crashes before it does.
-/

namespace AgzRustMcp.Cache

open Std (ExtTreeMap)

namespace CacheWorld

variable {w next : CacheWorld} {k j : ℕ} {writer other : Writer}

/-! ## What a step leaves -/

/-- A step of a writer changes no other writer, and an artifact that is there stays. -/
structure Moves (w : CacheWorld) (k : ℕ) (writer : Writer) (next : CacheWorld) : Prop where
  name : next.finalName = w.finalName
  writers : ∃ changed : Writer, next.writers = w.writers.modify k (fun _ => changed) ∧
    (writer.renamed = true → changed.renamed = true) ∧ changed.call = writer.call
  kept : ∀ entry, w.entries[w.finalName]? = some entry → next.entries[w.finalName]? = some entry

lemma Moves.still (hk : w.writers[k]? = some writer) : w.Moves k writer w := by
  refine ⟨rfl, ⟨writer, ?_, id, rfl⟩, fun _ hentry => hentry⟩
  refine List.ext_getElem? fun j => ?_
  rw [List.getElem?_modify]
  split_ifs with hkj
  · rw [← hkj, hk]
    rfl
  · simp

lemma Moves.enter (moved : CacheWorld) (hname : moved.finalName = w.finalName)
    (hwriters : moved.writers = w.writers) (hkept : ∀ entry, w.entries[w.finalName]? = some entry →
      moved.entries[w.finalName]? = some entry) (phase : PublishPhase) :
    w.Moves k writer (moved.enter k writer phase) := by
  refine ⟨hname, ⟨{ writer with phase }, ?_, id, rfl⟩, hkept⟩
  rw [← hwriters]
  rfl

lemma Moves.goes (phase : PublishPhase) : w.Moves k writer (w.enter k writer phase) :=
  Moves.enter w rfl rfl (fun _ hentry => hentry) phase

lemma Moves.removes {name : String} (hname : IsTempName w.finalName name) (phase : PublishPhase) :
    w.Moves k writer ((w.removeFile name).enter k writer phase) := by
  obtain ⟨hsame, -, -, hwriters⟩ := fields_removeFile (w := w) name
  refine Moves.enter _ hsame hwriters ?_ phase
  intro entry hentry
  rw [getElem?_removeFile (ne_of_isTempName hname).1]
  exact hentry

lemma Moves.looks {temp : TemporaryFile} {absent stale : PublishPhase} :
    w.Moves k writer (w.lookAtFinal k writer temp absent stale) := by
  unfold lookAtFinal
  split <;> exact Moves.goes _

lemma Moves.opens : w.Moves k writer (w.openLock k writer) := by
  unfold openLock
  split
  · exact Moves.goes _
  · exact Moves.goes _
  · exact Moves.goes _
  · refine Moves.enter (w := w) (w.createFile (lockName w.finalName)) rfl rfl ?_ _
    intro entry hentry
    change (w.entries.insert (lockName w.finalName) _)[w.finalName]? = some entry
    rw [ExtTreeMap.getElem?_insert, if_neg (by simpa using lockName_ne_final)]
    exact hentry

lemma PublishInv.moves_proceed (h : PublishInv w) (hk : w.writers[k]? = some writer) (bytes : ℕ) :
    w.Moves k writer (w.proceed k writer bytes) := by
  have hwriter := h.writers k writer hk
  have missing : writer.phase.isInstalling = true → ∀ {entry : Entry} {P : Prop},
      w.entries[w.finalName]? = some entry → P := by
    intro hinstalling entry P hentry
    rw [hwriter.absent hinstalling] at hentry
    cases hentry
  unfold CacheWorld.proceed
  cases hphase : writer.phase with
  | processLocking =>
    dsimp only
    split_ifs
    · exact Moves.still hk
    · exact ⟨rfl, ⟨{ writer with phase := .openingLock }, rfl, id, rfl⟩, fun _ hentry => hentry⟩
  | openingLock => exact Moves.opens
  | locking lock =>
    dsimp only
    split_ifs
    · exact Moves.still hk
    · exact ⟨rfl, ⟨{ writer with phase := .listing, lock := some lock }, rfl, id, rfl⟩,
        fun _ hentry => hentry⟩
  | listing => exact Moves.goes _
  | cleaning names =>
    cases names with
    | nil => exact Moves.goes _
    | cons name names =>
      dsimp only
      split_ifs <;> exact Moves.goes _
  | removing name names => exact Moves.removes (hwriter.named name (by rw [hphase]; rfl)) _
  | inspecting =>
    dsimp only
    split <;> exact Moves.goes _
  | naming =>
    dsimp only
    unfold CacheWorld.nameTemporary
    split
    · exact Moves.goes _
    · exact ⟨rfl, ⟨_, rfl, id, rfl⟩, fun _ hentry => hentry⟩
  | creating stem attempt =>
    dsimp only
    unfold CacheWorld.createTemporary
    dsimp only
    split_ifs
    · exact Moves.goes _
    · exact Moves.goes _
    · exact Moves.enter (w := w) (w.createFile (temporaryName w.finalName stem attempt)) rfl rfl
        (fun _ hentry => missing (by rw [hphase]; rfl) hentry) _
  | writing temp written =>
    dsimp only
    unfold CacheWorld.writeMore
    dsimp only
    split_ifs
    · exact ⟨rfl, ⟨_, rfl, id, rfl⟩, fun _ hentry => hentry⟩
    · exact Moves.goes _
  | validating temp =>
    dsimp only
    split_ifs <;> exact Moves.goes _
  | checking temp =>
    dsimp only
    split <;> exact Moves.goes _
  | rechecking temp => exact Moves.looks
  | clearing temp =>
    dsimp only
    split <;> exact Moves.goes _
  | unlinking temp =>
    dsimp only
    rw [removeFile_of_absent (hwriter.absent (by rw [hphase]; rfl))]
    exact Moves.goes _
  | confirming temp => exact Moves.looks
  | «renaming» temp =>
    dsimp only
    unfold CacheWorld.renameTemporary
    split
    · exact Moves.goes _
    · exact ⟨rfl, ⟨_, rfl, fun _ => rfl, rfl⟩,
        fun _ hentry => missing (by rw [hphase]; rfl) hentry⟩
  | dropping temp result => exact Moves.removes (hwriter.named temp.name (by rw [hphase]; rfl)) _
  | unlocking result =>
    dsimp only
    split
    · exact Moves.goes _
    · exact ⟨rfl, ⟨_, rfl, id, rfl⟩, fun _ hentry => hentry⟩
  | releasing result => exact ⟨rfl, ⟨_, rfl, id, rfl⟩, fun _ hentry => hentry⟩
  | «over» result => exact Moves.still hk
  | crashed => exact Moves.still hk

lemma PublishInv.moves (h : PublishInv w) (hk : w.writers[k]? = some writer)
    (answer : PublishAnswer) : w.Moves k writer (w.act k answer) := by
  unfold act
  simp only [hk]
  cases answer with
  | ok bytes => exact h.moves_proceed hk bytes
  | refused error =>
    dsimp only
    unfold CacheWorld.refuse
    split
    all_goals first
      | exact Moves.still hk
      | exact Moves.goes _
  | ignored =>
    dsimp only
    unfold CacheWorld.passOver
    split
    all_goals first
      | exact Moves.still hk
      | exact Moves.goes _

lemma PublishInv.moves_step (h : PublishInv w) (event : PublishEvent) :
    (∃ (k : ℕ) (answer : PublishAnswer) (writer : Writer), event = .advance k answer ∧
      w.writers[k]? = some writer ∧ w.Moves k writer (w.step event)) ∨
    ((w.step event).finalName = w.finalName ∧ (w.step event).entries = w.entries ∧
      (∀ (j : ℕ) (other : Writer), w.writers[j]? = some other →
        ∃ after, (w.step event).writers[j]? = some after ∧ after.renamed = other.renamed ∧ after.call = other.call) ∧
      ∀ (j : ℕ) (after : Writer), (w.step event).writers[j]? = some after → after.renamed = true →
        ∃ other, w.writers[j]? = some other ∧ other.renamed = true) := by
  have same : ∀ next : CacheWorld, next.writers = w.writers →
      (∀ (j : ℕ) (other : Writer), w.writers[j]? = some other →
        ∃ after, next.writers[j]? = some after ∧ after.renamed = other.renamed ∧ after.call = other.call) ∧
      ∀ (j : ℕ) (after : Writer), next.writers[j]? = some after → after.renamed = true →
        ∃ other, w.writers[j]? = some other ∧ other.renamed = true := by
    intro next hnext
    rw [hnext]
    exact ⟨fun j other hj => ⟨other, hj, rfl, rfl⟩, fun j after hj hrenamed => ⟨after, hj, hrenamed⟩⟩
  cases event with
  | tick => exact Or.inr ⟨rfl, rfl, same _ rfl⟩
  | call call =>
    refine Or.inr ⟨rfl, rfl, ?_, ?_⟩
    · intro j other hj
      exact ⟨other, Table.getElem?_append_singleton_eq_some_iff.mpr (Or.inl hj), rfl, rfl⟩
    · intro j after hj hrenamed
      rcases Table.getElem?_append_singleton_eq_some_iff.mp hj with hj | ⟨-, rfl⟩
      · exact ⟨after, hj, hrenamed⟩
      · cases hrenamed
  | crash process =>
    refine Or.inr ⟨rfl, rfl, ?_, ?_⟩
    · intro j other hj
      refine ⟨other.crash process, ?_, fields_crash process⟩
      simp [CacheWorld.step, CacheWorld.crash, hj]
    · intro j after hj hrenamed
      obtain ⟨before, hbefore, rfl⟩ : ∃ before, w.writers[j]? = some before ∧ before.crash process = after := by
        simpa [CacheWorld.step, CacheWorld.crash] using hj
      exact ⟨before, hbefore, (fields_crash process).1 ▸ hrenamed⟩
  | advance k answer =>
    cases hk : w.writers[k]? with
    | none =>
      have hstill : w.step (.advance k answer) = w := by
        change w.act k answer = w
        unfold act
        simp only [hk]
      rw [hstill]
      exact Or.inr ⟨rfl, rfl, same w rfl⟩
    | some writer => exact Or.inl ⟨k, answer, writer, rfl, hk, h.moves hk answer⟩

lemma PublishInv.finalName_step (h : PublishInv w) (event : PublishEvent) :
    (w.step event).finalName = w.finalName := by
  rcases h.moves_step event with ⟨k, answer, writer, -, -, hmoves⟩ | ⟨hname, -⟩
  · exact hmoves.name
  · exact hname

lemma PublishInv.kept_step (h : PublishInv w) (event : PublishEvent) {entry : Entry}
    (hentry : w.entries[w.finalName]? = some entry) : (w.step event).entries[w.finalName]? = some entry := by
  rcases h.moves_step event with ⟨k, answer, writer, -, -, hmoves⟩ | ⟨-, hentries, -⟩
  · exact hmoves.kept entry hentry
  · rw [hentries]
    exact hentry

lemma PublishInv.renamed_step (h : PublishInv w) (event : PublishEvent)
    (hk : w.writers[k]? = some writer) (hrenamed : writer.renamed = true) :
    ∃ after, (w.step event).writers[k]? = some after ∧ after.renamed = true ∧ after.call = writer.call := by
  rcases h.moves_step event with ⟨j, answer, other, -, hj, hmoves⟩ | ⟨-, -, hkept, -⟩
  · obtain ⟨changed, hwriters, hkeeps, hcall⟩ := hmoves.writers
    rw [hwriters]
    by_cases hjk : j = k
    · subst hjk
      obtain rfl := Option.some.inj (hj.symm.trans hk)
      refine ⟨changed, ?_, hkeeps hrenamed, hcall⟩
      rw [Table.getElem?_modify_eq_some_iff]
      exact ⟨other, hj, (if_pos rfl).symm⟩
    · refine ⟨writer, ?_, hrenamed, rfl⟩
      rw [Table.getElem?_modify_eq_some_iff]
      exact ⟨writer, hk, (if_neg hjk).symm⟩
  · obtain ⟨after, hafter, hsame, hcall⟩ := hkept k writer hk
    exact ⟨after, hafter, hsame.trans hrenamed, hcall⟩

lemma PublishInv.renamed_before (h : PublishInv w) {event : PublishEvent}
    (hk : (w.step event).writers[k]? = some writer) (hrenamed : writer.renamed = true) :
    (∃ before, w.writers[k]? = some before ∧ before.renamed = true) ∨ ∃ answer, event = .advance k answer := by
  rcases h.moves_step event with ⟨j, answer, other, hevent, hj, hmoves⟩ | ⟨-, -, -, horigin⟩
  · obtain ⟨changed, hwriters, -, -⟩ := hmoves.writers
    rw [hwriters, Table.getElem?_modify_eq_some_iff] at hk
    obtain ⟨before, hbefore, rfl⟩ := hk
    by_cases hjk : j = k
    · subst hjk
      exact Or.inr ⟨answer, hevent⟩
    · rw [if_neg hjk] at hrenamed
      exact Or.inl ⟨before, hbefore, hrenamed⟩
  · exact Or.inl (horigin k writer hk hrenamed)

lemma PublishInv.run (h : PublishInv w) (events : List PublishEvent) : PublishInv (w.run events) :=
  Runs.invariant (fun _ event hw => PublishInv.step hw event) h

lemma PublishInv.kept_run (h : PublishInv w) (events : List PublishEvent) {entry : Entry}
    (hentry : w.entries[w.finalName]? = some entry) : (w.run events).entries[w.finalName]? = some entry := by
  induction events generalizing w with
  | nil => exact hentry
  | cons event events ih =>
    rw [← h.finalName_step event]
    refine ih (PublishInv.step h event) ?_
    rw [h.finalName_step event]
    exact h.kept_step event hentry

lemma PublishInv.finalName_run (h : PublishInv w) (events : List PublishEvent) :
    (w.run events).finalName = w.finalName := by
  induction events generalizing w with
  | nil => rfl
  | cons event events ih =>
    exact (ih (PublishInv.step h event)).trans (h.finalName_step event)

lemma PublishInv.renamed_run (h : PublishInv w) (events : List PublishEvent)
    (hk : w.writers[k]? = some writer) (hrenamed : writer.renamed = true) :
    ∃ after, (w.run events).writers[k]? = some after ∧ after.renamed = true ∧ after.call = writer.call := by
  induction events generalizing w writer with
  | nil => exact ⟨writer, hk, hrenamed, rfl⟩
  | cons event events ih =>
    obtain ⟨after, hafter, hafter', hcall⟩ := h.renamed_step event hk hrenamed
    obtain ⟨last, hlast, hlast', hcall'⟩ := ih (PublishInv.step h event) hafter hafter'
    exact ⟨last, hlast, hlast', hcall'.trans hcall⟩

lemma PublishInv.content_run (h : PublishInv w) (events : List PublishEvent) {entry : Entry}
    (hentry : w.entries[w.finalName]? = some entry) :
    (w.run events).contentAt w.finalName = w.contentAt w.finalName := by
  have hname := h.finalName_run events
  have hkept := h.kept_run events hentry
  rcases h.final with ⟨hnone, -⟩ | ⟨k, writer, inode, hk, hrenamed, hfile, hcontent, -, -⟩
  · rw [hnone] at hentry
    cases hentry
  obtain ⟨after, hafter, hafter', hcall⟩ := h.renamed_run events hk hrenamed
  rcases (h.run events).final with ⟨hnone, -⟩ | ⟨j, last, inode', hj, hlast, hfile', hcontent', -, hone⟩
  · rw [hname, hkept] at hnone
    cases hnone
  · obtain rfl : k = j := hone k after hafter hafter'
    obtain rfl : after = last := Option.some.inj (hafter.symm.trans hj)
    rw [hname] at hfile'
    simp only [contentAt, hfile, hfile', hcontent, hcontent', hcall]

/-! ## The first writer wins -/

/-- There is no artifact, or it is the complete validated file of a call that has renamed.  One call
at most has, and it alone reports `published`, unless it crashes first. -/
structure FirstWriterWins (w : CacheWorld) : Prop where
  complete : w.entries[w.finalName]? = none ∨ ∃ (k : ℕ) (writer : Writer) (inode : ℕ),
    w.writers[k]? = some writer ∧ writer.renamed = true ∧
    w.entries[w.finalName]? = some (.file inode) ∧
    w.contentAt w.finalName = some writer.call.contents ∧
    writer.call.validate writer.call.contents = true
  single : ∀ (k j : ℕ) (writer other : Writer), w.writers[k]? = some writer →
    w.writers[j]? = some other → writer.renamed = true → other.renamed = true → k = j
  installed : ∀ (k : ℕ) (writer : Writer), w.writers[k]? = some writer → writer.renamed = true →
    w.entries[w.finalName]? ≠ none
  reports : ∀ (k : ℕ) (writer : Writer), w.writers[k]? = some writer → writer.renamed = true →
    writer.phase = .crashed ∨ writer.phase.result? = some (.ok .published)
  alone : ∀ (k : ℕ) (writer : Writer), w.writers[k]? = some writer →
    writer.phase.result? = some (.ok .published) → writer.renamed = true

lemma PublishInv.firstWriterWins (h : PublishInv w) : w.FirstWriterWins := by
  constructor
  · rcases h.final with ⟨hnone, -⟩ | ⟨k, writer, inode, hk, hrenamed, hfile, hcontent, hvalid, -⟩
    · exact Or.inl hnone
    · refine Or.inr ⟨k, writer, inode, hk, hrenamed, hfile, ?_, hvalid⟩
      simp only [contentAt, hfile, hcontent]
  · intro k j writer other hk hj hrenamed hother
    rcases h.final with ⟨-, hquiet⟩ | ⟨_, _, _, -, -, -, -, -, hone⟩
    · rw [hquiet k writer hk] at hrenamed
      cases hrenamed
    · exact (hone k writer hk hrenamed).trans (hone j other hj hother).symm
  · intro k writer hk hrenamed
    rcases h.final with ⟨-, hquiet⟩ | ⟨_, _, inode, -, -, hfile, -⟩
    · rw [hquiet k writer hk] at hrenamed
      cases hrenamed
    · rw [hfile]
      simp
  · exact fun k writer hk => (h.writers k writer hk).reported
  · exact fun k writer hk => (h.writers k writer hk).published

/-- In every run with crashes the artifact is absent or complete, and nothing replaces it. -/
theorem first_writer_wins (finalName : String) (entries : ExtTreeMap String Entry)
    (files : List FileData) (before after : List PublishEvent) :
    ((CacheWorld.without finalName entries files).run before).FirstWriterWins ∧
    (∀ entry, ((CacheWorld.without finalName entries files).run before).entries[finalName]? = some entry →
      ((CacheWorld.without finalName entries files).run (before ++ after)).entries[finalName]? = some entry ∧
        ((CacheWorld.without finalName entries files).run (before ++ after)).contentAt finalName =
          ((CacheWorld.without finalName entries files).run before).contentAt finalName) ∧
    ∀ event, (((CacheWorld.without finalName entries files).run (before ++ [event])).entries[finalName]? ≠
          ((CacheWorld.without finalName entries files).run before).entries[finalName]? ∨
        ((CacheWorld.without finalName entries files).run (before ++ [event])).contentAt finalName ≠
          ((CacheWorld.without finalName entries files).run before).contentAt finalName) →
      ∃ (k : ℕ) (answer : PublishAnswer) (writer : Writer), event = .advance k answer ∧
        ((CacheWorld.without finalName entries files).run
          (before ++ event :: after)).writers[k]? = some writer ∧
        (writer.phase = .crashed ∨ writer.phase.result? = some (.ok .published)) := by
  have hknown := publishInv_run finalName entries files before
  have hname : ((CacheWorld.without finalName entries files).run before).finalName = finalName := by
    refine PublishInv.finalName_run ?_ before
    exact publishInv_run finalName entries files []
  have happend : ∀ events, (CacheWorld.without finalName entries files).run (before ++ events) =
      ((CacheWorld.without finalName entries files).run before).run events :=
    fun events => Runs.run_append
  simp only [happend]
  generalize (CacheWorld.without finalName entries files).run before = w at hknown hname
  subst hname
  have hstays : ∀ events entry, w.entries[w.finalName]? = some entry →
      (w.run events).entries[w.finalName]? = some entry ∧
        (w.run events).contentAt w.finalName = w.contentAt w.finalName :=
    fun events entry hentry => ⟨hknown.kept_run events hentry, hknown.content_run events hentry⟩
  refine ⟨hknown.firstWriterWins, hstays after, ?_⟩
  intro event hdiffers
  have hnone : w.entries[w.finalName]? = none := by
    cases hentry : w.entries[w.finalName]? with
    | none => rfl
    | some entry =>
      obtain ⟨hsame, hcontent⟩ := hstays [event] entry hentry
      rcases hdiffers with hdiffers | hdiffers
      · exact absurd (hsame.trans hentry.symm) hdiffers
      · exact absurd hcontent hdiffers
  have hstep : PublishInv (w.step event) := PublishInv.step hknown event
  rcases hstep.final with ⟨hnone', -⟩ | ⟨k, writer, inode, hk, hrenamed, -⟩
  · rw [hknown.finalName_step event] at hnone'
    rcases hdiffers with hdiffers | hdiffers
    · exact absurd (hnone'.trans hnone.symm) hdiffers
    · refine absurd ?_ hdiffers
      change (w.step event).contentAt w.finalName = w.contentAt w.finalName
      simp only [contentAt, hnone, hnone']
  · rcases hknown.renamed_before hk hrenamed with ⟨earlier, hearlier, hearlier'⟩ | ⟨answer, rfl⟩
    · rcases hknown.final with ⟨-, hquiet⟩ | ⟨_, _, _, -, -, hfile, -⟩
      · rw [hquiet k earlier hearlier] at hearlier'
        cases hearlier'
      · rw [hnone] at hfile
        cases hfile
    · obtain ⟨last, hlast, hlast', -⟩ := hstep.renamed_run after hk hrenamed
      exact ⟨k, answer, last, rfl, hlast, ((hstep.run after).writers k last hlast).reported hlast'⟩

/-- A call of a process, whose caller accepts everything. -/
def plainCall (process : ℕ) (contents : List UInt8) : PublishCall where
  process
  lockPath := ".artifact.lock"
  contents
  validate _ := true
  staleTempAge := 86400
  tempStem := some "stem"

/-- The first process crashes after its rename; the second finds the artifact. -/
def crashAfterRename : List PublishEvent :=
  .call (plainCall 1 [7]) :: List.replicate 17 (.advance 0 (.ok 1)) ++
    .crash 1 :: .call (plainCall 2 [8]) :: List.replicate 12 (.advance 1 (.ok 1))

/-- A published artifact of which no call reports that it has published it. -/
theorem published_by_nobody :
    ((CacheWorld.without "artifact" ∅ []).run crashAfterRename).contentAt "artifact" = some [7] ∧
    ((CacheWorld.without "artifact" ∅ []).run crashAfterRename).writers.map Writer.phase =
      [.crashed, .over (.ok .preservedExisting)] := by
  decide +kernel

end CacheWorld

end AgzRustMcp.Cache
