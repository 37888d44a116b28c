import AgzRustMcp.Foundation.Table
import AgzRustMcp.Cache.Publish

/-!
# One writer at a time

A writer holds the advisory lock until its temporary file is removed, and the lock file is never
removed.  So two writers with the lock are the same writer.
-/

namespace AgzRustMcp.Cache

open Std (ExtTreeMap)

section Names

variable {name candidate stem : String} {attempt : ℕ}

lemma isTempName_temporaryName : IsTempName name (temporaryName name stem attempt) := by
  unfold IsTempName temporaryName
  simp only [String.toList_append, List.append_assoc]
  exact List.prefix_append _ _

lemma not_isTempName_final : ¬ IsTempName name name := by
  intro h
  have hlength := h.length_le
  simp [tempStart, String.toList_append] at hlength

lemma not_isTempName_lockName : ¬ IsTempName name (lockName name) := by
  intro h
  unfold IsTempName tempStart lockName at h
  simp only [String.toList_append] at h
  rw [List.prefix_append_right_inj] at h
  revert h
  decide

lemma lockName_ne_final : lockName name ≠ name := by
  intro h
  have hlength := congrArg (fun text => text.toList.length) h
  simp [lockName, String.toList_append] at hlength
  omega

end Names

/-! ## Phases -/

namespace PublishPhase

/-- The writer holds the advisory lock. -/
def inCritical : PublishPhase → Bool
  | .processLocking | .openingLock | .locking _ | .releasing _ | .over _ | .crashed => false
  | _ => true

/-- The writer has found no artifact and is making one. -/
def isInstalling : PublishPhase → Bool
  | .naming | .creating _ _ | .writing _ _ | .validating _ | .checking _ | .rechecking _ | .clearing _
  | .unlinking _ | .confirming _ | .renaming _ => true
  | _ => false

/-- The temporary file of a writer that has not begun to remove it. -/
def temp? : PublishPhase → Option TemporaryFile
  | .writing temp _ | .validating temp | .checking temp | .rechecking temp | .clearing temp
  | .unlinking temp | .confirming temp | .renaming temp => some temp
  | _ => none

/-- The name of the file that the writer removes or may come to remove. -/
def removable? : PublishPhase → Option String
  | .removing name _ => some name
  | .dropping temp _ => some temp.name
  | phase => phase.temp?.map TemporaryFile.name

/-- How much of the contents is in the temporary file. -/
def contentSoFar (contents : List UInt8) : PublishPhase → List UInt8
  | .writing _ written => contents.take written
  | _ => contents

/-- The caller has validated the temporary file. -/
def isValidated : PublishPhase → Bool
  | .checking _ | .rechecking _ | .clearing _ | .unlinking _ | .confirming _ | .renaming _ => true
  | _ => false

/-- The writer holds the lock and nothing else. -/
def isPlain : PublishPhase → Bool
  | .cleaning _ | .inspecting | .unlocking _ => true
  | _ => false

/-- The result of a writer that ends. -/
def result? : PublishPhase → Option (Except PublishError PublishOutcome)
  | .dropping _ result | .unlocking result | .releasing result | .over result => some result
  | _ => none

end PublishPhase

namespace CacheWorld

variable {w next : CacheWorld} {k j : ℕ} {writer changed other : Writer}

/-! ## The invariant -/

/-- What a writer knows about the directory. -/
structure WriterInv (w : CacheWorld) (k : ℕ) (writer : Writer) : Prop where
  critical : writer.phase.inCritical = true → ∃ lock, writer.lock = some lock ∧
    w.locks[lock]? = some k ∧ w.entries[lockName w.finalName]? = some (.file lock)
  opened : ∀ lock, writer.phase = .locking lock → w.entries[lockName w.finalName]? = some (.file lock)
  absent : writer.phase.isInstalling = true → w.entries[w.finalName]? = none
  named : ∀ name, writer.phase.removable? = some name → IsTempName w.finalName name
  temp : ∀ temp, writer.phase.temp? = some temp → w.entries[temp.name]? = some (.file temp.inode) ∧
    ∃ data, w.files[temp.inode]? = some data ∧ data.content = writer.phase.contentSoFar writer.call.contents
  validated : writer.phase.isValidated = true → writer.call.validate writer.call.contents = true
  reported : writer.renamed = true → writer.phase = .crashed ∨ writer.phase.result? = some (.ok .published)
  published : writer.phase.result? = some (.ok .published) → writer.renamed = true

/-- Nobody has renamed, or the artifact is the file of the one writer that has. -/
def FinalInv (w : CacheWorld) : Prop :=
  (w.entries[w.finalName]? = none ∧
    ∀ (k : ℕ) (writer : Writer), w.writers[k]? = some writer → writer.renamed = false) ∨
  ∃ (k : ℕ) (writer : Writer) (inode : ℕ), w.writers[k]? = some writer ∧ writer.renamed = true ∧
    w.entries[w.finalName]? = some (.file inode) ∧
    w.files[inode]?.map FileData.content = some writer.call.contents ∧
    writer.call.validate writer.call.contents = true ∧
    ∀ (j : ℕ) (other : Writer), w.writers[j]? = some other → other.renamed = true → j = k

/-- What all writers know, and what the artifact is. -/
structure PublishInv (w : CacheWorld) : Prop where
  writers : ∀ (k : ℕ) (writer : Writer), w.writers[k]? = some writer → w.WriterInv k writer
  final : w.FinalInv

lemma PublishInv.critical_unique (h : PublishInv w) (hk : w.writers[k]? = some writer)
    (hj : w.writers[j]? = some other) (hcritical : writer.phase.inCritical = true)
    (hcritical' : other.phase.inCritical = true) : k = j := by
  obtain ⟨lock, -, hlock, hentry⟩ := (h.writers k writer hk).critical hcritical
  obtain ⟨lock', -, hlock', hentry'⟩ := (h.writers j other hj).critical hcritical'
  obtain rfl : lock = lock' := by
    rw [hentry] at hentry'
    simpa using hentry'
  rw [hlock] at hlock'
  exact Option.some.inj hlock'

lemma WriterInv.same (h : w.WriterInv k writer) (hname : next.finalName = w.finalName)
    (hentries : next.entries = w.entries) (hfiles : next.files = w.files)
    (hlocks : next.locks = w.locks) : next.WriterInv k writer := by
  constructor
  · rw [hname, hentries, hlocks]
    exact h.critical
  · rw [hname, hentries]
    exact h.opened
  · rw [hname, hentries]
    exact h.absent
  · rw [hname]
    exact h.named
  · rw [hentries, hfiles]
    exact h.temp
  · exact h.validated
  · exact h.reported
  · exact h.published

lemma WriterInv.of_not_critical (h : w.WriterInv k writer) (hcritical : writer.phase.inCritical = false)
    (hentry : ∀ lock, w.entries[lockName w.finalName]? = some (.file lock) →
      next.entries[lockName next.finalName]? = some (.file lock)) : next.WriterInv k writer := by
  have hphase : writer.phase.isInstalling = false ∧ writer.phase.removable? = none ∧
      writer.phase.temp? = none ∧ writer.phase.isValidated = false := by
    revert hcritical
    cases writer.phase <;> simp [PublishPhase.inCritical, PublishPhase.isInstalling,
      PublishPhase.removable?, PublishPhase.temp?, PublishPhase.isValidated]
  constructor
  · intro hnow
    rw [hcritical] at hnow
    cases hnow
  · exact fun lock hlock => hentry lock (h.opened lock hlock)
  · intro hnow
    rw [hphase.1] at hnow
    cases hnow
  · intro name hname
    rw [hphase.2.1] at hname
    cases hname
  · intro temp htemp
    rw [hphase.2.2.1] at htemp
    cases htemp
  · intro hnow
    rw [hphase.2.2.2] at hnow
    cases hnow
  · exact h.reported
  · exact h.published

lemma PublishInv.of_critical (h : PublishInv w) (changed : Writer)
    (hk : w.writers[k]? = some writer) (hcritical : writer.phase.inCritical = true)
    (hwriters : next.writers = w.writers.modify k fun _ => changed)
    (hentry : ∀ lock, w.entries[lockName w.finalName]? = some (.file lock) →
      next.entries[lockName next.finalName]? = some (.file lock))
    (hchanged : next.WriterInv k changed) (hfinal : next.FinalInv) : PublishInv next := by
  refine ⟨fun j other hj => ?_, hfinal⟩
  rw [hwriters, Table.getElem?_modify_eq_some_iff] at hj
  obtain ⟨before, hbefore, rfl⟩ := hj
  by_cases hkj : k = j
  · subst hkj
    rw [if_pos rfl]
    exact hchanged
  · rw [if_neg hkj]
    refine (h.writers j before hbefore).of_not_critical ?_ hentry
    by_contra hother
    exact hkj (h.critical_unique hk hbefore hcritical (by simpa using hother))

lemma FinalInv.of_same (h : w.FinalInv) (hentry : next.entries[next.finalName]? = w.entries[w.finalName]?)
    (hfiles : ∀ inode data, w.entries[w.finalName]? = some (.file inode) →
      w.files[inode]? = some data → next.files[inode]? = some data)
    (hwriters : ∀ (k : ℕ) (writer : Writer), next.writers[k]? = some writer →
      writer.renamed = true → ∃ before, w.writers[k]? = some before ∧ before.renamed = true)
    (hkept : ∀ (k : ℕ) (writer : Writer), w.writers[k]? = some writer → writer.renamed = true →
      ∃ after, next.writers[k]? = some after ∧ after.renamed = true ∧ after.call = writer.call) : next.FinalInv := by
  rcases h with ⟨hnone, hquiet⟩ | ⟨k, writer, inode, hk, hrenamed, hfinal, hcontent, hvalid, hone⟩
  · refine Or.inl ⟨hentry.trans hnone, fun k writer hk => ?_⟩
    by_contra hrenamed
    obtain ⟨before, hbefore, hbefore'⟩ := hwriters k writer hk (by simpa using hrenamed)
    rw [hquiet k before hbefore] at hbefore'
    cases hbefore'
  · obtain ⟨after, hafter, hafter', hcall⟩ := hkept k writer hk hrenamed
    refine Or.inr ⟨k, after, inode, hafter, hafter', hentry.trans hfinal, ?_, ?_, ?_⟩
    · obtain ⟨data, hdata, hsame⟩ := Option.map_eq_some_iff.mp hcontent
      rw [hfiles inode data hfinal hdata, hcall, ← hsame]
      rfl
    · rw [hcall]
      exact hvalid
    · intro j other hj hother
      obtain ⟨before, hbefore, hbefore'⟩ := hwriters j other hj hother
      exact hone j before hbefore hbefore'

lemma FinalInv.of_modify (h : w.FinalInv) (changed : Writer) (hk : w.writers[k]? = some writer)
    (hwriters : next.writers = w.writers.modify k fun _ => changed)
    (hrenamed : changed.renamed = writer.renamed) (hcall : changed.call = writer.call)
    (hentry : next.entries[next.finalName]? = w.entries[w.finalName]?)
    (hfiles : ∀ inode data, w.entries[w.finalName]? = some (.file inode) →
      w.files[inode]? = some data → next.files[inode]? = some data) : next.FinalInv := by
  refine h.of_same hentry hfiles ?_ ?_
  · intro j other hj hother
    rw [hwriters, Table.getElem?_modify_eq_some_iff] at hj
    obtain ⟨before, hbefore, rfl⟩ := hj
    by_cases hkj : k = j
    · subst hkj
      rw [if_pos rfl] at hother
      exact ⟨writer, hk, hrenamed ▸ hother⟩
    · rw [if_neg hkj] at hother
      exact ⟨before, hbefore, hother⟩
  · intro j other hj hother
    refine ⟨if k = j then changed else other, ?_, ?_⟩
    · rw [hwriters, Table.getElem?_modify_eq_some_iff]
      exact ⟨other, hj, rfl⟩
    · by_cases hkj : k = j
      · subst hkj
        obtain rfl := Option.some.inj (hk.symm.trans hj)
        rw [if_pos rfl]
        exact ⟨hrenamed.trans hother, hcall⟩
      · rw [if_neg hkj]
        exact ⟨hother, rfl⟩

/-! ## Steps that leave the directory alone -/

lemma WriterInv.not_renamed (h : w.WriterInv k writer) (hcrashed : writer.phase ≠ .crashed)
    (hresult : writer.phase.result? ≠ some (.ok .published)) : writer.renamed = false := by
  by_contra hrenamed
  rcases h.reported (by simpa using hrenamed) with hphase | hphase
  · exact hcrashed hphase
  · exact hresult hphase

variable {phase : PublishPhase} {temp : TemporaryFile} {name : String}

lemma plain_phase (h : phase.isPlain = true) :
    phase.isInstalling = false ∧ phase.removable? = none ∧ phase.temp? = none ∧
      phase.isValidated = false ∧ ∀ lock, phase ≠ .locking lock := by
  revert h
  cases phase <;> simp [PublishPhase.isPlain, PublishPhase.isInstalling, PublishPhase.removable?,
    PublishPhase.temp?, PublishPhase.isValidated]

lemma WriterInv.enter_plain (h : w.WriterInv k writer) (hcritical : writer.phase.inCritical = true)
    (hphase : phase.isPlain = true)
    (hresult : writer.renamed = true ↔ phase.result? = some (.ok .published)) :
    w.WriterInv k { writer with phase } := by
  obtain ⟨hinstalling, hremovable, htemp, hvalidated, hlocking⟩ := plain_phase hphase
  constructor
  · exact fun _ => h.critical hcritical
  · exact fun lock hlock => absurd hlock (hlocking lock)
  · exact fun hnow => absurd (hinstalling.symm.trans hnow) (by decide)
  · exact fun name hname => absurd (hremovable.symm.trans hname) (by simp)
  · exact fun temp hnow => absurd (htemp.symm.trans hnow) (by simp)
  · exact fun hnow => absurd (hvalidated.symm.trans hnow) (by decide)
  · exact fun hnow => Or.inr (hresult.mp hnow)
  · exact hresult.mpr

lemma WriterInv.enter_installing (h : w.WriterInv k writer)
    (hcritical : writer.phase.inCritical = true) (hrenamed : writer.renamed = false)
    (habsent : w.entries[w.finalName]? = none)
    (hphase : phase = .naming ∨ ∃ stem attempt, phase = .creating stem attempt) :
    w.WriterInv k { writer with phase } := by
  have hplain : phase.removable? = none ∧ phase.temp? = none ∧ phase.isValidated = false ∧
      (∀ lock, phase ≠ .locking lock) ∧ phase.result? = none := by
    rcases hphase with rfl | ⟨stem, attempt, rfl⟩ <;> simp [PublishPhase.removable?,
      PublishPhase.temp?, PublishPhase.isValidated, PublishPhase.result?]
  obtain ⟨hremovable, htemp, hvalidated, hlocking, hresult⟩ := hplain
  constructor
  · exact fun _ => h.critical hcritical
  · exact fun lock hlock => absurd hlock (hlocking lock)
  · exact fun _ => habsent
  · exact fun name hname => absurd (hremovable.symm.trans hname) (by simp)
  · exact fun temp hnow => absurd (htemp.symm.trans hnow) (by simp)
  · exact fun hnow => absurd (hvalidated.symm.trans hnow) (by decide)
  · exact fun hnow => absurd (hrenamed.symm.trans hnow) (by decide)
  · exact fun hnow => absurd (hresult.symm.trans hnow) (by simp)

lemma phase_of_temp (h : phase.temp? = some temp) :
    phase.inCritical = true ∧ phase.isInstalling = true ∧ phase.removable? = some temp.name ∧
      (∀ lock, phase ≠ .locking lock) ∧ phase ≠ .crashed ∧ phase.result? = none := by
  cases phase <;> simp_all [PublishPhase.temp?, PublishPhase.inCritical, PublishPhase.isInstalling,
    PublishPhase.removable?, PublishPhase.result?]

lemma WriterInv.enter_temp (h : w.WriterInv k writer)
    (hbefore : writer.phase.temp? = some temp) (hphase : phase.temp? = some temp)
    (hcontent : phase.contentSoFar writer.call.contents = writer.phase.contentSoFar writer.call.contents)
    (hvalid : phase.isValidated = true → writer.call.validate writer.call.contents = true) :
    w.WriterInv k { writer with phase } := by
  obtain ⟨hcritical, hinstalling, hremovable, -, hcrashed, hresult⟩ := phase_of_temp hbefore
  obtain ⟨-, -, hremovable', hlocking, -, hresult'⟩ := phase_of_temp hphase
  have hrenamed : writer.renamed = false := h.not_renamed hcrashed (by simp [hresult])
  constructor
  · exact fun _ => h.critical hcritical
  · exact fun lock hlock => absurd hlock (hlocking lock)
  · exact fun _ => h.absent hinstalling
  · intro name hname
    obtain rfl := Option.some.inj (hremovable'.symm.trans hname)
    exact h.named _ hremovable
  · intro temp' htemp'
    obtain rfl := Option.some.inj (hphase.symm.trans htemp')
    obtain ⟨hentry, data, hdata, hsame⟩ := h.temp temp hbefore
    exact ⟨hentry, data, hdata, hsame.trans hcontent.symm⟩
  · exact hvalid
  · exact fun hnow => absurd (hrenamed.symm.trans hnow) (by decide)
  · exact fun hnow => absurd (hresult'.symm.trans hnow) (by simp)

lemma WriterInv.enter_dropping (h : w.WriterInv k writer)
    (hbefore : writer.phase.temp? = some temp) {result : Except PublishError PublishOutcome}
    (hends : result ≠ .ok .published) : w.WriterInv k { writer with phase := .dropping temp result } := by
  obtain ⟨hcritical, -, hremovable, -, hcrashed, hresult⟩ := phase_of_temp hbefore
  have hrenamed : writer.renamed = false := h.not_renamed hcrashed (by simp [hresult])
  constructor
  · exact fun _ => h.critical hcritical
  · exact fun lock hlock => by cases hlock
  · exact fun hnow => by cases hnow
  · intro name hname
    obtain rfl : temp.name = name := Option.some.inj hname
    exact h.named _ hremovable
  · exact fun temp' htemp' => by cases htemp'
  · exact fun hnow => by cases hnow
  · exact fun hnow => absurd (hrenamed.symm.trans hnow) (by decide)
  · exact fun hnow => absurd (Option.some.inj hnow) hends

lemma WriterInv.enter_outside (h : w.WriterInv k writer) {lock : Option ℕ} (hphase : phase.inCritical = false)
    (hopened : ∀ lock, phase = .locking lock → w.entries[lockName w.finalName]? = some (.file lock))
    (hreported : writer.renamed = true → phase = .crashed ∨ phase.result? = some (.ok .published))
    (hpublished : phase.result? = some (.ok .published) → writer.renamed = true) :
    w.WriterInv k { writer with phase, lock } := by
  have hplain : phase.isInstalling = false ∧ phase.removable? = none ∧ phase.temp? = none ∧
      phase.isValidated = false := by
    revert hphase
    cases phase <;> simp [PublishPhase.inCritical, PublishPhase.isInstalling,
      PublishPhase.removable?, PublishPhase.temp?, PublishPhase.isValidated]
  obtain ⟨hinstalling, hremovable, htemp, hvalidated⟩ := hplain
  constructor
  · exact fun hnow => absurd (hphase.symm.trans hnow) (by decide)
  · exact hopened
  · exact fun hnow => absurd (hinstalling.symm.trans hnow) (by decide)
  · exact fun name hname => absurd (hremovable.symm.trans hname) (by simp)
  · exact fun temp hnow => absurd (htemp.symm.trans hnow) (by simp)
  · exact fun hnow => absurd (hvalidated.symm.trans hnow) (by decide)
  · exact hreported
  · exact hpublished

lemma PublishInv.enter (h : PublishInv w) (hk : w.writers[k]? = some writer)
    (hcritical : writer.phase.inCritical = true)
    (hnext : w.WriterInv k { writer with phase }) : PublishInv (w.enter k writer phase) :=
  h.of_critical { writer with phase } hk hcritical rfl (fun _ hentry => hentry)
    (hnext.same rfl rfl rfl rfl) (h.final.of_modify { writer with phase } hk rfl rfl rfl rfl fun _ _ _ hdata => hdata)

lemma PublishInv.outside (h : PublishInv w) (hk : w.writers[k]? = some writer)
    (hnext : w.WriterInv k changed) (hrenamed : changed.renamed = writer.renamed)
    (hcall : changed.call = writer.call) : PublishInv (w.setWriter k changed) := by
  refine ⟨fun j other hj => ?_, h.final.of_modify changed hk rfl hrenamed hcall rfl
    fun _ _ _ hdata => hdata⟩
  obtain ⟨before, hbefore, rfl⟩ := Table.getElem?_modify_eq_some_iff.mp hj
  by_cases hkj : k = j
  · subst hkj
    rw [if_pos rfl]
    exact hnext.same rfl rfl rfl rfl
  · rw [if_neg hkj]
    exact (h.writers j before hbefore).same rfl rfl rfl rfl

lemma getElem?_removeFile {other : String} (hne : name ≠ other) :
    (w.removeFile name).entries[other]? = w.entries[other]? := by
  unfold removeFile
  split
  · rfl
  · rw [ExtTreeMap.getElem?_erase, if_neg (by simpa using hne)]

lemma fields_removeFile (name : String) : (w.removeFile name).finalName = w.finalName ∧
    (w.removeFile name).files = w.files ∧ (w.removeFile name).locks = w.locks ∧
    (w.removeFile name).writers = w.writers := by
  unfold removeFile
  split <;> exact ⟨rfl, rfl, rfl, rfl⟩

lemma ne_of_isTempName (h : IsTempName w.finalName name) : name ≠ w.finalName ∧ name ≠ lockName w.finalName := by
  constructor
  · rintro rfl
    exact not_isTempName_final h
  · rintro rfl
    exact not_isTempName_lockName h

lemma PublishInv.removeFile (h : PublishInv w) (hk : w.writers[k]? = some writer)
    (hcritical : writer.phase.inCritical = true) (hname : IsTempName w.finalName name) (hphase : phase.isPlain = true)
    (hresult : writer.renamed = true ↔ phase.result? = some (.ok .published)) :
    PublishInv ((w.removeFile name).enter k writer phase) := by
  obtain ⟨hfinalName, hfiles, hlocks, hwriters⟩ := fields_removeFile (w := w) name
  obtain ⟨hfinal, hlock⟩ := ne_of_isTempName hname
  have hwriter := (h.writers k writer hk).enter_plain hcritical hphase hresult
  have hlockEntry : (w.removeFile name).entries[lockName (w.removeFile name).finalName]? =
      w.entries[lockName w.finalName]? := by
    rw [hfinalName, getElem?_removeFile hlock]
  have hfinalEntry : (w.removeFile name).entries[(w.removeFile name).finalName]? = w.entries[w.finalName]? := by
    rw [hfinalName, getElem?_removeFile hfinal]
  refine h.of_critical { writer with phase } hk hcritical ?_ ?_ ?_ ?_
  · change (w.removeFile name).writers.modify k _ = _
    rw [hwriters]
  · intro lock hentry
    exact hlockEntry.trans hentry
  · obtain ⟨hinstalling, hremovable, htemp, -, hlocking⟩ := plain_phase hphase
    constructor
    · intro hnow
      obtain ⟨lock, hown, hheld, hentry⟩ := hwriter.critical hnow
      refine ⟨lock, hown, ?_, hlockEntry.trans hentry⟩
      change (w.removeFile name).locks[lock]? = some k
      rw [hlocks, hheld]
    · exact fun lock hnow => absurd hnow (hlocking lock)
    · exact fun hnow => absurd (hinstalling.symm.trans hnow) (by decide)
    · exact fun name hnow => absurd (hremovable.symm.trans hnow) (by simp)
    · exact fun temp hnow => absurd (htemp.symm.trans hnow) (by simp)
    · exact hwriter.validated
    · exact hwriter.reported
    · exact hwriter.published
  · refine h.final.of_modify { writer with phase } hk ?_ rfl rfl hfinalEntry ?_
    · change (w.removeFile name).writers.modify k _ = _
      rw [hwriters]
    · intro inode data _ hdata
      change (w.removeFile name).files[inode]? = some data
      rw [hfiles, hdata]

lemma PublishInv.createLock (h : PublishInv w) (hk : w.writers[k]? = some writer)
    (hphase : writer.phase = .openingLock) (hnone : w.entries[lockName w.finalName]? = none) :
    PublishInv ((w.createFile (lockName w.finalName)).enter k writer (.locking w.files.length)) := by
  have hfree : ∀ (j : ℕ) (other : Writer), w.writers[j]? = some other → other.phase.inCritical = false := by
    intro j other hj
    by_contra hcritical
    obtain ⟨lock, -, -, hentry⟩ := (h.writers j other hj).critical (by simpa using hcritical)
    rw [hnone] at hentry
    cases hentry
  have hrenamed : writer.renamed = false :=
    (h.writers k writer hk).not_renamed (by simp [hphase]) (by simp [hphase, PublishPhase.result?])
  have hcreated : ((w.createFile (lockName w.finalName)).enter k writer
      (.locking w.files.length)).entries[lockName w.finalName]? = some (.file w.files.length) :=
    ExtTreeMap.getElem?_insert_self
  refine ⟨fun j other hj => ?_, ?_⟩
  · obtain ⟨before, hbefore, rfl⟩ := Table.getElem?_modify_eq_some_iff.mp hj
    by_cases hkj : k = j
    · subst hkj
      obtain rfl := Option.some.inj (hk.symm.trans hbefore)
      rw [if_pos rfl]
      constructor
      · rintro ⟨⟩
      · intro lock hlock
        obtain rfl : w.files.length = lock := by simpa using hlock
        exact hcreated
      · rintro ⟨⟩
      · rintro name ⟨⟩
      · rintro temp ⟨⟩
      · rintro ⟨⟩
      · exact fun hnow => absurd (hrenamed.symm.trans hnow) (by decide)
      · rintro ⟨⟩
    · rw [if_neg hkj]
      refine (h.writers j before hbefore).of_not_critical (hfree j before hbefore) ?_
      intro lock hentry
      rw [hnone] at hentry
      cases hentry
  · refine h.final.of_modify { writer with phase := .locking w.files.length } hk rfl rfl
      rfl ?_ ?_
    · change (w.entries.insert (lockName w.finalName) _)[w.finalName]? = _
      rw [ExtTreeMap.getElem?_insert, if_neg (by simpa using lockName_ne_final)]
    · intro inode data _ hdata
      exact (List.getElem?_append_left (Table.lt_length_of_getElem? hdata)).trans hdata

end CacheWorld

end AgzRustMcp.Cache
