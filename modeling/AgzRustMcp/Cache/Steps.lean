import AgzRustMcp.Cache.Exclusion

/-!
# The steps of the writers

Every step of a writer keeps `PublishInv`, so it holds of every directory that any number of calls have
worked on, however their steps were interleaved and whichever processes crashed.
-/

namespace AgzRustMcp.Cache

open Std (ExtTreeMap)

namespace CacheWorld

variable {w next : CacheWorld} {k j : ℕ} {writer other : Writer}

lemma PublishInv.same (h : PublishInv w) (hname : next.finalName = w.finalName)
    (hentries : next.entries = w.entries) (hfiles : next.files = w.files)
    (hlocks : next.locks = w.locks) (hwriters : next.writers = w.writers) : PublishInv next := by
  constructor
  · intro k writer hk
    rw [hwriters] at hk
    exact (h.writers k writer hk).same hname hentries hfiles hlocks
  · refine h.final.of_same ?_ ?_ ?_ ?_
    · rw [hname, hentries]
    · intro inode data _ hdata
      rw [hfiles]
      exact hdata
    · intro k writer hk hrenamed
      rw [hwriters] at hk
      exact ⟨writer, hk, hrenamed⟩
    · intro k writer hk hrenamed
      rw [hwriters]
      exact ⟨writer, hk, hrenamed, rfl⟩

lemma PublishInv.takeLock (h : PublishInv w) (hk : w.writers[k]? = some writer) {lock : ℕ}
    (hphase : writer.phase = .locking lock) (hfree : ¬ w.locks.contains lock) :
    PublishInv { w.setWriter k { writer with phase := .listing, lock := some lock } with
      locks := w.locks.insert lock k } := by
  have hentry := (h.writers k writer hk).opened lock hphase
  have hothers : ∀ (j : ℕ) (other : Writer), w.writers[j]? = some other → other.phase.inCritical = false := by
    intro j other hj
    by_contra hcritical
    obtain ⟨lock', -, hheld, hentry'⟩ :=
      (h.writers j other hj).critical (by simpa using hcritical)
    obtain rfl : lock = lock' := by
      rw [hentry] at hentry'
      simpa using hentry'
    rw [← ExtTreeMap.isSome_getElem?_eq_contains, hheld] at hfree
    exact hfree rfl
  have hrenamed : writer.renamed = false :=
    (h.writers k writer hk).not_renamed (by simp [hphase]) (by simp [hphase, PublishPhase.result?])
  constructor
  · intro j other hj
    obtain ⟨before, hbefore, rfl⟩ := Table.getElem?_modify_eq_some_iff.mp hj
    by_cases hkj : k = j
    · subst hkj
      rw [if_pos rfl]
      constructor
      · exact fun _ => ⟨lock, rfl, ExtTreeMap.getElem?_insert_self, hentry⟩
      · rintro lock' ⟨⟩
      · rintro ⟨⟩
      · rintro name ⟨⟩
      · rintro temp ⟨⟩
      · rintro ⟨⟩
      · exact fun hnow => absurd (hrenamed.symm.trans hnow) (by decide)
      · rintro ⟨⟩
    · rw [if_neg hkj]
      exact (h.writers j before hbefore).of_not_critical (hothers j before hbefore)
        fun _ hlock => hlock
  · exact h.final.of_modify { writer with phase := .listing, lock := some lock } hk rfl rfl rfl rfl
      fun _ _ _ hdata => hdata

lemma PublishInv.giveLock (h : PublishInv w) (hk : w.writers[k]? = some writer)
    {result : Except PublishError PublishOutcome} (hphase : writer.phase = .unlocking result)
    (lock : ℕ) : PublishInv { w.setWriter k { writer with phase := .releasing result, lock := none }
      with locks := w.locks.erase lock } := by
  have hwriter := h.writers k writer hk
  refine h.of_critical { writer with phase := .releasing result, lock := none } hk
    (by rw [hphase]; rfl) rfl (fun _ hentry => hentry) ?_ ?_
  · have hnext : w.WriterInv k { writer with phase := .releasing result, lock := none } := by
      refine hwriter.enter_outside rfl (fun _ hlock => by cases hlock) ?_ ?_
      · intro hrenamed
        rcases hwriter.reported hrenamed with hcrashed | hresult
        · rw [hphase] at hcrashed
          cases hcrashed
        · rw [hphase] at hresult
          exact Or.inr hresult
      · intro hresult
        refine hwriter.published ?_
        rw [hphase]
        exact hresult
    exact hnext.of_not_critical rfl fun _ hentry => hentry
  · exact h.final.of_modify { writer with phase := .releasing result, lock := none } hk rfl rfl rfl
      rfl fun _ _ _ hdata => hdata

lemma PublishInv.createTemp (h : PublishInv w) (hk : w.writers[k]? = some writer) {stem : String}
    {attempt : ℕ} (hphase : writer.phase = .creating stem attempt) {name : String}
    (hname : IsTempName w.finalName name) (hnew : ¬ w.entries.contains name) :
    PublishInv ((w.createFile name).enter k writer (.writing ⟨name, w.files.length⟩ 0)) := by
  have hwriter := h.writers k writer hk
  have hcritical : writer.phase.inCritical = true := by rw [hphase]; rfl
  have habsent : w.entries[w.finalName]? = none := hwriter.absent (by rw [hphase]; rfl)
  have hrenamed : writer.renamed = false :=
    hwriter.not_renamed (by simp [hphase]) (by simp [hphase, PublishPhase.result?])
  obtain ⟨hfinal, hlock⟩ := ne_of_isTempName hname
  have hother : ∀ {other : String}, name ≠ other →
      (w.entries.insert name (.file w.files.length))[other]? = w.entries[other]? := by
    intro other hne
    rw [ExtTreeMap.getElem?_insert, if_neg (by simpa using hne)]
  refine h.of_critical { writer with phase := .writing ⟨name, w.files.length⟩ 0 } hk hcritical rfl
    (fun _ hentry => (hother hlock).trans hentry) ?_ ?_
  · constructor
    · intro _
      obtain ⟨lock, hown, hheld, hentry⟩ := hwriter.critical hcritical
      exact ⟨lock, hown, hheld, (hother hlock).trans hentry⟩
    · rintro lock ⟨⟩
    · exact fun _ => (hother hfinal).trans habsent
    · intro name' hname'
      obtain rfl : name = name' := Option.some.inj hname'
      exact hname
    · intro temp htemp
      obtain rfl : (⟨name, w.files.length⟩ : TemporaryFile) = temp := Option.some.inj htemp
      exact ⟨ExtTreeMap.getElem?_insert_self, ⟨[], w.now⟩, List.getElem?_concat_length, rfl⟩
    · rintro ⟨⟩
    · exact fun hnow => absurd (hrenamed.symm.trans hnow) (by decide)
    · rintro ⟨⟩
  · refine h.final.of_modify { writer with phase := .writing ⟨name, w.files.length⟩ 0 } hk rfl rfl
      rfl (hother hfinal) ?_
    intro inode data hentry _
    rw [habsent] at hentry
    cases hentry

lemma PublishInv.createTemporary (h : PublishInv w) (hk : w.writers[k]? = some writer)
    {stem : String} {attempt : ℕ} (hphase : writer.phase = .creating stem attempt) :
    PublishInv (w.createTemporary k writer stem attempt) := by
  have hwriter := h.writers k writer hk
  have hcritical : writer.phase.inCritical = true := by rw [hphase]; rfl
  have hrenamed : writer.renamed = false :=
    hwriter.not_renamed (by simp [hphase]) (by simp [hphase, PublishPhase.result?])
  unfold CacheWorld.createTemporary
  dsimp only
  split_ifs with hexhausted hexists
  · exact h.enter hk hcritical
      (hwriter.enter_plain hcritical rfl (by simp [hrenamed, PublishPhase.result?]))
  · exact h.enter hk hcritical (hwriter.enter_installing hcritical hrenamed
      (hwriter.absent (by rw [hphase]; rfl)) (Or.inr ⟨stem, attempt + 1, rfl⟩))
  · exact h.createTemp hk hphase isTempName_temporaryName hexists

lemma PublishInv.writeMore (h : PublishInv w) (hk : w.writers[k]? = some writer)
    {temp : TemporaryFile} {written : ℕ} (hphase : writer.phase = .writing temp written)
    (bytes : ℕ) : PublishInv (w.writeMore k writer temp written bytes) := by
  have hwriter := h.writers k writer hk
  have htemp : writer.phase.temp? = some temp := by rw [hphase]; rfl
  obtain ⟨hcritical, hinstalling, hremovable, -, hcrashed, hresult⟩ := phase_of_temp htemp
  have habsent := hwriter.absent hinstalling
  have hrenamed : writer.renamed = false := hwriter.not_renamed hcrashed (by simp [hresult])
  unfold CacheWorld.writeMore
  dsimp only
  split_ifs with hless
  · refine h.of_critical
      { writer with
        phase := .writing temp (min (written + bytes) writer.call.contents.length) }
      hk hcritical rfl (fun _ hentry => hentry) ?_ ?_
    · constructor
      · exact fun _ => hwriter.critical hcritical
      · rintro lock ⟨⟩
      · exact fun _ => habsent
      · intro name hname
        obtain rfl : temp.name = name := Option.some.inj hname
        exact hwriter.named _ hremovable
      · intro temp' htemp'
        obtain rfl : temp = temp' := Option.some.inj htemp'
        obtain ⟨hentry, data, hdata, -⟩ := hwriter.temp temp htemp
        refine ⟨hentry, ⟨writer.call.contents.take (min (written + bytes)
          writer.call.contents.length), w.now⟩, ?_, rfl⟩
        rw [Table.getElem?_modify_eq_some_iff]
        exact ⟨data, hdata, (if_pos rfl).symm⟩
      · rintro ⟨⟩
      · exact fun hnow => absurd (hrenamed.symm.trans hnow) (by decide)
      · rintro ⟨⟩
    · refine h.final.of_modify
        { writer with
          phase := .writing temp (min (written + bytes) writer.call.contents.length) }
        hk rfl rfl rfl rfl ?_
      intro inode data hentry _
      rw [habsent] at hentry
      cases hentry
  · refine h.enter hk hcritical (hwriter.enter_temp htemp rfl ?_ (by rintro ⟨⟩))
    rw [hphase]
    change writer.call.contents = writer.call.contents.take written
    rw [List.take_of_length_le (by omega)]

lemma PublishInv.lookAtFinal (h : PublishInv w) (hk : w.writers[k]? = some writer)
    {temp : TemporaryFile} (htemp : writer.phase.temp? = some temp) {absent stale : PublishPhase}
    (habsent : PublishInv (w.enter k writer absent)) (hstale : PublishInv (w.enter k writer stale)) :
    PublishInv (w.lookAtFinal k writer temp absent stale) := by
  have hwriter := h.writers k writer hk
  have hcritical := (phase_of_temp htemp).1
  unfold CacheWorld.lookAtFinal
  split
  · exact h.enter hk hcritical (hwriter.enter_dropping htemp (by simp))
  · exact h.enter hk hcritical (hwriter.enter_dropping htemp (by simp))
  · exact habsent
  · exact hstale

lemma removeFile_of_absent {name : String} (h : w.entries[name]? = none) : w.removeFile name = w := by
  unfold CacheWorld.removeFile
  rw [h, if_neg (by simp)]
  have hentries : w.entries.erase name = w.entries := by
    refine ExtTreeMap.ext_getElem? fun other => ?_
    rw [ExtTreeMap.getElem?_erase]
    split_ifs with heq
    · rw [← compare_eq_iff_eq.mp heq, h]
    · rfl
  rw [hentries]

lemma PublishInv.renameTemporary (h : PublishInv w) (hk : w.writers[k]? = some writer)
    {temp : TemporaryFile} (hphase : writer.phase = .renaming temp) :
    PublishInv (w.renameTemporary k writer temp) := by
  have hwriter := h.writers k writer hk
  have htemp : writer.phase.temp? = some temp := by rw [hphase]; rfl
  obtain ⟨hcritical, hinstalling, hremovable, -, -, -⟩ := phase_of_temp htemp
  have habsent := hwriter.absent hinstalling
  have hvalid := hwriter.validated (by rw [hphase]; rfl)
  obtain ⟨hentry, data, hdata, hcontent⟩ := hwriter.temp temp htemp
  obtain ⟨hfinal, hlock⟩ := ne_of_isTempName (hwriter.named _ hremovable)
  have hquiet : ∀ (j : ℕ) (other : Writer), w.writers[j]? = some other → other.renamed = false := by
    rcases h.final with ⟨-, hquiet⟩ | ⟨_, _, inode, _, _, hpresent, _⟩
    · exact hquiet
    · rw [habsent] at hpresent
      cases hpresent
  have hlockEntry : ∀ lock, w.entries[lockName w.finalName]? = some (.file lock) →
      ((w.entries.erase temp.name).insert w.finalName (.file temp.inode))[lockName w.finalName]? =
        some (.file lock) := by
    intro lock hheld
    rw [ExtTreeMap.getElem?_insert, if_neg (by simpa using lockName_ne_final.symm),
      ExtTreeMap.getElem?_erase, if_neg (by simpa using hlock)]
    exact hheld
  have hme : (w.writers.modify k fun _ =>
      { writer with phase := .unlocking (.ok .published), renamed := true })[k]? =
        some { writer with phase := .unlocking (.ok .published), renamed := true } := by
    rw [Table.getElem?_modify_eq_some_iff]
    exact ⟨writer, hk, (if_pos rfl).symm⟩
  unfold CacheWorld.renameTemporary
  rw [hentry]
  refine h.of_critical { writer with phase := .unlocking (.ok .published), renamed := true } hk
    hcritical rfl hlockEntry ?_ ?_
  · constructor
    · intro _
      obtain ⟨lock, hown, hheld, hopened⟩ := hwriter.critical hcritical
      exact ⟨lock, hown, hheld, hlockEntry lock hopened⟩
    · rintro lock ⟨⟩
    · rintro ⟨⟩
    · rintro name ⟨⟩
    · rintro temp ⟨⟩
    · rintro ⟨⟩
    · exact fun _ => Or.inr rfl
    · exact fun _ => rfl
  · refine Or.inr ⟨k, _, temp.inode, hme, rfl, ExtTreeMap.getElem?_insert_self, ?_, hvalid, ?_⟩
    · change w.files[temp.inode]?.map FileData.content = some writer.call.contents
      rw [hdata, Option.map_some, hcontent, hphase]
      rfl
    · intro j other hj hrenamed
      obtain ⟨before, hbefore, rfl⟩ := Table.getElem?_modify_eq_some_iff.mp hj
      by_contra hjk
      rw [if_neg fun hkj => hjk hkj.symm, hquiet j before hbefore] at hrenamed
      cases hrenamed

/-! ## Every step -/

lemma WriterInv.renamed_iff (h : w.WriterInv k writer) (hcrashed : writer.phase ≠ .crashed) :
    writer.renamed = true ↔ writer.phase.result? = some (.ok .published) := by
  constructor
  · exact fun hrenamed => (h.reported hrenamed).resolve_left hcrashed
  · exact h.published

lemma PublishInv.enter_plain (h : PublishInv w) (hk : w.writers[k]? = some writer)
    (hcritical : writer.phase.inCritical = true) {phase : PublishPhase}
    (hphase : phase.isPlain = true) (hresult : phase.result? = some (.ok .published) ↔
      writer.phase.result? = some (.ok .published)) : PublishInv (w.enter k writer phase) := by
  have hwriter := h.writers k writer hk
  have hcrashed : writer.phase ≠ .crashed := by
    intro hcrashed
    rw [hcrashed] at hcritical
    cases hcritical
  exact h.enter hk hcritical (hwriter.enter_plain hcritical hphase
    ((hwriter.renamed_iff hcrashed).trans hresult.symm))

lemma PublishInv.enter_outside (h : PublishInv w) (hk : w.writers[k]? = some writer)
    (hcrashed : writer.phase ≠ .crashed) {phase : PublishPhase} (hphase : phase.inCritical = false)
    (hopened : ∀ lock, phase = .locking lock → w.entries[lockName w.finalName]? = some (.file lock))
    (hresult : phase.result? = some (.ok .published) ↔
      writer.phase.result? = some (.ok .published)) : PublishInv (w.enter k writer phase) := by
  have hwriter := h.writers k writer hk
  have hrenamed := (hwriter.renamed_iff hcrashed).trans hresult.symm
  exact h.outside hk (hwriter.enter_outside hphase hopened (fun hnow => Or.inr (hrenamed.mp hnow))
    hrenamed.mpr) rfl rfl

lemma PublishInv.openLock (h : PublishInv w) (hk : w.writers[k]? = some writer)
    (hphase : writer.phase = .openingLock) : PublishInv (w.openLock k writer) := by
  have hcrashed : writer.phase ≠ .crashed := by simp [hphase]
  unfold CacheWorld.openLock
  split
  · exact h.enter_outside hk hcrashed rfl (by rintro lock ⟨⟩) (by simp [hphase, PublishPhase.result?])
  · exact h.enter_outside hk hcrashed rfl (by rintro lock ⟨⟩) (by simp [hphase, PublishPhase.result?])
  · rename_i lock hentry
    refine h.enter_outside hk hcrashed rfl ?_ (by simp [hphase, PublishPhase.result?])
    intro lock' hlock
    obtain rfl : lock = lock' := by simpa using hlock
    exact hentry
  · rename_i hnone
    exact h.createLock hk hphase hnone

lemma isTempName_of_isStaleTemp {staleAge : ℕ} {name : String}
    (h : w.isStaleTemp staleAge name = true) : IsTempName w.finalName name := by
  unfold CacheWorld.isStaleTemp at h
  exact of_decide_eq_true (Bool.and_elim_left h)

lemma FinalInv.inspect (h : w.FinalInv) :
    (w.entries[w.finalName]? = none ∧ w.inspectFinal = .ok .absent) ∨ w.inspectFinal = .ok .existing := by
  rcases h with ⟨hnone, -⟩ | ⟨k, writer, inode, -, -, hfinal, -⟩
  · refine Or.inl ⟨hnone, ?_⟩
    simp only [inspectFinal, hnone]
  · refine Or.inr ?_
    simp only [inspectFinal, hfinal]

lemma WriterInv.enter_removing (h : w.WriterInv k writer)
    (hcritical : writer.phase.inCritical = true) (hrenamed : writer.renamed = false) {name : String}
    (hname : IsTempName w.finalName name) {names : List String} :
    w.WriterInv k { writer with phase := .removing name names } := by
  constructor
  · exact fun _ => h.critical hcritical
  · rintro lock ⟨⟩
  · rintro ⟨⟩
  · intro name' hname'
    obtain rfl : name = name' := Option.some.inj hname'
    exact hname
  · rintro temp ⟨⟩
  · rintro ⟨⟩
  · exact fun hnow => absurd (hrenamed.symm.trans hnow) (by decide)
  · rintro ⟨⟩

/-- A step that succeeds keeps what is known. -/
lemma PublishInv.proceed (h : PublishInv w) (hk : w.writers[k]? = some writer) (bytes : ℕ) :
    PublishInv (w.proceed k writer bytes) := by
  have hwriter := h.writers k writer hk
  have plain : ∀ phase : PublishPhase, writer.phase.inCritical = true → phase.isPlain = true →
      (phase.result? = some (.ok .published) ↔ writer.phase.result? = some (.ok .published)) →
      PublishInv (w.enter k writer phase) :=
    fun _ hcritical hphase hresult => h.enter_plain hk hcritical hphase hresult
  have goes : ∀ (temp : TemporaryFile) (phase : PublishPhase), writer.phase.temp? = some temp →
      phase.temp? = some temp → phase.contentSoFar writer.call.contents =
        writer.phase.contentSoFar writer.call.contents →
      (phase.isValidated = true → writer.call.validate writer.call.contents = true) →
      PublishInv (w.enter k writer phase) :=
    fun temp _ hbefore hafter hcontent hvalid =>
      h.enter hk (phase_of_temp hbefore).1 (hwriter.enter_temp hbefore hafter hcontent hvalid)
  have drops : ∀ (temp : TemporaryFile) (result : Except PublishError PublishOutcome),
      writer.phase.temp? = some temp → result ≠ .ok .published →
      PublishInv (w.enter k writer (.dropping temp result)) :=
    fun temp _ hbefore hends =>
      h.enter hk (phase_of_temp hbefore).1 (hwriter.enter_dropping hbefore hends)
  have hvalid : writer.phase.isValidated = true →
      writer.call.validate writer.call.contents = true := hwriter.validated
  unfold CacheWorld.proceed
  cases hphase : writer.phase with
  | processLocking =>
    dsimp only
    split_ifs
    · exact h
    · have hnext : PublishInv (w.enter k writer .openingLock) :=
        h.enter_outside hk (by simp [hphase]) rfl (by rintro lock ⟨⟩)
          (by simp [hphase, PublishPhase.result?])
      exact hnext.same rfl rfl rfl rfl rfl
  | openingLock => exact h.openLock hk hphase
  | locking lock =>
    dsimp only
    split_ifs with hfree
    · exact h
    · exact h.takeLock hk hphase hfree
  | listing => exact plain _ (by rw [hphase]; rfl) rfl (by simp [hphase, PublishPhase.result?])
  | cleaning names =>
    have hcritical : writer.phase.inCritical = true := by rw [hphase]; rfl
    cases names with
    | nil => exact plain _ hcritical rfl (by simp [hphase, PublishPhase.result?])
    | cons name names =>
      dsimp only
      split_ifs with hstale
      · exact h.enter hk hcritical (hwriter.enter_removing hcritical
          (hwriter.not_renamed (by simp [hphase]) (by simp [hphase, PublishPhase.result?]))
          (isTempName_of_isStaleTemp hstale))
      · exact plain _ hcritical rfl (by simp [hphase, PublishPhase.result?])
  | removing name names =>
    refine h.removeFile hk (by rw [hphase]; rfl) (hwriter.named name (by rw [hphase]; rfl)) rfl ?_
    rw [hwriter.renamed_iff (by simp [hphase]), hphase]
    simp [PublishPhase.result?]
  | inspecting =>
    have hcritical : writer.phase.inCritical = true := by rw [hphase]; rfl
    have hrenamed : writer.renamed = false :=
      hwriter.not_renamed (by simp [hphase]) (by simp [hphase, PublishPhase.result?])
    rcases h.final.inspect with ⟨habsent, hinspect⟩ | hinspect
    · simp only [hinspect]
      exact h.enter hk hcritical
        (hwriter.enter_installing hcritical hrenamed habsent (Or.inl rfl))
    · simp only [hinspect]
      exact plain _ hcritical rfl (by simp [hphase, PublishPhase.result?])
  | naming =>
    have hcritical : writer.phase.inCritical = true := by rw [hphase]; rfl
    have hrenamed : writer.renamed = false :=
      hwriter.not_renamed (by simp [hphase]) (by simp [hphase, PublishPhase.result?])
    have absent := hwriter.absent (by rw [hphase]; rfl)
    have hcreating : ∀ stem, PublishInv (w.enter k writer (.creating stem 0)) := fun stem =>
      h.enter hk hcritical (hwriter.enter_installing hcritical hrenamed absent
        (Or.inr ⟨stem, 0, rfl⟩))
    dsimp only
    unfold CacheWorld.nameTemporary
    split
    · exact hcreating _
    · exact (hcreating _).same rfl rfl rfl rfl rfl
  | creating stem attempt => exact h.createTemporary hk hphase
  | writing temp written => exact h.writeMore hk hphase bytes
  | validating temp =>
    have htemp : writer.phase.temp? = some temp := by rw [hphase]; rfl
    dsimp only
    split_ifs with hvalidates
    · refine goes temp _ htemp rfl (by rw [hphase]; rfl) fun _ => ?_
      obtain ⟨hentry, data, hdata, hcontent⟩ := hwriter.temp temp htemp
      rw [hphase] at hcontent
      unfold CacheWorld.contentAt at hvalidates
      simp only [hentry, hdata, Option.map_some, Option.any_some, hcontent] at hvalidates
      exact hvalidates
    · exact drops temp _ htemp (by simp)
  | checking temp =>
    have htemp : writer.phase.temp? = some temp := by rw [hphase]; rfl
    dsimp only
    split
    · exact goes temp _ htemp rfl (by rw [hphase]; rfl) fun _ => hvalid (by rw [hphase]; rfl)
    · exact drops temp _ htemp (by simp)
  | rechecking temp =>
    have htemp : writer.phase.temp? = some temp := by rw [hphase]; rfl
    have hclearing : PublishInv (w.enter k writer (.clearing temp)) :=
      goes temp _ htemp rfl (by rw [hphase]; rfl) fun _ => hvalid (by rw [hphase]; rfl)
    exact h.lookAtFinal hk htemp hclearing hclearing
  | clearing temp =>
    have htemp : writer.phase.temp? = some temp := by rw [hphase]; rfl
    dsimp only
    split
    · exact drops temp _ htemp (by simp)
    · exact goes temp _ htemp rfl (by rw [hphase]; rfl) fun _ => hvalid (by rw [hphase]; rfl)
    · exact goes temp _ htemp rfl (by rw [hphase]; rfl) fun _ => hvalid (by rw [hphase]; rfl)
  | unlinking temp =>
    have htemp : writer.phase.temp? = some temp := by rw [hphase]; rfl
    dsimp only
    rw [removeFile_of_absent (hwriter.absent (by rw [hphase]; rfl))]
    exact goes temp _ htemp rfl (by rw [hphase]; rfl) fun _ => hvalid (by rw [hphase]; rfl)
  | confirming temp =>
    have htemp : writer.phase.temp? = some temp := by rw [hphase]; rfl
    refine h.lookAtFinal hk htemp ?_ (drops temp _ htemp (by simp))
    exact goes temp _ htemp rfl (by rw [hphase]; rfl) fun _ => hvalid (by rw [hphase]; rfl)
  | «renaming» temp => exact h.renameTemporary hk hphase
  | dropping temp result =>
    refine h.removeFile hk (by rw [hphase]; rfl) (hwriter.named temp.name (by rw [hphase]; rfl)) rfl ?_
    rw [hwriter.renamed_iff (by simp [hphase]), hphase]
    rfl
  | unlocking result =>
    obtain ⟨lock, hown, -, -⟩ := hwriter.critical (by rw [hphase]; rfl)
    dsimp only
    rw [hown]
    exact h.giveLock hk hphase lock
  | releasing result =>
    have hnext : PublishInv (w.enter k writer (.over result)) :=
      h.enter_outside hk (by simp [hphase]) rfl (by rintro lock ⟨⟩)
        (by simp [hphase, PublishPhase.result?])
    exact hnext.same rfl rfl rfl rfl rfl
  | «over» result => exact h
  | crashed => exact h

lemma PublishInv.refuse (h : PublishInv w) (hk : w.writers[k]? = some writer)
    (error : PublishError) : PublishInv (w.refuse k writer error) := by
  have hwriter := h.writers k writer hk
  have plain : writer.phase.inCritical = true → writer.phase.result? = none →
      PublishInv (w.enter k writer (.unlocking (.error error))) := by
    intro hcritical hresult
    exact h.enter_plain hk hcritical rfl (by rw [hresult]; simp [PublishPhase.result?])
  have ends : ∀ phase : PublishPhase, writer.phase ≠ .crashed → writer.phase.result? = none →
      phase.inCritical = false → phase.result? = some (.error error) →
      (∀ lock, phase ≠ .locking lock) → PublishInv (w.enter k writer phase) := by
    intro phase hcrashed hresult hcritical hends hlocking
    exact h.enter_outside hk hcrashed hcritical (fun lock hlock => absurd hlock (hlocking lock))
      (by simp [hresult, hends])
  have drops : ∀ temp : TemporaryFile, writer.phase.temp? = some temp →
      PublishInv (w.enter k writer (.dropping temp (.error error))) := fun temp htemp =>
    h.enter hk (phase_of_temp htemp).1 (hwriter.enter_dropping htemp (by simp))
  unfold CacheWorld.refuse
  split
  all_goals rename_i hphase
  all_goals first
    | exact h
    | exact ends _ (by simp [hphase]) (by rw [hphase]; rfl) rfl rfl (by simp)
    | exact plain (by rw [hphase]; rfl) (by rw [hphase]; rfl)
    | exact drops _ (by rw [hphase]; rfl)

lemma PublishInv.passOver (h : PublishInv w) (hk : w.writers[k]? = some writer) :
    PublishInv (w.passOver k writer) := by
  unfold CacheWorld.passOver
  split
  · rename_i hphase
    exact h.enter_plain hk (by rw [hphase]; rfl) rfl (by simp [hphase, PublishPhase.result?])
  · rename_i hphase
    exact h.enter_plain hk (by rw [hphase]; rfl) rfl (by simp [hphase, PublishPhase.result?])
  · rename_i hphase
    exact h.enter_plain hk (by rw [hphase]; rfl) rfl (by simp [hphase, PublishPhase.result?])
  · rename_i hphase
    exact h.enter_plain hk (by rw [hphase]; rfl) rfl (by rw [hphase]; rfl)
  · exact h

lemma fields_crash (process : ℕ) : (writer.crash process).renamed = writer.renamed ∧
    (writer.crash process).call = writer.call := by
  unfold Writer.crash
  split
  · exact ⟨rfl, rfl⟩
  · split_ifs <;> exact ⟨rfl, rfl⟩

lemma PublishInv.crash (h : PublishInv w) (process : ℕ) : PublishInv (w.crash process) := by
  constructor
  · intro k writer hk
    obtain ⟨before, hbefore, rfl⟩ : ∃ before, w.writers[k]? = some before ∧ before.crash process = writer := by
      simpa [CacheWorld.crash] using hk
    have hwriter := h.writers k before hbefore
    by_cases hcritical : (before.crash process).phase.inCritical = true
    · have hsurvives : before.crash process = before ∧ before.call.process ≠ process := by
        revert hcritical
        unfold Writer.crash
        split
        · rename_i hphase
          rw [hphase]
          rintro ⟨⟩
        · split_ifs with hprocess
          · rintro ⟨⟩
          · exact fun _ => ⟨rfl, hprocess⟩
      obtain ⟨hsame, hprocess⟩ := hsurvives
      rw [hsame] at hcritical ⊢
      constructor
      · intro _
        obtain ⟨lock, hown, hheld, hentry⟩ := hwriter.critical hcritical
        refine ⟨lock, hown, ?_, hentry⟩
        simp only [CacheWorld.crash, ExtTreeMap.getElem?_filter', hheld, Option.filter_some, hbefore, Option.any_some]
        simp [hprocess]
      · exact hwriter.opened
      · exact hwriter.absent
      · exact hwriter.named
      · exact hwriter.temp
      · exact hwriter.validated
      · exact hwriter.reported
      · exact hwriter.published
    · have hnext : w.WriterInv k (before.crash process) := by
        revert hcritical
        unfold Writer.crash
        split
        · exact fun _ => hwriter
        · split_ifs
          · exact fun _ => hwriter.enter_outside rfl (by rintro lock ⟨⟩) (fun _ => Or.inl rfl)
              (by rintro ⟨⟩)
          · exact fun _ => hwriter
      exact hnext.of_not_critical (by simpa using hcritical) fun _ hentry => hentry
  · refine h.final.of_same rfl (fun _ _ _ hdata => hdata) ?_ ?_
    · intro k writer hk hrenamed
      obtain ⟨before, hbefore, rfl⟩ : ∃ before, w.writers[k]? = some before ∧ before.crash process = writer := by
        simpa [CacheWorld.crash] using hk
      exact ⟨before, hbefore, (fields_crash process).1 ▸ hrenamed⟩
    · intro k writer hk hrenamed
      refine ⟨writer.crash process, ?_, (fields_crash process).1.trans hrenamed, (fields_crash process).2⟩
      simp [CacheWorld.crash, hk]

lemma PublishInv.call (h : PublishInv w) (call : PublishCall) : PublishInv (w.step (.call call)) := by
  constructor
  · intro k writer hk
    rcases Table.getElem?_append_singleton_eq_some_iff.mp hk with hk | ⟨-, rfl⟩
    · exact (h.writers k writer hk).same rfl rfl rfl rfl
    · constructor
      · rintro ⟨⟩
      · rintro lock ⟨⟩
      · rintro ⟨⟩
      · rintro name ⟨⟩
      · rintro temp ⟨⟩
      · rintro ⟨⟩
      · rintro ⟨⟩
      · rintro ⟨⟩
  · refine h.final.of_same rfl (fun _ _ _ hdata => hdata) ?_ ?_
    · intro k writer hk hrenamed
      rcases Table.getElem?_append_singleton_eq_some_iff.mp hk with hk | ⟨-, rfl⟩
      · exact ⟨writer, hk, hrenamed⟩
      · cases hrenamed
    · intro k writer hk hrenamed
      exact ⟨writer, Table.getElem?_append_singleton_eq_some_iff.mpr (Or.inl hk), hrenamed, rfl⟩

lemma PublishInv.step (h : PublishInv w) (event : PublishEvent) : PublishInv (w.step event) := by
  cases event with
  | tick => exact h.same rfl rfl rfl rfl rfl
  | call call => exact h.call call
  | crash process => exact h.crash process
  | advance k answer =>
    change PublishInv (w.act k answer)
    unfold act
    split
    · exact h
    · rename_i writer hk
      cases answer with
      | ok bytes => exact h.proceed hk bytes
      | refused error => exact h.refuse hk error
      | ignored => exact h.passOver hk

lemma publishInv_run (finalName : String) (entries : ExtTreeMap String Entry)
    (files : List FileData) (events : List PublishEvent) :
    PublishInv ((CacheWorld.without finalName entries files).run events) := by
  refine Runs.invariant (fun w event h => PublishInv.step h event) ?_
  constructor
  · rintro k writer ⟨⟩
  · refine Or.inl ⟨ExtTreeMap.getElem?_erase_self, ?_⟩
    rintro k writer ⟨⟩

end CacheWorld

end AgzRustMcp.Cache
