import AgzRustMcp.Change.Replay

/-!
# What stages leave alone

However a change was staged, the candidate of its ready record is the captured tree at every path that no
accepted patch or new file named, up to directories that had to be made (`stages_spare_the_rest`).
-/

namespace AgzRustMcp

variable {sha : ByteArray → String} {config : ChangeConfig} {baseline : Tree}

/-- The path is as it was, or it was missing and is a directory above a written path. -/
def Spared (baseline candidate : Tree) (written : List String) (q : RelPath) : Prop :=
  candidate.lookup q = baseline.lookup q ∨ (baseline.lookup q = none ∧ candidate.lookup q = some .dir ∧
      ∃ p, q ∈ ancestors p ∧ relativePathString p ∈ written)

/-- A ready record counts the revisions, and what they did not write is spared. -/
def Timeline.Spares (config : ChangeConfig) (baseline : Tree) (timeline : Timeline) : Prop :=
  ∀ record, timeline.dir.record = some record → record.state = .ready →
    record.revision = timeline.history.length ∧ record.revision ≤ config.maxRevisions ∧
      ∀ q, relativePathString q ∉ writtenFiles timeline.history →
        Spared baseline timeline.dir.candidate (writtenFiles timeline.history) q

lemma Spared.applyPlan {fault : RelPath → Option ApplyFault} {tree tree' : Tree} {plan : PatchPlan}
    {limits : CandidateLimits} {written : List String} {q : RelPath} (h : Spared baseline tree written q)
    (hplan : PlanFor tree limits plan) (happly : applyPlan fault tree plan.files = (tree', none))
    {written' : List String} (hmore : ∀ k ∈ written, k ∈ written')
    (hwritten : ∀ file ∈ plan.files, relativePathString file.relative ∈ written')
    (hq : relativePathString q ∉ written') : Spared baseline tree' written' q := by
  have hnone : writtenAt plan.files q = none := by
    refine writtenAt_eq_none_iff.mpr fun hmem => ?_
    obtain ⟨file, hfile, rfl⟩ := List.mem_map.mp hmem
    exact hq (hwritten file hfile)
  have hlookup := lookup_applyPlan happly (fun file hfile => (hplan.normal file hfile).ne_nil) hplan.nodup q
  rw [hnone] at hlookup
  dsimp only at hlookup
  split_ifs at hlookup with hmade
  · obtain ⟨hmissing, file, hfile, habove⟩ := hmade
    rcases h with hsame | ⟨-, hdir, -⟩
    · exact Or.inr ⟨hsame.symm.trans hmissing, hlookup, file.relative, habove, hwritten file hfile⟩
    · rw [hmissing] at hdir
      cases hdir
  · rcases h with hsame | ⟨hmissing, hdir, p, habove, hp⟩
    · exact Or.inl (hlookup.trans hsame)
    · exact Or.inr ⟨hmissing, hlookup.trans hdir, p, habove, hmore _ hp⟩

lemma Timeline.Spares.stage {timeline : Timeline} (h : timeline.Spares config baseline)
    (call : StageCall) : (timeline.stage sha config call).Spares config baseline := by
  rcases timeline.stage_cases sha config call with
    ⟨hsame, -⟩ | ⟨left, hleft, hstate⟩ | ⟨record, plan, tree, hrecord, hready, hadmit, happly, -, hstage⟩
  · rw [hsame]
    exact h
  · intro record hrecord hready
    obtain rfl : left = record := Option.some.inj (hleft.symm.trans hrecord)
    exact absurd hready hstate
  · obtain ⟨hcount, -, hspares⟩ := h record hrecord hready
    obtain ⟨-, -, hroom, hplan⟩ := admitPlan_eq_ok hadmit
    rw [hstage]
    intro record' hrecord' _
    obtain rfl := Option.some.inj hrecord'
    have hrevision : (commitRecord sha call.env record plan (plan.files.map (plannedHash sha))).revision =
        record.revision + 1 := revision_commitRecord hroom
    refine ⟨by rw [hrevision, hcount, List.length_append, List.length_singleton], ?_, fun q hq => ?_⟩
    · have hmax := config.maxRevisions_range.2
      simp only [saturatingAdd, u64Max] at hroom
      omega
    · have hmem := mem_writtenFiles_append_iff sha hplan timeline.history
      have hbefore := fun k hk => (hmem k).mpr (Or.inl hk)
      refine (hspares q (mt (hbefore _) hq)).applyPlan (planPatches_spec hplan) happly hbefore
        (fun file hfile => (hmem _).mpr (Or.inr ⟨_, List.mem_map_of_mem hfile, rfl⟩)) hq

/-- After any stages, the revision of a ready record counts its history, within the limit, and every path that
the history did not write is as it was captured, or a directory that was missing above a written path. -/
theorem stages_spare_the_rest {env : CreateEnv} {dir : ChangeDir} {created record : ChangeRecord}
    (h : createBlocking sha config env = (dir, .done created)) (calls : List StageCall)
    (hrecord : (stages sha config (.ofCreate dir) calls).dir.record = some record)
    (hready : record.state = .ready) :
    record.revision = (stages sha config (.ofCreate dir) calls).history.length ∧
      record.revision ≤ config.maxRevisions ∧
      ∀ q, relativePathString q ∉ writtenFiles (stages sha config (.ofCreate dir) calls).history →
        Spared dir.candidate (stages sha config (.ofCreate dir) calls).dir.candidate
          (writtenFiles (stages sha config (.ofCreate dir) calls).history) q := by
  refine Runs.invariant (P := Timeline.Spares config dir.candidate) (fun t call ht => ht.stage call) ?_
    record hrecord hready
  obtain ⟨manifest, tree, -, rfl, rfl⟩ := createBlocking_eq_done h
  intro record' hrecord' _
  obtain rfl := Option.some.inj hrecord'
  exact ⟨rfl, Nat.zero_le _, fun q _ => Or.inl rfl⟩

/-- The stages of `oneFileChange` leave the directory of their new file behind. -/
theorem stages_spare_the_rest_one_file :
    ∃ record, (stages Sha256.sha256Hex .default (.ofCreate oneFileChange.1) oneFileCalls).dir.record = some record ∧
      record.revision = 1 ∧ Spared oneFileChange.1.candidate
        (stages Sha256.sha256Hex .default (.ofCreate oneFileChange.1) oneFileCalls).dir.candidate
        ["lib.rs", "src/new.rs"] [.unicode "src"] := by
  obtain ⟨created, hcreated⟩ := Reply.exists_of_isDone oneFileChange (by decide +kernel)
  obtain ⟨record, hrecord, hready⟩ := ChangeDir.exists_ready
    (stages Sha256.sha256Hex .default (.ofCreate oneFileChange.1) oneFileCalls).dir (by decide +kernel)
  obtain ⟨hrevision, -, hspares⟩ := stages_spare_the_rest hcreated oneFileCalls hrecord hready
  have hwritten : writtenFiles (stages Sha256.sha256Hex .default (.ofCreate oneFileChange.1)
      oneFileCalls).history = ["lib.rs", "src/new.rs"] := by decide +kernel
  refine ⟨record, hrecord, hrevision.trans (by decide +kernel), ?_⟩
  rw [← hwritten]
  exact hspares _ (by rw [hwritten]; decide +kernel)

end AgzRustMcp
