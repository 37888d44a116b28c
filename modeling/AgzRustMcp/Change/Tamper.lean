import AgzRustMcp.Change.Freshness
import AgzRustMcp.Change.Replay

/-!
# Candidates that somebody else writes to

A file with a recorded hash may be changed by something other than the server.  Export notices a
change that is still there, but a stage matches its patch against the changed bytes and records
their hash.  `Shadow` is the tree as the server alone would have left it.
-/

namespace AgzRustMcp

open Checked

/-! ## Runs with foreign writes -/

/-- A call to the service, or a write to a recorded file by something else. -/
inductive TamperCall where
  | stage (call : StageCall)
  | validate (env : ValidateEnv) (request : ValidateRequest)
  | export (env : ExportEnv) (id : String)
  | tamper (file : String) (contents : ByteArray)

/-- Writes other bytes into a regular file of the candidate that has a recorded hash. -/
def tamper (dir : ChangeDir) (file : String) (contents : ByteArray) : ChangeDir :=
  match normalizeRelative file with
  | .error _ => dir
  | .ok path =>
    if (dir.record.any fun record => record.sourceHashes.contains (relativePathString path)) ∧
        (fileAt dir.candidate path).isSome then
      { dir with candidate := dir.candidate.insert path (.file contents) }
    else dir

def tamperStep (sha : ByteArray → String) (config : ChangeConfig) (timeline : Timeline) : TamperCall → Timeline
  | .stage call => timeline.stage sha config call
  | .validate env request => { timeline with dir := (validate sha env request timeline.dir).1 }
  | .export env id => { timeline with dir := (exportChange sha env id timeline.dir).1 }
  | .tamper file contents => { timeline with dir := tamper timeline.dir file contents }

/-- The bytes of the file match its recorded hash, if it has one. -/
def MatchesRecorded (sha : ByteArray → String) (record : ChangeRecord) (tree : Tree) (file : String) : Prop :=
  match normalizeRelative file with
  | .error _ => True
  | .ok path =>
    ∀ hash ∈ record.sourceHashes[relativePathString path]?, ∀ contents ∈ fileAt tree path,
      hash = ⟨sha contents, contents.size⟩

instance (sha : ByteArray → String) (record : ChangeRecord) (tree : Tree) (file : String) :
    Decidable (MatchesRecorded sha record tree file) :=
  decidable_of_iff (∀ path ∈ (normalizeRelative file).toOption,
    ∀ hash ∈ record.sourceHashes[relativePathString path]?, ∀ contents ∈ fileAt tree path,
      hash = ⟨sha contents, contents.size⟩) (by
    unfold MatchesRecorded
    cases normalizeRelative file <;> simp [Except.toOption])

/-- A stage whose paths survive trimming and whose files nobody changed. -/
def PatchesOwnBytes (sha : ByteArray → String) (config : ChangeConfig) (timeline : Timeline) : TamperCall → Prop
  | .stage call => call.RecordsPlainPaths sha config timeline ∧
      ((stageBlocking sha config call.env call.request timeline.dir).2.isDone = true →
        ∀ record ∈ timeline.dir.record, ∀ patch ∈ call.request.patches,
          MatchesRecorded sha record timeline.dir.candidate patch.file)
  | _ => True

instance (sha : ByteArray → String) (config : ChangeConfig) (timeline : Timeline)
    (call : TamperCall) : Decidable (PatchesOwnBytes sha config timeline call) := by
  cases call <;> unfold PatchesOwnBytes <;> infer_instance

/-- Every file of the candidate has contents in the given set. -/
def Timeline.ContentsIn (seen : Set ByteArray) (timeline : Timeline) : Prop :=
  ∀ path contents, fileAt timeline.dir.candidate path = some contents → contents ∈ seen

lemma Timeline.contentsIn_of_keys {contents : List ByteArray} {timeline : Timeline}
    (h : ∀ p ∈ timeline.dir.candidate.keys,
      (fileAt timeline.dir.candidate p).all (fun c => decide (∃ d ∈ contents, c = d)) = true) :
    timeline.ContentsIn {c | c ∈ contents} := by
  intro p c hc
  have hkey : p ∈ timeline.dir.candidate.keys := by
    rw [Finmap.mem_keys, ← Finmap.lookup_isSome, Option.isSome_iff_ne_none]
    intro hnone
    simp [fileAt, hnone] at hc
  simpa [hc] using h p hkey

/-! ## Trees of the same shape -/

/-- The entries of two trees at a path are equal, or both are regular files. -/
def SameShape (s t : Tree) : Prop :=
  ∀ p, s.lookup p = t.lookup p ∨ ∃ a b, s.lookup p = some (.file a) ∧ t.lookup p = some (.file b)

section SameShape

variable {s t : Tree}

lemma SameShape.rejectSymlinkedAncestors (h : SameShape s t) (path : RelPath) :
    AgzRustMcp.rejectSymlinkedAncestors s path = AgzRustMcp.rejectSymlinkedAncestors t path := by
  unfold AgzRustMcp.rejectSymlinkedAncestors
  induction ancestors path with
  | nil => rfl
  | cons dir dirs ih =>
    unfold rejectAncestors
    rcases h dir with heq | ⟨a, b, ha, hb⟩
    · rw [heq, ih]
    · rw [ha, hb]

lemma SameShape.readCandidateFile (h : SameShape s t) {path : RelPath} (hpath : s.lookup path = t.lookup path) :
    AgzRustMcp.readCandidateFile s path = AgzRustMcp.readCandidateFile t path := by
  unfold AgzRustMcp.readCandidateFile
  rw [h.rejectSymlinkedAncestors, hpath]

lemma SameShape.planPatches (h : SameShape s t) {patches : List PatchInput}
    (hpatches : ∀ patch ∈ patches, ∀ path, normalizeRelative patch.file = .ok path →
      s.lookup path = t.lookup path) (newFiles : List NewFileInput) (limits : CandidateLimits) :
    AgzRustMcp.planPatches s patches newFiles limits = AgzRustMcp.planPatches t patches newFiles limits := by
  have hpatch : ∀ patch ∈ patches, ∀ state, planPatch s state patch = planPatch t state patch := by
    intro patch hmem state
    unfold planPatch PlanState.enter
    cases hrel : normalizeRelative patch.file with
    | error reason => rfl
    | ok path =>
      simp only [bind, Except.bind, h.readCandidateFile (hpatches patch hmem path hrel)]
  have hnew : ∀ planned, ∀ file ∈ newFiles, ∀ done,
      planNewFile s planned done file = planNewFile t planned done file := by
    intro planned file _ done
    unfold planNewFile
    cases hrel : normalizeRelative file.file with
    | error reason => rfl
    | ok path =>
      simp only [bind, Except.bind, h.rejectSymlinkedAncestors]
      split_ifs
      · rfl
      · rcases h path with heq | ⟨a, b, ha, hb⟩
        · rw [heq]
        · rw [ha, hb]
  unfold AgzRustMcp.planPatches
  rw [foldlM_congr hpatch]
  refine bind_congr fun state => ?_
  rw [foldlM_congr (hnew state.planned)]

lemma SameShape.write (h : SameShape s t) (path : RelPath) (contents : ByteArray) :
    SameShape ((createDirAll s path).insert path (.file contents))
        ((createDirAll t path).insert path (.file contents)) ∧
      ∀ q, s.lookup q = t.lookup q ∨ q = path → ((createDirAll s path).insert path (.file contents)).lookup q =
          ((createDirAll t path).insert path (.file contents)).lookup q := by
  have hwrite : ∀ q, q ≠ path → ∀ u : Tree, ((createDirAll u path).insert path (.file contents)).lookup q =
        if u.lookup q = none ∧ q ∈ ancestors path then some .dir else u.lookup q := by
    intro q hq u
    rw [Finmap.lookup_insert_of_ne _ hq, lookup_createDirAll]
  refine ⟨fun q => ?_, fun q hq => ?_⟩
  · by_cases heq : q = path
    · subst heq
      exact Or.inl (by simp)
    · rw [hwrite q heq s, hwrite q heq t]
      rcases h q with hsame | ⟨a, b, ha, hb⟩
      · exact Or.inl (by rw [hsame])
      · exact Or.inr ⟨a, b, by simp [ha], by simp [hb]⟩
  · by_cases heq : q = path
    · subst heq
      simp
    · rw [hwrite q heq s, hwrite q heq t, hq.resolve_right heq]

lemma SameShape.applyPlan (h : SameShape s t) {fault : RelPath → Option ApplyFault}
    {files : List PlannedFile} {s' : Tree} (happly : AgzRustMcp.applyPlan fault s files = (s', none))
    (hnormal : ∀ file ∈ files, file.relative ≠ []) :
    ∃ t', AgzRustMcp.applyPlan fault t files = (t', none) ∧ SameShape s' t' ∧
      ∀ q, s.lookup q = t.lookup q ∨ q ∈ files.map PlannedFile.relative → s'.lookup q = t'.lookup q := by
  induction files generalizing s t with
  | nil =>
    obtain rfl : s = s' := (Prod.mk.inj happly).1
    exact ⟨t, rfl, h, fun q hq => hq.resolve_right (by simp)⟩
  | cons file files ih =>
    obtain ⟨written, hfile, hrest⟩ := applyPlan_cons_eq_none_iff.mp happly
    have hne := hnormal file List.mem_cons_self
    obtain ⟨hfault, hdirs, htarget, rfl⟩ := (applyFile_eq_none_iff hne).mp hfile
    obtain ⟨hshape, hequal⟩ := h.write file.relative file.contents
    obtain ⟨t', happly', hshape', hequal'⟩ := ih hshape hrest
      fun f hf => hnormal f (List.mem_cons_of_mem _ hf)
    refine ⟨t', applyPlan_cons_eq_none_iff.mpr ⟨_, (applyFile_eq_none_iff hne).mpr
      ⟨hfault, fun a ha => ?_, ?_, rfl⟩, happly'⟩, hshape', fun q hq => hequal' q ?_⟩
    · rcases h a with heq | ⟨x, y, hx, -⟩
      · rw [← heq]
        exact hdirs a ha
      · have hdir := hdirs a ha
        rw [hx] at hdir
        simp at hdir
    · rcases h file.relative with heq | ⟨x, y, -, hy⟩
      · rw [← heq]
        exact htarget
      · exact Or.inr ⟨y, hy⟩
    · rcases hq with hq | hq
      · exact Or.inl (hequal q (Or.inl hq))
      · rcases List.mem_cons.mp hq with rfl | hq
        · exact Or.inl (hequal _ (Or.inr rfl))
        · exact Or.inr hq

end SameShape

/-! ## The shadow of a candidate -/

/-- The tree that the server alone would have left. -/
structure Shadow (sha : ByteArray → String) (config : ChangeConfig) (seen : Set ByteArray)
    (timeline : Timeline) (record : ChangeRecord) (server : Tree) : Prop where
  replays : Timeline.Replays sha config
    { timeline with dir := { timeline.dir with candidate := server } }
  shape : SameShape timeline.dir.candidate server
  differs : ∀ p, timeline.dir.candidate.lookup p ≠ server.lookup p →
    NormalPath p ∧ record.sourceHashes[relativePathString p]? ≠ none
  survives : WrittenSurvive timeline.history
  contents : ∀ p c, fileAt server p = some c → c ∈ seen ∨ fileAt timeline.dir.candidate p = some c

/-- The parts of a record that its shadow depends on. -/
structure ChangeRecord.SameContent (after before : ChangeRecord) : Prop where
  sourceHashes : after.sourceHashes = before.sourceHashes
  candidateFiles : after.candidateFiles = before.candidateFiles
  candidateBytes : after.candidateBytes = before.candidateBytes

section Shadow

variable {sha : ByteArray → String} {config : ChangeConfig} {seen : Set ByteArray}
  {timeline : Timeline} {record after : ChangeRecord} {server : Tree}

lemma Shadow.exists_file (h : Shadow sha config seen timeline record server)
    (hrecord : timeline.dir.record = some record) (hready : record.state = .ready) {p : RelPath}
    (hp : timeline.dir.candidate.lookup p ≠ server.lookup p) : SurvivesTrim p ∧ ∃ c, fileAt server p = some c ∧
      record.sourceHashes[relativePathString p]? = some ⟨sha c, c.size⟩ := by
  obtain ⟨hnormal, hhash⟩ := h.differs p hp
  obtain ⟨hash, hsome⟩ := Option.ne_none_iff_exists'.mp hhash
  have hhashes := (h.replays.replays record hrecord hready).2
  obtain ⟨path, c, hpath, htext, hfile, rfl⟩ := hhashes.current _ _ hsome
  obtain rfl := relativePathString_injective hpath hnormal htext
  exact ⟨h.survives path hpath ((hhashes.keys _).mp (by simp [hsome])), c, hfile, hsome⟩

lemma Shadow.lookup_eq (h : Shadow sha config seen timeline record server)
    (hrecord : timeline.dir.record = some record) (hready : record.state = .ready)
    (hsha : Set.InjOn sha seen) (hcontents : timeline.ContentsIn seen) {p : RelPath}
    (hmatch : ∀ hash ∈ record.sourceHashes[relativePathString p]?,
      ∀ c ∈ fileAt timeline.dir.candidate p, hash = ⟨sha c, c.size⟩) :
    timeline.dir.candidate.lookup p = server.lookup p := by
  by_contra hne
  obtain ⟨-, c, hfile, hhash⟩ := h.exists_file hrecord hready hne
  rcases h.shape p with heq | ⟨a, b, ha, hb⟩
  · exact hne heq
  obtain rfl : b = c := by simpa [fileAt, hb] using hfile
  have hcand : fileAt timeline.dir.candidate p = some a := by simp [fileAt, ha]
  have hsame := hmatch _ hhash a hcand
  have hserver : b ∈ seen := by
    rcases h.contents p b hfile with hseen | hcand'
    · exact hseen
    · exact hcontents p b hcand'
  have heq : a = b := hsha (hcontents p a hcand) hserver (congrArg StoredHash.sha256 hsame).symm
  exact hne (by rw [ha, hb, heq])

lemma Shadow.sameContent (h : Shadow sha config seen timeline record server)
    (hrecord : timeline.dir.record = some record) (hready : record.state = .ready)
    (hafter : after.SameContent record) : Shadow sha config seen
      { timeline with dir := { timeline.dir with record := some after } } after server := by
  obtain ⟨hreplay, hhashes⟩ := h.replays.replays record hrecord hready
  obtain ⟨hfiles, hbytes, hmaxFiles, hmaxBytes⟩ := h.replays.accounted record hrecord hready
  refine ⟨⟨fun r hr _ => ?_, fun r hr _ => ⟨hreplay, ?_⟩⟩, h.shape, fun p hp => ?_, h.survives, h.contents⟩
  · obtain rfl := Option.some.inj hr
    rw [hafter.candidateFiles, hafter.candidateBytes]
    exact ⟨hfiles, hbytes, hmaxFiles, hmaxBytes⟩
  · obtain rfl := Option.some.inj hr
    refine ⟨fun k => ?_, fun k hash hk => ?_⟩
    · rw [hafter.sourceHashes]
      exact hhashes.keys k
    · rw [hafter.sourceHashes] at hk
      exact hhashes.current k hash hk
  · rw [hafter.sourceHashes]
    exact h.differs p hp

lemma ValidateStores.sameContent {env : ValidateEnv} {candidate : Tree}
    (h : ValidateStores sha env candidate record after) (hready : after.state = .ready) :
    after.SameContent record := by
  cases h with
  | active => exact ⟨rfl, rfl, rfl⟩
  | failed _ => simp [failVerification, ChangeRecord.savedAt] at hready
  | @evidence base _ hbase =>
    have hsame : base.SameContent record := by
      rcases hbase with rfl | rfl | rfl <;> exact ⟨rfl, rfl, rfl⟩
    refine ⟨?_, ?_, ?_⟩ <;> simp only [ChangeRecord.savedAt, withEvidence]
    · exact hsame.sourceHashes
    · exact hsame.candidateFiles
    · exact hsame.candidateBytes

lemma Shadow.commit (h : Shadow sha config seen timeline record server)
    (hrecord : timeline.dir.record = some record) (hready : record.state = .ready)
    {call : StageCall} {plan : PatchPlan} {tree : Tree}
    (hplan : planPatches timeline.dir.candidate call.request.patches call.request.newFiles
      (candidateLimits config record) = .ok plan)
    (happly : AgzRustMcp.applyPlan call.env.apply timeline.dir.candidate plan.files = (tree, none))
    (htrim : call.request.PathsSurviveTrim)
    (huntouched : ∀ patch ∈ call.request.patches, ∀ path, normalizeRelative patch.file = .ok path →
        timeline.dir.candidate.lookup path = server.lookup path) : ∃ server', Shadow sha config seen
      { dir := { timeline.dir with
          record := some (commitRecord sha call.env record plan
            (plan.files.map (plannedHash sha)))
          candidate := tree }
        baseline := timeline.baseline
        history := timeline.history ++ [⟨plan.patches.map storedPatch, plan.newFiles.map (storedNewFile sha)⟩] }
      (commitRecord sha call.env record plan (plan.files.map (plannedHash sha))) server' := by
  have hspec := planPatches_spec hplan
  have hnonempty : ∀ file ∈ plan.files, file.relative ≠ [] := fun f hf => (hspec.normal f hf).ne_nil
  obtain ⟨server', happly', hshape, hequal⟩ := h.shape.applyPlan happly hnonempty
  rw [h.shape.planPatches huntouched] at hplan
  have hnext := h.replays.commit hrecord hready hplan happly' htrim
  have hhashes := (hnext.replays _ rfl rfl).2
  have hold := (h.replays.replays record hrecord hready).2
  refine ⟨server', hnext, hshape, fun p hp => ?_, h.survives.commit sha hplan htrim,
    fun p c hc => ?_⟩
  · have hne : timeline.dir.candidate.lookup p ≠ server.lookup p := fun heq =>
      hp (hequal p (Or.inl heq))
    obtain ⟨hnormal, hhash⟩ := h.differs p hne
    refine ⟨hnormal, (hhashes.keys _).mpr ?_⟩
    exact (mem_writtenFiles_append_iff sha hplan _ _).mpr (Or.inl ((hold.keys _).mp hhash))
  · by_cases htarget : p ∈ plan.files.map PlannedFile.relative
    · refine Or.inr ?_
      rw [← hc, fileAt, fileAt, hequal p (Or.inr htarget)]
    · have hnot : writtenAt plan.files p = none := writtenAt_eq_none_iff.mpr htarget
      rw [fileAt_applyPlan happly' hnonempty hspec.nodup, hnot, Option.none_or] at hc
      rcases h.contents p c hc with hseen | hcand
      · exact Or.inl hseen
      · refine Or.inr ?_
        show fileAt tree p = some c
        rw [fileAt_applyPlan happly hnonempty hspec.nodup, hnot, Option.none_or, hcand]

lemma Shadow.tamper (h : Shadow sha config seen timeline record server)
    (hrecord : timeline.dir.record = some record) (hcontents : timeline.ContentsIn seen)
    (file : String) (contents : ByteArray) : Shadow sha config seen
      { timeline with dir := AgzRustMcp.tamper timeline.dir file contents } record server := by
  unfold AgzRustMcp.tamper
  split
  · exact h
  next path hpath =>
  split_ifs with hknown
  · obtain ⟨hhash, hfile⟩ := hknown
    obtain ⟨old, hold⟩ := Option.isSome_iff_exists.mp hfile
    have hlookup : timeline.dir.candidate.lookup path = some (.file old) := by
      unfold fileAt at hold
      split at hold
      · rename_i c hc
        rw [hc, Option.some.inj hold]
      · cases hold
    have hserver : ∃ b, server.lookup path = some (.file b) := by
      rcases h.shape path with heq | ⟨a, b, -, hb⟩
      · exact ⟨old, by rw [← heq, hlookup]⟩
      · exact ⟨b, hb⟩
    obtain ⟨b, hb⟩ := hserver
    refine ⟨h.replays, fun p => ?_, fun p hp => ?_, h.survives, fun p c hc => ?_⟩
    · by_cases hp : p = path
      · subst hp
        exact Or.inr ⟨contents, b, by simp, hb⟩
      · rw [Finmap.lookup_insert_of_ne _ hp]
        exact h.shape p
    · by_cases heq : p = path
      · subst heq
        refine ⟨normalPath_of_normalizeRelative hpath, ?_⟩
        rw [hrecord, Option.any_some] at hhash
        rw [← Option.isSome_iff_ne_none, ← Std.ExtTreeMap.contains_eq_isSome_getElem?]
        exact hhash
      · rw [Finmap.lookup_insert_of_ne _ heq] at hp
        exact h.differs p hp
    · rcases h.contents p c hc with hseen | hcand
      · exact Or.inl hseen
      · exact Or.inl (hcontents p c hcand)
  · exact h

end Shadow

/-! ## Whole runs -/

/-- A ready record has a shadow. -/
def Timeline.Shadowed (sha : ByteArray → String) (config : ChangeConfig) (seen : Set ByteArray)
    (timeline : Timeline) : Prop :=
  ∀ record, timeline.dir.record = some record → record.state = .ready →
    ∃ server, Shadow sha config seen timeline record server

lemma Timeline.shadowed_ofCreate {sha : ByteArray → String} {config : ChangeConfig}
    (seen : Set ByteArray) {env : CreateEnv} {dir : ChangeDir} {created : ChangeRecord}
    (h : createBlocking sha config env = (dir, .done created)) :
    (Timeline.ofCreate dir).Shadowed sha config seen := by
  intro record hrecord hready
  refine ⟨dir.candidate, Timeline.replays_ofCreate h, fun p => Or.inl rfl,
    fun p hp => absurd rfl hp, fun p _ hmem => ?_, fun p c hc => Or.inr hc⟩
  simp [Timeline.ofCreate, writtenFiles] at hmem

lemma Timeline.Shadowed.step {sha : ByteArray → String} {config : ChangeConfig}
    {seen : Set ByteArray} {timeline : Timeline} (h : timeline.Shadowed sha config seen)
    (hsha : Set.InjOn sha seen) (hcontents : timeline.ContentsIn seen) {call : TamperCall}
    (hcall : PatchesOwnBytes sha config timeline call) :
    (tamperStep sha config timeline call).Shadowed sha config seen := by
  cases call with
  | stage call =>
    dsimp only [tamperStep]
    rcases timeline.stage_cases sha config call with
      ⟨hsame, -⟩ | ⟨left, hleft, hstate⟩ |
        ⟨record, plan, tree, hrecord, hready, hadmit, happly, hreply, hstage⟩
    · rw [hsame]
      exact h
    · intro record hrecord hready
      obtain rfl : left = record := Option.some.inj (hleft.symm.trans hrecord)
      exact absurd hready hstate
    · have hdone : (stageBlocking sha config call.env call.request
          timeline.dir).2.isDone = true := by
        rw [hreply]
        rfl
      obtain ⟨server, hserver⟩ := h record hrecord hready
      rw [hstage]
      intro record' hrecord' _
      obtain rfl := Option.some.inj hrecord'
      refine hserver.commit hrecord hready (admitPlan_eq_ok hadmit).2.2.2 happly (hcall.1 hdone)
        fun patch hpatch path hpath => ?_
      have hmatch := hcall.2 hdone record hrecord patch hpatch
      unfold MatchesRecorded at hmatch
      rw [hpath] at hmatch
      exact hserver.lookup_eq hrecord hready hsha hcontents hmatch
  | validate env request =>
    dsimp only [tamperStep]
    have hresult := validateResult_validate sha env request timeline.dir
    generalize (validate sha env request timeline.dir).1 = dir at hresult
    cases hresult with
    | kept => exact h
    | @stored record after hrecord hready hstores =>
      intro after' hafter' hready'
      obtain rfl : after = after' := Option.some.inj hafter'
      obtain ⟨server, hserver⟩ := h record hrecord hready
      exact ⟨server, hserver.sameContent hrecord hready (hstores.sameContent hready')⟩
  | «export» env id =>
    dsimp only [tamperStep]
    have hresult := exportResult_exportChange sha env id timeline.dir
    generalize exportChange sha env id timeline.dir = result at hresult
    cases hresult with
    | refused _ => exact h
    | exported _ _ _ _ => exact h
    | failed _ _ _ =>
      intro record hrecord hready
      obtain rfl := Option.some.inj hrecord
      simp [failVerification, ChangeRecord.savedAt] at hready
  | tamper file contents =>
    intro record hrecord hready
    have hbefore : timeline.dir.record = some record := by
      rw [← hrecord]
      dsimp only [tamperStep, AgzRustMcp.tamper]
      split
      · rfl
      · split_ifs <;> rfl
    obtain ⟨server, hserver⟩ := h record hbefore hready
    exact ⟨server, hserver.tamper hbefore hcontents file contents⟩

/-- In runs with foreign writes in which no accepted stage patches a file whose bytes do not match
its recorded hash, an export is verified only when the candidate is the replay of the history,
unless contents collide under the hash. -/
theorem verified_export_is_replay {sha : ByteArray → String} {config : ChangeConfig}
    {env : CreateEnv} {dir : ChangeDir} {created : ChangeRecord}
    (h : createBlocking sha config env = (dir, .done created)) {seen : Set ByteArray}
    (hsha : Set.InjOn sha seen) {calls : List TamperCall}
    (hcalls : Runs.Along (tamperStep sha config) (fun timeline call =>
      timeline.ContentsIn seen ∧ PatchesOwnBytes sha config timeline call) (.ofCreate dir) calls)
    (hfinal : (Runs.run (tamperStep sha config) (.ofCreate dir) calls).ContentsIn seen)
    {exportEnv : ExportEnv} {id : String}
    (hverified : (exportChange sha exportEnv id
      (Runs.run (tamperStep sha config) (.ofCreate dir) calls).dir).2.data.verified = true) :
    replay config dir.candidate
        (Runs.run (tamperStep sha config) (.ofCreate dir) calls).history =
      .ok (Runs.run (tamperStep sha config) (.ofCreate dir) calls).dir.candidate := by
  have hinv := hcalls.invariant (P := fun timeline : Timeline =>
    timeline.Shadowed sha config seen ∧ timeline.baseline = dir.candidate)
    (fun timeline call ht hcall => ⟨ht.1.step hsha hcall.1 hcall.2, by
      cases call with
      | stage call => exact ht.2
      | validate env request => exact ht.2
      | «export» env id => exact ht.2
      | tamper file contents => exact ht.2⟩)
    ⟨Timeline.shadowed_ofCreate seen h, rfl⟩
  obtain ⟨hshadowed, hbaseline⟩ := hinv
  generalize Runs.run (tamperStep sha config) (.ofCreate dir) calls = final at *
  have hresult := exportResult_exportChange sha exportEnv id final.dir
  generalize exportChange sha exportEnv id final.dir = result at hresult hverified
  cases hresult with
  | refused hfalse =>
    rw [hfalse] at hverified
    cases hverified
  | failed _ _ hfalse =>
    rw [hfalse] at hverified
    cases hverified
  | @exported record _ hrecord hready hverify _ =>
    obtain ⟨server, hserver⟩ := hshadowed record hrecord hready
    have hsame : final.dir.candidate = server := by
      refine Finmap.ext_lookup fun p => ?_
      by_contra hne
      obtain ⟨htrim, c, hfile, hhash⟩ := hserver.exists_file hrecord hready hne
      have hnormal := (hserver.differs p hne).1
      obtain ⟨path, contents, hpath, hcand, hrecorded⟩ :=
        verifyCandidateBytes_eq_ok_iff.mp hverify _ _ hhash
      obtain rfl := Except.ok.inj
        ((normalizeRelative_relativePathString hnormal htrim).symm.trans hpath)
      refine hne (hserver.lookup_eq hrecord hready hsha hfinal fun hash hmem c' hc' => ?_)
      obtain rfl := Option.some.inj (hcand.symm.trans hc')
      rw [← hrecorded]
      exact (Option.some.inj (hhash.symm.trans hmem)).symm
    have hreplay := (hserver.replays.replays record hrecord hready).1
    rw [← hbaseline, hsame]
    exact hreplay

/-- The surroundings of an export in which nothing fails. -/
def ExportEnv.quiet : ExportEnv where
  loadFault := none
  workspaceEpoch := 1
  lock := .acquired
  reloadFault := none
  saveFailed := none
  failedMs := 0
  toolOutputBytes := 49152

/-- The stage call, after some calls, of a caller who knows the current revision. -/
def stageAfter (calls : List TamperCall) (patches : List PatchInput) (newFiles : List NewFileInput) : TamperCall :=
  .stage ((Runs.run (tamperStep Sha256.sha256Hex .default) (.ofCreate oneFileChange.1) calls).call
    patches newFiles)

/-- The validation, after some calls, of such a caller; the gate passes. -/
def validateAfter (calls : List TamperCall) : TamperCall :=
  .validate .passing (Runs.run (tamperStep Sha256.sha256Hex .default) (.ofCreate oneFileChange.1)
    calls).dir.validateRequest

/-- The file is staged, changed by somebody else, and restored before it is validated. -/
def restoredCalls : List TamperCall :=
  let staged := [stageAfter [] [⟨"lib.rs", "one", "first"⟩] []]
  let restored := staged ++ [.tamper "lib.rs" "fn evil() {}".toByteArray,
    .tamper "lib.rs" "fn first() {}".toByteArray]
  restored ++ [validateAfter restored]

/-- The contents that the file has in that run. -/
def restoredContents : List ByteArray :=
  ["fn one() {}".toByteArray, "fn first() {}".toByteArray, "fn evil() {}".toByteArray]

theorem verified_export_is_replay_restored :
    (exportChange Sha256.sha256Hex .quiet "chg-0-1-0" (Runs.run
        (tamperStep Sha256.sha256Hex .default) (.ofCreate oneFileChange.1)
          restoredCalls).dir).2.data.verified = true ∧
      replay .default oneFileChange.1.candidate (Runs.run (tamperStep Sha256.sha256Hex .default)
          (.ofCreate oneFileChange.1) restoredCalls).history =
        .ok (Runs.run (tamperStep Sha256.sha256Hex .default) (.ofCreate oneFileChange.1)
          restoredCalls).dir.candidate := by
  obtain ⟨created, hcreated⟩ := Reply.exists_of_isDone oneFileChange (by decide +kernel)
  have hsha : Set.InjOn Sha256.sha256Hex {c | c ∈ restoredContents} := by
    have hlist : ∀ a ∈ restoredContents, ∀ b ∈ restoredContents,
        Sha256.sha256Hex a = Sha256.sha256Hex b → a = b := by decide +kernel
    exact fun a ha b hb heq => hlist a ha b hb heq
  have hverified : (exportChange Sha256.sha256Hex .quiet "chg-0-1-0" (Runs.run
      (tamperStep Sha256.sha256Hex .default) (.ofCreate oneFileChange.1)
        restoredCalls).dir).2.data.verified = true := by decide +kernel
  have halong : Runs.Along (tamperStep Sha256.sha256Hex .default) (fun timeline call =>
      (∀ p ∈ timeline.dir.candidate.keys, (fileAt timeline.dir.candidate p).all
        (fun c => decide (∃ d ∈ restoredContents, c = d)) = true) ∧
        PatchesOwnBytes Sha256.sha256Hex .default timeline call)
      (.ofCreate oneFileChange.1) restoredCalls := by decide +kernel
  exact ⟨hverified, verified_export_is_replay hcreated hsha
    (halong.mono fun timeline call hcond => ⟨Timeline.contentsIn_of_keys hcond.1, hcond.2⟩)
    (Timeline.contentsIn_of_keys (by decide +kernel)) hverified⟩

/-- A file is staged, changed by somebody else, and staged again. -/
def restagedCalls : List TamperCall :=
  let changed := [stageAfter [] [⟨"lib.rs", "one", "first"⟩] [], .tamper "lib.rs" "fn first() { evil() }".toByteArray]
  let restaged := changed ++ [stageAfter changed [⟨"lib.rs", "first", "second"⟩] []]
  restaged ++ [validateAfter restaged]

/-- The second stage records the hash of the changed bytes, so the export is verified. -/
theorem restaged_file_is_exported_as_verified :
    ¬ ∀ (sha : ByteArray → String) (config : ChangeConfig) (env : CreateEnv) (dir : ChangeDir)
      (created : ChangeRecord), createBlocking sha config env = (dir, .done created) →
      ∀ (calls : List TamperCall) (exportEnv : ExportEnv) (id : String), (exportChange sha exportEnv id
          (Runs.run (tamperStep sha config) (.ofCreate dir) calls).dir).2.data.verified = true →
        replay config dir.candidate
            (Runs.run (tamperStep sha config) (.ofCreate dir) calls).history =
          .ok (Runs.run (tamperStep sha config) (.ofCreate dir) calls).dir.candidate := by
  intro hclaim
  obtain ⟨created, hcreated⟩ := Reply.exists_of_isDone oneFileChange (by decide +kernel)
  have hreplay := hclaim _ _ _ _ _ hcreated restagedCalls .quiet "chg-0-1-0" (by decide +kernel)
  have hreplayed : (replay .default oneFileChange.1.candidate
      (Runs.run (tamperStep Sha256.sha256Hex .default) (.ofCreate oneFileChange.1)
        restagedCalls).history).toOption.map (fileAt · [.unicode "lib.rs"]) =
      some (some "fn second() {}".toByteArray) := by decide +kernel
  have hcandidate : fileAt (Runs.run (tamperStep Sha256.sha256Hex .default)
      (.ofCreate oneFileChange.1) restagedCalls).dir.candidate [.unicode "lib.rs"] =
      some "fn second() { evil() }".toByteArray := by decide +kernel
  rw [hreplay] at hreplayed
  rw [Except.toOption, Option.map_some, hcandidate] at hreplayed
  revert hreplayed
  decide +kernel

end AgzRustMcp
