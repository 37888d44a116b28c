import AgzRustMcp.Gate.Leases

/-!
# No two processes hold one lease

`LeaseInv` says that the file at the path of a live acquisition is the one that it created, that a
record names the process that wrote it, and that a file that somebody is going to remove has no live
owner.  So `leases_exclude` is about runs in which every removal meets the file that was judged.
-/

namespace AgzRustMcp.Gate

open Std (ExtTreeMap)

/-! ## The invariant -/

/-- The path at which an acquisition has created a file that it has not removed. -/
def LeasePhase.owned : LeasePhase → Option String
  | .writing path _ | .syncing path => some path
  | .holding lease | .releasing lease | .unlinking lease => some lease.path
  | _ => none

/-- The file that an acquisition has created and not written yet. -/
def LeasePhase.unwritten : LeasePhase → Option ℕ
  | .writing _ file => some file
  | _ => none

/-- What `symlink_metadata` has returned to a waiter. -/
def LeasePhase.metadata : LeasePhase → Option LockMetadata
  | .opening _ metadata | .reading _ metadata _ | .judging _ metadata _ _
  | .removing _ metadata _ _ => some metadata
  | _ => none

/-- The file that a waiter has read, with the record that it found. -/
def LeasePhase.readRecord : LeasePhase → Option (ℕ × Option LeaseRecord)
  | .judging _ _ file record | .removing _ _ file record => some (file, record)
  | _ => none

namespace LeaseWorld

variable (world : LeaseWorld)

def IsDead (pid : ℕ) : Prop := ∃ process, world.processes[pid]? = some process ∧ process.alive = false

/-- A live acquisition has created a file and not written it yet. -/
def Unwritten (t file : ℕ) : Prop :=
  ∃ task, world.tasks[t]? = some task ∧ world.isAlive task.pid = true ∧ task.phase.unwritten = some file

/-- The file at a path is the one that an acquisition created. -/
def Owns (t : ℕ) (task : LeaseTask) (path : String) : Prop :=
  ∃ file lock, world.files[path]? = some file ∧ world.inodes[file]? = some lock ∧ lock.creator = some t ∧
    task.phase.unwritten = if lock.content = none then some file else none

/-- What a waiter knows about the file that it may remove. -/
structure Knows (phase : LeasePhase) : Prop where
  inspected : ∀ metadata, phase.metadata = some metadata → ∃ lock, world.inodes[metadata.file]? = some lock ∧
      (lock.content = none → lock.modified = metadata.modified)
  read : ∀ file record, phase.readRecord = some (file, record) →
    ∃ lock, world.inodes[file]? = some lock ∧ ∀ r, record = some r → lock.content = some r
  dead : ∀ index metadata file r, phase = .removing index metadata file (some r) →
    ∀ lock, world.inodes[file]? = some lock → lock.creator ≠ none → world.IsDead r.pid
  unowned : ∀ index metadata file, phase = .removing index metadata file none → ∀ t, ¬ world.Unwritten t metadata.file

end LeaseWorld

/-- What holds between any two actions of the processes. -/
structure LeaseInv (world : LeaseWorld) : Prop where
  zero : world.processes[0]? = none
  started : ∀ task ∈ world.tasks, ∃ process, world.processes[task.pid]? = some process
  created : ∀ (file : ℕ) (lock : LockFile) (t : ℕ), world.inodes[file]? = some lock →
    lock.creator = some t → ∃ task : LeaseTask, world.tasks[t]? = some task ∧
      ∀ r, lock.content = some r → r.pid = task.pid
  owned : ∀ (t : ℕ) (task : LeaseTask) (path : String), world.tasks[t]? = some task → world.isAlive task.pid = true →
    task.phase.owned = some path → world.Owns t task path
  knows : ∀ task ∈ world.tasks, world.Knows task.phase

variable {world world' : LeaseWorld} {t : ℕ} {task old : LeaseTask}

variable {phase : LeasePhase} {pid file index : ℕ} {path : String} {metadata : LockMetadata}

lemma LeaseWorld.knows_nothing (hmetadata : phase.metadata = none)
    (hread : phase.readRecord = none) : world.Knows phase where
  inspected := by simp [hmetadata]
  read := by simp [hread]
  dead := by rintro _ _ _ _ rfl; simp [LeasePhase.metadata] at hmetadata
  unowned := by rintro _ _ _ rfl; simp [LeasePhase.metadata] at hmetadata

lemma LeaseWorld.IsDead.not_alive (h : world.IsDead pid) : world.isAlive pid = false := by
  obtain ⟨process, hprocess, hdead⟩ := h
  simp [LeaseWorld.isAlive, hprocess, hdead]

lemma LeaseWorld.isDead_of_not_alive {process : LeaseProcess}
    (hprocess : world.processes[pid]? = some process) (h : world.isAlive pid = false) : world.IsDead pid := by
  refine ⟨process, hprocess, ?_⟩
  simpa [LeaseWorld.isAlive, hprocess] using h

/-- Files stay, an unwritten one may be written, dead processes stay dead. -/
structure LeaseWorld.Evolves (world world' : LeaseWorld) : Prop where
  inodes : ∀ (file : ℕ) (lock : LockFile), world.inodes[file]? = some lock →
    ∃ lock', world'.inodes[file]? = some lock' ∧ lock'.creator = lock.creator ∧
      (lock' = lock ∨ lock.content = none ∧ lock'.content ≠ none)
  dead : ∀ pid, world.IsDead pid → world'.IsDead pid
  unwritten : ∀ t file, file < world.inodes.length → world'.Unwritten t file → world.Unwritten t file

lemma LeaseWorld.Knows.evolves (h : world.Knows phase) (hevolves : world.Evolves world') : world'.Knows phase where
  inspected := by
    intro metadata hmetadata
    obtain ⟨lock, hlock, hmodified⟩ := h.inspected metadata hmetadata
    obtain ⟨lock', hlock', -, rfl | ⟨-, hwritten⟩⟩ := hevolves.inodes _ lock hlock
    · exact ⟨lock', hlock', hmodified⟩
    · exact ⟨lock', hlock', fun hnone => absurd hnone hwritten⟩
  read := by
    intro file record hread
    obtain ⟨lock, hlock, hrecord⟩ := h.read file record hread
    obtain ⟨lock', hlock', -, rfl | ⟨hnone, -⟩⟩ := hevolves.inodes _ lock hlock
    · exact ⟨lock', hlock', hrecord⟩
    · refine ⟨lock', hlock', fun r hr => ?_⟩
      have := hrecord r hr
      rw [hnone] at this
      exact absurd this (by simp)
  dead := by
    rintro index metadata file r rfl lock' hlock' hcreator
    obtain ⟨lock, hlock, hrecord⟩ := h.read file (some r) rfl
    obtain ⟨lock'', hlock'', hsame, -⟩ := hevolves.inodes _ lock hlock
    obtain rfl : lock' = lock'' := Option.some.inj (hlock'.symm.trans hlock'')
    exact hevolves.dead _ (h.dead _ _ _ r rfl lock hlock (hsame ▸ hcreator))
  unowned := by
    rintro index metadata file rfl t hunwritten
    obtain ⟨lock, hlock, -⟩ := h.inspected metadata rfl
    have hlt := (List.getElem?_eq_some_iff.mp hlock).1
    exact h.unowned _ _ _ rfl t (hevolves.unwritten t _ hlt hunwritten)

lemma LeaseInv.withProcesses (h : LeaseInv world) {processes : ExtTreeMap ℕ LeaseProcess}
    (hzero : processes[0]? = none)
    (hkeep : ∀ (pid : ℕ) (process : LeaseProcess), world.processes[pid]? = some process →
      ∃ process' : LeaseProcess, processes[pid]? = some process' ∧ (process'.alive = true → process.alive = true)) :
    LeaseInv { world with processes } := by
  have halive : ∀ task ∈ world.tasks, ({ world with processes } : LeaseWorld).isAlive task.pid = true →
        world.isAlive task.pid = true := by
    intro task htask hnow
    obtain ⟨process, hprocess⟩ := h.started task htask
    obtain ⟨process', hprocess', himp⟩ := hkeep _ _ hprocess
    simp only [LeaseWorld.isAlive, hprocess', Option.any_some] at hnow
    simpa [LeaseWorld.isAlive, hprocess] using himp hnow
  have hevolves : world.Evolves { world with processes } := {
    inodes := fun file lock hlock => ⟨lock, hlock, rfl, Or.inl rfl⟩
    dead := fun pid ⟨process, hprocess, hdead⟩ => by
      obtain ⟨process', hprocess', himp⟩ := hkeep _ _ hprocess
      refine ⟨process', hprocess', Bool.eq_false_iff.mpr fun hnow => ?_⟩
      rw [himp hnow] at hdead
      exact absurd hdead (by simp)
    unwritten := fun t file _ ⟨task, htask, hnow, hfile⟩ =>
      ⟨task, htask, halive task (List.mem_of_getElem? htask) hnow, hfile⟩ }
  refine ⟨hzero, fun task htask => ?_, h.created, fun t task path htask hnow hpath => ?_,
    fun task htask => (h.knows task htask).evolves hevolves⟩
  · obtain ⟨process, hprocess⟩ := h.started task htask
    obtain ⟨process', hprocess', -⟩ := hkeep _ _ hprocess
    exact ⟨process', hprocess'⟩
  · exact h.owned t task path htask (halive task (List.mem_of_getElem? htask) hnow) hpath

lemma LeaseInv.modifyProcess (h : LeaseInv world) (pid : ℕ) {f : LeaseProcess → LeaseProcess}
    (hf : ∀ process, (f process).alive = true → process.alive = true) :
    LeaseInv { world with processes := world.processes.modify pid f } := by
  refine h.withProcesses ?_ fun pid' process hprocess => ?_
  · rw [ExtTreeMap.getElem?_modify]
    split
    next heq =>
      rw [Std.LawfulEqCmp.eq_of_compare heq, h.zero]
      rfl
    next => exact h.zero
  · rw [ExtTreeMap.getElem?_modify]
    split
    next heq =>
      rw [Std.LawfulEqCmp.eq_of_compare heq, hprocess]
      exact ⟨f process, rfl, hf process⟩
    next => exact ⟨process, hprocess, id⟩

lemma LeaseInv.start (h : LeaseInv world) (hpid : pid ≠ 0) (hfresh : world.processes[pid]? = none) :
    LeaseInv { world with processes := world.processes.insert pid ⟨true, 0⟩ } := by
  refine h.withProcesses ?_ fun pid' process hprocess => ?_
  · rw [ExtTreeMap.getElem?_insert, if_neg (by simpa using hpid)]
    exact h.zero
  · have hne : pid ≠ pid' := by
      rintro rfl
      rw [hfresh] at hprocess
      exact absurd hprocess (by simp)
    exact ⟨process, by rw [ExtTreeMap.getElem?_insert, if_neg (by simpa using hne)]; exact hprocess, id⟩

lemma LeaseInv.advance (h : LeaseInv world) (pid : ℕ) : LeaseInv (world.advance pid) :=
  h.modifyProcess pid fun _ halive => halive

lemma LeaseInv.addTask (h : LeaseInv world) (task : LeaseTask)
    (hpid : ∃ process, world.processes[task.pid]? = some process)
    (howned : task.phase.owned = none) (hknows : ∀ w : LeaseWorld, w.Knows task.phase)
    (hunwritten : task.phase.unwritten = none) : LeaseInv { world with tasks := world.tasks ++ [task] } := by
  have hold : ∀ (t : ℕ) (other : LeaseTask), (world.tasks ++ [task])[t]? = some other →
      world.tasks[t]? = some other ∨ other = task := by
    intro t other hother
    rcases lt_or_ge t world.tasks.length with hlt | hge
    · exact Or.inl (by rwa [List.getElem?_append_left hlt] at hother)
    · rw [List.getElem?_append_right hge] at hother
      exact Or.inr (by simpa using List.mem_of_getElem? hother)
  have hkeep : ∀ (t : ℕ) (other : LeaseTask), world.tasks[t]? = some other →
      (world.tasks ++ [task])[t]? = some other :=
    fun t other hother => by
      rw [List.getElem?_append_left (List.getElem?_eq_some_iff.mp hother).1]
      exact hother
  have hevolves : world.Evolves { world with tasks := world.tasks ++ [task] } := {
    inodes := fun file lock hlock => ⟨lock, hlock, rfl, Or.inl rfl⟩
    dead := fun _ hdead => hdead
    unwritten := fun t file _ ⟨other, hother, halive, hfile⟩ => by
      rcases hold t other hother with hother | rfl
      · exact ⟨other, hother, halive, hfile⟩
      · rw [hunwritten] at hfile
        exact absurd hfile (by simp) }
  refine ⟨h.zero, fun other hother => ?_, fun file lock t hlock hcreator => ?_,
    fun t other path hother halive hpath => ?_, fun other hother => ?_⟩
  · rcases List.mem_append.mp hother with hother | hnew
    · exact h.started other hother
    · exact List.mem_singleton.mp hnew ▸ hpid
  · obtain ⟨other, hother, hrecord⟩ := h.created file lock t hlock hcreator
    exact ⟨other, hkeep t other hother, hrecord⟩
  · rcases hold t other hother with hother | rfl
    · exact h.owned t other path hother halive hpath
    · rw [howned] at hpath
      exact absurd hpath (by simp)
  · rcases List.mem_append.mp hother with hother | hnew
    · exact (h.knows other hother).evolves hevolves
    · rw [List.mem_singleton.mp hnew]
      exact hknows _

/-! ## Acquisitions -/

lemma LeaseInv.update (h : LeaseInv world) (task : LeaseTask) (hget : world.tasks[t]? = some old)
    (hpid : task.pid = old.pid) (htasks : world'.tasks = world.tasks.set t task)
    (hprocesses : world'.processes = world.processes)
    (hinodes : ∀ (file : ℕ) (lock : LockFile), world.inodes[file]? = some lock →
      world'.inodes[file]? = some lock ∨ lock.creator = some t ∧ lock.content = none ∧
        ∃ lock' : LockFile, world'.inodes[file]? = some lock' ∧ lock'.creator = some t ∧
          lock'.content ≠ none ∧ ∀ r, lock'.content = some r → r.pid = task.pid)
    (hnew : ∀ (file : ℕ) (lock : LockFile), world'.inodes[file]? = some lock →
      world.inodes.length ≤ file → lock.creator = some t ∧ lock.content = none)
    (hfiles : ∀ (j : ℕ) (other : LeaseTask) (path : String), j ≠ t → world.tasks[j]? = some other →
      world.isAlive other.pid = true → other.phase.owned = some path → world'.files[path]? = world.files[path]?)
    (hown : world.isAlive task.pid = true → ∀ path, task.phase.owned = some path → world'.Owns t task path)
    (hunwritten : ∀ file, task.phase.unwritten = some file →
      old.phase.unwritten = some file ∨ world.inodes.length ≤ file)
    (hknows : world.Knows task.phase) : LeaseInv world' := by
  have hlt : t < world.tasks.length := (List.getElem?_eq_some_iff.mp hget).1
  have hself : world'.tasks[t]? = some task := by rw [htasks, List.getElem?_set_self hlt]
  have hothers : ∀ j, j ≠ t → world'.tasks[j]? = world.tasks[j]? :=
    fun j hj => by rw [htasks, List.getElem?_set_ne (Ne.symm hj)]
  have halive : ∀ pid, world'.isAlive pid = world.isAlive pid :=
    fun pid => by rw [LeaseWorld.isAlive, LeaseWorld.isAlive, hprocesses]
  have hmem : ∀ other ∈ world'.tasks, other = task ∨ other ∈ world.tasks := by
    intro other hother
    rw [htasks] at hother
    exact (List.mem_or_eq_of_mem_set hother).symm
  have hevolves : world.Evolves world' := {
    inodes := fun file lock hlock => by
      rcases hinodes file lock hlock with hsame | ⟨hcreator, hnone, lock', hlock', hcreator', hsome, -⟩
      · exact ⟨lock, hsame, rfl, Or.inl rfl⟩
      · exact ⟨lock', hlock', hcreator'.trans hcreator.symm, Or.inr ⟨hnone, hsome⟩⟩
    dead := fun pid hdead => by rwa [LeaseWorld.IsDead, hprocesses]
    unwritten := fun j file hfile ⟨other, hother, hnow, hphase⟩ => by
      rw [halive] at hnow
      by_cases hj : j = t
      · subst hj
        obtain rfl := Option.some.inj (hself.symm.trans hother)
        rcases hunwritten file hphase with hphase | hge
        · exact ⟨old, hget, hpid ▸ hnow, hphase⟩
        · omega
      · exact ⟨other, hothers j hj ▸ hother, hnow, hphase⟩ }
  refine ⟨hprocesses ▸ h.zero, fun other hother => ?_, fun file lock j hlock hcreator => ?_,
    fun j other path hother hnow hpath => ?_, fun other hother => ?_⟩
  · rw [hprocesses]
    rcases hmem other hother with rfl | hother
    · exact hpid ▸ h.started old (List.mem_of_getElem? hget)
    · exact h.started other hother
  · -- The record of a file names the process of its creator.
    have hcarry : ∀ other : LeaseTask, world.tasks[j]? = some other →
        ∃ other' : LeaseTask, world'.tasks[j]? = some other' ∧ other'.pid = other.pid := by
      intro other hother
      by_cases hj : j = t
      · subst hj
        obtain rfl := Option.some.inj (hget.symm.trans hother)
        exact ⟨task, hself, hpid⟩
      · exact ⟨other, (hothers j hj).trans hother, rfl⟩
    rcases lt_or_ge file world.inodes.length with hfile | hge
    · have hbefore := List.getElem?_eq_getElem hfile
      rcases hinodes file _ hbefore with hsame | ⟨-, -, lock', hlock', hcreator', -, hrecord⟩
      · obtain rfl := Option.some.inj (hsame.symm.trans hlock)
        obtain ⟨other, hother, hrecord⟩ := h.created file _ j hbefore hcreator
        obtain ⟨other', hother', hsamePid⟩ := hcarry other hother
        exact ⟨other', hother', fun r hr => (hrecord r hr).trans hsamePid.symm⟩
      · obtain rfl := Option.some.inj (hlock'.symm.trans hlock)
        obtain rfl := Option.some.inj (hcreator'.symm.trans hcreator)
        exact ⟨task, hself, hrecord⟩
    · obtain ⟨hcreator', hnone⟩ := hnew file lock hlock hge
      obtain rfl := Option.some.inj (hcreator'.symm.trans hcreator)
      exact ⟨task, hself, fun r hr => by rw [hnone] at hr; exact absurd hr (by simp)⟩
  · -- The others own what they owned: their files are not this acquisition's.
    rw [halive] at hnow
    by_cases hj : j = t
    · subst hj
      obtain rfl := Option.some.inj (hself.symm.trans hother)
      exact hown hnow path hpath
    · rw [hothers j hj] at hother
      obtain ⟨file, lock, hfile, hlock, hcreator, hphase⟩ := h.owned j other path hother hnow hpath
      refine ⟨file, lock, (hfiles j other path hj hother hnow hpath).trans hfile, ?_, hcreator, hphase⟩
      rcases hinodes file lock hlock with hsame | ⟨hmine, -⟩
      · exact hsame
      · exact absurd (Option.some.inj (hcreator.symm.trans hmine)) hj
  · rcases hmem other hother with rfl | hother
    · exact hknows.evolves hevolves
    · exact (h.knows other hother).evolves hevolves

lemma LeaseInv.setTask (h : LeaseInv world) (task : LeaseTask) (hget : world.tasks[t]? = some old)
    (hpid : task.pid = old.pid)
    (hown : world.isAlive task.pid = true → ∀ path, task.phase.owned = some path → world.Owns t task path)
    (hunwritten : ∀ file, task.phase.unwritten = some file → old.phase.unwritten = some file)
    (hknows : world.Knows task.phase) : LeaseInv (world.setTask t task) :=
  h.update task hget hpid rfl rfl (fun _ _ hlock => Or.inl hlock)
    (fun _ _ hlock hge => by
      rw [LeaseWorld.setTask, List.getElem?_eq_none hge] at hlock
      exact absurd hlock (by simp))
    (fun _ _ _ _ _ _ _ => rfl) hown (fun file hfile => Or.inl (hunwritten file hfile)) hknows

lemma LeaseInv.waits (h : LeaseInv world) (hget : world.tasks[t]? = some old)
    (hpid : task.pid = old.pid) (hown : phase.owned = none)
    (hunwritten : phase.unwritten = none) (hknows : world.Knows phase) : LeaseInv (world.goOn t task phase) :=
  h.setTask { task with phase } hget hpid
    (fun _ path hpath => absurd (hown.symm.trans hpath) (by simp))
    (fun file hfile => absurd (hunwritten.symm.trans hfile) (by simp)) hknows

lemma LeaseInv.starts_over (h : LeaseInv world) (hget : world.tasks[t]? = some old) (hpid : task.pid = old.pid)
    (hphase : (∃ index, phase = .trying index) ∨ (∃ index, phase = .inspecting index) ∨
      ∃ error, phase = .over error) : LeaseInv (world.goOn t task phase) := by
  rcases hphase with ⟨_, rfl⟩ | ⟨_, rfl⟩ | ⟨_, rfl⟩ <;>
    exact h.waits hget hpid rfl rfl (LeaseWorld.knows_nothing rfl rfl)

lemma LeaseInv.createNew (h : LeaseInv world) (hget : world.tasks[t]? = some old)
    (hpid : task.pid = old.pid) (hfree : world.files[path]? = none) : LeaseInv (world.createNew t task path) := by
  have hnth : (world.createNew t task path).inodes[world.inodes.length]? =
      some ⟨some t, none, world.now⟩ := by simp [LeaseWorld.createNew]
  refine h.update { task with phase := .writing path world.inodes.length } hget hpid rfl
    rfl (fun file lock hlock => Or.inl ?_) (fun file lock hlock hge => ?_)
    (fun j other path' _ hother halive hpath => ?_) (fun _ path' hpath => ?_)
    (fun file hfile => Or.inr ?_) (LeaseWorld.knows_nothing rfl rfl)
  · change (world.inodes ++ [_])[file]? = _
    rw [List.getElem?_append_left (List.getElem?_eq_some_iff.mp hlock).1, hlock]
  · have hlt := (List.getElem?_eq_some_iff.mp hlock).1
    simp only [LeaseWorld.createNew, List.length_append, List.length_singleton] at hlt
    obtain rfl : file = world.inodes.length := by omega
    obtain rfl := Option.some.inj (hnth.symm.trans hlock)
    exact ⟨rfl, rfl⟩
  · obtain ⟨file, -, hfile, -⟩ := h.owned j other path' hother halive hpath
    have hne : path ≠ path' := by
      rintro rfl
      rw [hfree] at hfile
      exact absurd hfile (by simp)
    change (world.files.insert path world.inodes.length)[path']? = _
    rw [ExtTreeMap.getElem?_insert, if_neg (by simpa using hne)]
  · obtain rfl := Option.some.inj hpath
    exact ⟨world.inodes.length, _, ExtTreeMap.getElem?_insert_self, hnth, rfl, rfl⟩
  · exact (Option.some.inj hfile).le

lemma LeaseInv.writeRecord (h : LeaseInv world) (hget : world.tasks[t]? = some task)
    (halive : world.isAlive task.pid = true)
    (hphase : task.phase = .writing path file) : LeaseInv (world.writeRecord t task path file) := by
  obtain ⟨file', lock, hfile, hlock, hcreator, hunwritten⟩ :=
    h.owned t task path hget halive (by rw [hphase]; rfl)
  have hnone : lock.content = none ∧ file' = file := by
    by_cases hnone : lock.content = none
    · rw [if_pos hnone, hphase] at hunwritten
      exact ⟨hnone, (Option.some.inj hunwritten).symm⟩
    · rw [if_neg hnone, hphase] at hunwritten
      exact absurd hunwritten (by simp [LeasePhase.unwritten])
  obtain ⟨hnone, rfl⟩ := hnone
  have hwritten : (world.writeRecord t task path file').inodes[file']? =
      some { lock with content := some ⟨task.pid, task.token, world.now⟩, modified := world.now } := by
    simp [LeaseWorld.writeRecord, hlock]
  refine h.update { task with phase := .syncing path } hget rfl rfl rfl
    (fun other lock' hother => ?_) (fun other lock' hother hge => ?_)
    (fun _ _ _ _ _ _ _ => rfl) (fun _ path' hpath => ?_) (fun _ hf => absurd hf (by
      simp [LeasePhase.unwritten])) (LeaseWorld.knows_nothing rfl rfl)
  · by_cases hsame : file' = other
    · subst hsame
      obtain rfl := Option.some.inj (hlock.symm.trans hother)
      refine Or.inr ⟨hcreator, hnone, _, hwritten, hcreator, by simp, fun r hr => ?_⟩
      rw [← Option.some.inj hr]
    · refine Or.inl ?_
      change (world.inodes.modify file' _)[other]? = _
      simp [List.getElem?_modify, hsame, hother]
  · have hlt := (List.getElem?_eq_some_iff.mp hother).1
    simp only [LeaseWorld.writeRecord, List.length_modify] at hlt
    omega
  · obtain rfl := Option.some.inj hpath
    exact ⟨file', _, hfile, hwritten, hcreator, rfl⟩

lemma LeaseInv.remove (h : LeaseInv world) (hget : world.tasks[t]? = some task)
    (hphase : (∃ index, phase = .trying index) ∨ ∃ error, phase = .over error)
    (hfree : ∀ (j : ℕ) (other : LeaseTask), j ≠ t → world.tasks[j]? = some other →
      world.isAlive other.pid = true → other.phase.owned ≠ some path) :
    LeaseInv (world.remove t task path phase) := by
  have hend : phase.owned = none ∧ phase.unwritten = none ∧ world.Knows phase := by
    rcases hphase with ⟨index, rfl⟩ | ⟨error, rfl⟩ <;>
      exact ⟨rfl, rfl, LeaseWorld.knows_nothing rfl rfl⟩
  obtain ⟨howned, hunwritten, hknows⟩ := hend
  refine h.update { task with phase } hget rfl rfl rfl (fun _ _ hlock => Or.inl hlock)
    (fun file lock hlock hge => ?_) (fun j other path' hj hother halive hpath => ?_)
    (fun _ path' hpath => absurd (howned.symm.trans hpath) (by simp))
    (fun file hfile => absurd (hunwritten.symm.trans hfile) (by simp)) hknows
  · rw [LeaseWorld.remove, List.getElem?_eq_none hge] at hlock
    exact absurd hlock (by simp)
  · have hne : path ≠ path' := by
      rintro rfl
      exact hfree j other hj hother halive hpath
    change (world.files.erase path)[path']? = _
    rw [ExtTreeMap.getElem?_erase, if_neg (by simpa using hne)]

lemma LeaseInv.owner_unique (h : LeaseInv world) {i j : ℕ} {first second : LeaseTask}
    (hfirst : world.tasks[i]? = some first) (hsecond : world.tasks[j]? = some second)
    (hi : world.isAlive first.pid = true) (hj : world.isAlive second.pid = true)
    (hpath : first.phase.owned = some path) (hpath' : second.phase.owned = some path) : i = j := by
  obtain ⟨file, lock, hfile, hlock, hcreator, -⟩ := h.owned i first path hfirst hi hpath
  obtain ⟨file', lock', hfile', hlock', hcreator', -⟩ := h.owned j second path hsecond hj hpath'
  obtain rfl := Option.some.inj (hfile.symm.trans hfile')
  obtain rfl := Option.some.inj (hlock.symm.trans hlock')
  exact Option.some.inj (hcreator.symm.trans hcreator')

/-! ## The conditions -/

namespace LeaseWorld

/-- Every live acquisition writes its record in time. -/
def WritesInTime (world : LeaseWorld) : Prop :=
  ∀ task ∈ world.tasks, world.isAlive task.pid = true → ∀ file ∈ task.phase.unwritten,
    ∀ lock ∈ world.inodes[file]?, oldEnough world.now lock.modified = false

/-- The file at the path is the one that the waiter inspected. -/
def IsAsJudged (world : LeaseWorld) (task : LeaseTask) : Prop :=
  match task.phase with
  | .removing index metadata file record =>
    ∀ now ∈ world.files[task.path index]?, now = metadata.file ∧ now = file ∧
      world.inodes[now]?.bind (·.content) = record
  | _ => True

/-- A waiter who removes a path removes the file that it has judged. -/
def RemovesAsJudged (world : LeaseWorld) : LeaseAction → Prop
  | .act t .ok => ∀ task ∈ world.tasks[t]?, world.isAlive task.pid = true → world.IsAsJudged task
  | _ => True

instance (world : LeaseWorld) (task : LeaseTask) : Decidable (world.IsAsJudged task) := by
  unfold IsAsJudged
  exact match task.phase with
  | .removing _ _ _ _ => inferInstance
  | .trying _ | .writing _ _ | .syncing _ | .holding _ | .releasing _ | .unlinking _ | .inspecting _
  | .opening _ _ | .reading _ _ _ | .judging _ _ _ _ | .over _ => .isTrue trivial

instance (world : LeaseWorld) : (action : LeaseAction) → Decidable (world.RemovesAsJudged action)
  | .act t .ok => inferInstanceAs (Decidable (∀ task ∈ world.tasks[t]?,
      world.isAlive task.pid = true → world.IsAsJudged task))
  | .act _ .failed | .act _ .cancelled | .act _ .expired | .clock _ | .start _ | .die _
  | .acquire _ _ _ => .isTrue trivial

instance (world : LeaseWorld) : Decidable world.WritesInTime :=
  inferInstanceAs (Decidable (∀ task ∈ world.tasks, _ → ∀ file ∈ task.phase.unwritten, _))

end LeaseWorld

/-! ## Steps -/

lemma LeaseInv.removing_free (h : LeaseInv world) (hget : world.tasks[t]? = some task) {record : Option LeaseRecord}
    (hphase : task.phase = .removing index metadata file record) (hjudged : world.IsAsJudged task)
    {j : ℕ} {other : LeaseTask} (hother : world.tasks[j]? = some other)
    (halive : world.isAlive other.pid = true) : other.phase.owned ≠ some (task.path index) := by
  intro hpath
  obtain ⟨now, lock, hnow, hlock, hcreator, hunwritten⟩ := h.owned j other _ hother halive hpath
  simp only [LeaseWorld.IsAsJudged, hphase] at hjudged
  obtain ⟨hmetadata, hfile, hrecord⟩ := hjudged now hnow
  rw [hlock] at hrecord
  change lock.content = record at hrecord
  have hknows := h.knows task (List.mem_of_getElem? hget)
  rw [hphase] at hknows
  cases hr : record with
  | none =>
    subst hr
    rw [if_pos hrecord] at hunwritten
    exact hknows.unowned index metadata file rfl j ⟨other, hother, halive, hmetadata ▸ hunwritten⟩
  | some r =>
    subst hr
    have hcreated : lock.creator ≠ none := by rw [hcreator]; exact Option.some_ne_none j
    have hdead := hknows.dead index metadata file r rfl lock (hfile ▸ hlock) hcreated
    obtain ⟨other', hother', hpid⟩ := h.created now lock j hlock hcreator
    obtain rfl := Option.some.inj (hother.symm.trans hother')
    rw [hpid r hrecord] at hdead
    rw [hdead.not_alive] at halive
    exact absurd halive (by simp)

lemma LeaseInv.isDead_of_not_processIsAlive (h : LeaseInv world) {own : ℕ} {answer : LeaseAnswer}
    {process : LeaseProcess} (hprocess : world.processes[pid]? = some process)
    (hgone : processIsAlive own pid (world.probe answer pid) = false) : world.IsDead pid := by
  have hzero : pid ≠ 0 := by
    rintro rfl
    rw [h.zero] at hprocess
    exact absurd hprocess (by simp)
  refine LeaseWorld.isDead_of_not_alive hprocess (Bool.eq_false_iff.mpr fun halive => ?_)
  have hseen : world.probe answer pid ≠ .notFound := by
    cases answer <;> simp [LeaseWorld.probe, halive]
  cases hprobe : world.probe answer pid <;> simp_all [processIsAlive]

lemma LeaseInv.judge (h : LeaseInv world) (hget : world.tasks[t]? = some task) (htime : world.WritesInTime)
    {record : Option LeaseRecord} (hphase : task.phase = .judging index metadata file record)
    (answer : LeaseAnswer) : LeaseInv (world.judge t task index metadata file record answer) := by
  have hknows := h.knows task (List.mem_of_getElem? hget)
  rw [hphase] at hknows
  unfold LeaseWorld.judge
  split
  next hreclaim =>
    refine h.waits hget rfl rfl rfl ⟨hknows.inspected, hknows.read, ?_, ?_⟩
    · rintro _ _ _ r hsame lock hlock hcreated
      obtain ⟨rfl, rfl, rfl, rfl⟩ := LeasePhase.removing.inj hsame
      obtain ⟨lock', hlock', hread⟩ := hknows.read file (some r) rfl
      obtain rfl := Option.some.inj (hlock.symm.trans hlock')
      obtain ⟨j, hj⟩ := Option.ne_none_iff_exists'.mp hcreated
      obtain ⟨other, hother, hpid⟩ := h.created file lock j hlock hj
      obtain ⟨process, hprocess⟩ := h.started other (List.mem_of_getElem? hother)
      rw [← hpid r (hread r rfl)] at hprocess
      have hgone : processIsAlive task.pid r.pid (world.probe answer r.pid) = false := by
        simpa [isReclaimable] using hreclaim
      exact h.isDead_of_not_processIsAlive hprocess hgone
    · -- The file is old, so nobody is still writing it.
      rintro _ _ _ hsame j ⟨other, hother, halive, hunwritten⟩
      obtain ⟨rfl, rfl, rfl, rfl⟩ := LeasePhase.removing.inj hsame
      have hold : oldEnough world.now metadata.modified = true := hreclaim
      obtain ⟨lock, hlock, hmodified⟩ := hknows.inspected metadata rfl
      obtain ⟨path, hwriting⟩ : ∃ path, other.phase = .writing path metadata.file := by
        cases hcase : other.phase <;> simp [hcase, LeasePhase.unwritten] at hunwritten
        exact ⟨_, by rw [hunwritten]⟩
      obtain ⟨file', lock', -, hlock', -, hexpect⟩ :=
        h.owned j other path hother halive (by rw [hwriting]; rfl)
      rw [hunwritten] at hexpect
      have hnone : lock'.content = none := by
        by_contra hsome
        rw [if_neg hsome] at hexpect
        exact absurd hexpect (by simp)
      rw [if_pos hnone] at hexpect
      obtain rfl := Option.some.inj hexpect
      obtain rfl := Option.some.inj (hlock.symm.trans hlock')
      have hyoung := htime other (List.mem_of_getElem? hother) halive _ hunwritten lock hlock
      rw [hmodified hnone, hold] at hyoung
      exact absurd hyoung (by simp)
  next => exact h.starts_over hget rfl (Or.inl ⟨_, rfl⟩)

def LeaseWorld.attempt (world : LeaseWorld) (t : ℕ) (task : LeaseTask) (index : ℕ) (answer : LeaseAnswer) : LeaseWorld :=
  match task.paths[index]? with
  | none => world.goOn t task (.trying 0)
  | some _ =>
    let (world, task) := match task.request with
      | .lease _ => (world, task)
      | .hostSlot _ => (world.advance task.pid, { task with token := world.nextToken task.pid })
    if world.files.contains (task.path index) then world.goOn t task (.inspecting index)
    else if answer = .ok then world.createNew t task (task.path index)
    else world.fail t task (.io (task.errorPath (task.path index)))

lemma LeaseInv.try_ (h : LeaseInv world) (hget : world.tasks[t]? = some task) (index : ℕ)
    (answer : LeaseAnswer) : LeaseInv (world.try_ t task index answer) := by
  have hfail : ∀ error, LeaseInv (world.fail t task error) :=
    fun error => h.starts_over hget rfl (Or.inr (Or.inr ⟨_, rfl⟩))
  -- The lock file is there, or it is created, or its creation fails.
  have hattempt : ∀ (world' : LeaseWorld) (task' : LeaseTask), LeaseInv world' →
      world'.tasks[t]? = some task → task'.pid = task.pid → LeaseInv (if world'.files.contains (task'.path index) then
            world'.goOn t task' (.inspecting index)
          else if answer = .ok then world'.createNew t task' (task'.path index)
          else world'.fail t task' (.io (task'.errorPath (task'.path index)))) := by
    intro world' task' h' hget' hpid
    split
    · exact h'.starts_over hget' hpid (Or.inr (Or.inl ⟨_, rfl⟩))
    next hfree =>
      split
      · refine h'.createNew hget' hpid ?_
        rw [ExtTreeMap.contains_eq_isSome_getElem?] at hfree
        simpa using hfree
      · exact h'.starts_over hget' hpid (Or.inr (Or.inr ⟨_, rfl⟩))
  have htry : LeaseInv (world.attempt t task index answer) := by
    unfold LeaseWorld.attempt
    split
    · exact h.starts_over hget rfl (Or.inl ⟨_, rfl⟩)
    · cases hrequest : task.request with
      | lease key => exact hattempt world task h hget rfl
      | hostSlot slots =>
        have hslot := hattempt (world.advance task.pid)
          { task with token := world.nextToken task.pid } (h.advance _) hget rfl
        simpa only [hrequest] using hslot
  cases answer with
  | cancelled =>
    simp only [LeaseWorld.try_]
    split
    · exact hfail _
    · exact h
  | expired =>
    simp only [LeaseWorld.try_]
    split
    · exact hfail _
    · exact h
  | ok => exact htry
  | failed => exact htry

lemma LeaseInv.readOwn (h : LeaseInv world) (hget : world.tasks[t]? = some task) {lease : Lease}
    (hphase : task.phase = .releasing lease) (answer : LeaseAnswer) :
    LeaseInv (world.readOwn t task lease answer) := by
  unfold LeaseWorld.readOwn
  split
  · split
    · refine h.setTask { task with phase := .unlinking lease } hget rfl
        (fun halive path hpath => ?_) (fun _ hfile => absurd hfile (by simp [LeasePhase.unwritten]))
        (LeaseWorld.knows_nothing rfl rfl)
      obtain ⟨file, lock, hfile, hlock, hcreator, hunwritten⟩ :=
        h.owned t task path hget halive (by rw [hphase]; exact hpath)
      rw [hphase] at hunwritten
      exact ⟨file, lock, hfile, hlock, hcreator, hunwritten⟩
    · exact h.starts_over hget rfl (Or.inr (Or.inr ⟨_, rfl⟩))
  · exact h.starts_over hget rfl (Or.inr (Or.inr ⟨_, rfl⟩))

lemma LeaseInv.inspect (h : LeaseInv world) (hget : world.tasks[t]? = some task) (index : ℕ)
    (answer : LeaseAnswer) : LeaseInv (world.inspect t task index answer) := by
  unfold LeaseWorld.inspect
  split
  next file _ =>
    split
    next lock hlock =>
      refine h.waits hget rfl rfl rfl ⟨fun metadata hmetadata => ?_, ?_, ?_, ?_⟩
      · obtain rfl := Option.some.inj hmetadata
        exact ⟨lock, hlock, fun _ => rfl⟩
      · exact fun _ _ hread => absurd hread (by simp [LeasePhase.readRecord])
      · exact fun _ _ _ _ hphase => absurd hphase (by simp)
      · exact fun _ _ _ hphase => absurd hphase (by simp)
    · exact h.starts_over hget rfl (Or.inl ⟨_, rfl⟩)
  · exact h.starts_over hget rfl (Or.inl ⟨_, rfl⟩)

lemma LeaseInv.openFile (h : LeaseInv world) (hget : world.tasks[t]? = some task)
    (hphase : task.phase = .opening index metadata)
    (answer : LeaseAnswer) : LeaseInv (world.openFile t task index metadata answer) := by
  have hknows := h.knows task (List.mem_of_getElem? hget)
  rw [hphase] at hknows
  unfold LeaseWorld.openFile
  split
  · exact h.waits hget rfl rfl rfl ⟨hknows.inspected,
      fun _ _ hread => absurd hread (by simp [LeasePhase.readRecord]),
      fun _ _ _ _ hphase => absurd hphase (by simp), fun _ _ _ hphase => absurd hphase (by simp)⟩
  · exact h.starts_over hget rfl (Or.inl ⟨_, rfl⟩)

lemma LeaseInv.readFile (h : LeaseInv world) (hget : world.tasks[t]? = some task)
    (hphase : task.phase = .reading index metadata file)
    (answer : LeaseAnswer) : LeaseInv (world.readFile t task index metadata file answer) := by
  have hknows := h.knows task (List.mem_of_getElem? hget)
  rw [hphase] at hknows
  unfold LeaseWorld.readFile
  split
  next lock hlock =>
    refine h.waits hget rfl rfl rfl ⟨hknows.inspected, fun file' record hread => ?_,
      fun _ _ _ _ hphase => absurd hphase (by simp), fun _ _ _ hphase => absurd hphase (by simp)⟩
    obtain ⟨rfl, rfl⟩ := Prod.mk.inj (Option.some.inj hread)
    exact ⟨lock, hlock, fun _ hr => hr⟩
  · exact h.starts_over hget rfl (Or.inl ⟨_, rfl⟩)

lemma LeaseInv.act (h : LeaseInv world) (hget : world.tasks[t]? = some task)
    (halive : world.isAlive task.pid = true) (htime : world.WritesInTime) (answer : LeaseAnswer)
    (hjudged : answer = .ok → world.IsAsJudged task) : LeaseInv (world.act t task answer) := by
  have hfail : ∀ error, LeaseInv (world.fail t task error) :=
    fun error => h.starts_over hget rfl (Or.inr (Or.inr ⟨_, rfl⟩))
  -- An acquisition that keeps its path keeps what it owns.
  have hkeep : ∀ phase : LeasePhase, phase.owned = task.phase.owned → phase.unwritten = none →
      task.phase.unwritten = none → phase.metadata = none → phase.readRecord = none →
        LeaseInv (world.goOn t task phase) := by
    intro phase howned hwritten hbefore hmetadata hread
    refine h.setTask { task with phase } hget rfl (fun _ path hpath => ?_)
      (fun _ hfile => absurd (hwritten.symm.trans hfile) (by simp))
      (LeaseWorld.knows_nothing hmetadata hread)
    obtain ⟨file, lock, hfile, hlock, hcreator, hunwritten⟩ :=
      h.owned t task path hget halive (howned ▸ hpath)
    exact ⟨file, lock, hfile, hlock, hcreator, (hwritten.trans hbefore.symm).trans hunwritten⟩
  unfold LeaseWorld.act
  cases hphase : task.phase with
  | trying index => exact h.try_ hget index answer
  | writing path file =>
    dsimp only
    split
    · exact h.writeRecord hget halive hphase
    · exact hfail _
  | syncing path =>
    dsimp only
    split
    · exact hkeep _ (by rw [hphase]; rfl) rfl (by rw [hphase]; rfl) rfl rfl
    · exact hfail _
  | holding lease => exact hkeep _ (by rw [hphase]; rfl) rfl (by rw [hphase]; rfl) rfl rfl
  | releasing lease => exact h.readOwn hget hphase answer
  | unlinking lease =>
    dsimp only
    split
    · refine h.remove hget (Or.inr ⟨_, rfl⟩) fun j other hj hother hnow hpath => hj ?_
      exact h.owner_unique hother hget hnow halive hpath (by rw [hphase]; rfl)
    · exact h.starts_over hget rfl (Or.inr (Or.inr ⟨_, rfl⟩))
  | inspecting index => exact h.inspect hget index answer
  | opening index metadata => exact h.openFile hget hphase answer
  | reading index metadata file => exact h.readFile hget hphase answer
  | judging index metadata file record => exact h.judge hget htime hphase answer
  | removing index metadata file record =>
    dsimp only
    split
    next hok =>
      exact h.remove hget (Or.inl ⟨_, rfl⟩) fun j other _ hother hnow =>
        h.removing_free hget hphase (hjudged hok) hother hnow
    · exact h.starts_over hget rfl (Or.inl ⟨_, rfl⟩)
  | _ => exact h

lemma LeaseInv.acquire (h : LeaseInv world) (halive : world.isAlive pid = true)
    (root : String) (request : LeaseRequest) : LeaseInv (world.acquire pid root request) := by
  have hstarted : ∀ {w : LeaseWorld}, w.isAlive pid = true → ∃ process, w.processes[pid]? = some process := by
    intro w hw
    cases hprocess : w.processes[pid]? with
    | none => simp [LeaseWorld.isAlive, hprocess] at hw
    | some process => exact ⟨process, rfl⟩
  cases request with
  | lease key =>
    obtain ⟨process, hprocess⟩ := hstarted halive
    exact (h.advance pid).addTask
      ⟨pid, root, .lease key, [leasePath root key], world.nextToken pid, .trying 0⟩
      ⟨_, by
        change (world.processes.modify pid _)[pid]? = _
        rw [ExtTreeMap.getElem?_modify_self, hprocess]
        rfl⟩
      rfl (fun _ => LeaseWorld.knows_nothing rfl rfl) rfl
  | hostSlot slots =>
    refine h.addTask _ (hstarted halive) ?_ (fun _ => LeaseWorld.knows_nothing ?_ ?_) ?_ <;>
      split <;> rfl

lemma LeaseInv.step (h : LeaseInv world) {action : LeaseAction} (htime : world.WritesInTime)
    (hjudged : world.RemovesAsJudged action) : LeaseInv (world.step action) := by
  cases action with
  | clock now => exact ⟨h.zero, h.started, h.created, h.owned, fun task htask =>
      (h.knows task htask).evolves ⟨fun _ lock hlock => ⟨lock, hlock, rfl, Or.inl rfl⟩,
        fun _ hdead => hdead, fun _ _ _ hunwritten => hunwritten⟩⟩
  | start pid =>
    simp only [LeaseWorld.step]
    split
    next hfresh => exact h.start hfresh.1 hfresh.2
    · exact h
  | die pid => exact h.modifyProcess pid fun _ halive => absurd halive (by simp)
  | acquire pid root request =>
    simp only [LeaseWorld.step]
    split
    next halive => exact h.acquire halive root request
    · exact h
  | act t answer =>
    simp only [LeaseWorld.step]
    split
    · exact h
    next task hget =>
      split
      next halive =>
        refine h.act hget halive htime answer fun hok => ?_
        subst hok
        exact hjudged task hget halive
      · exact h

lemma leaseInv_leftover (files : ExtTreeMap String ℕ) (inodes : List (Option LeaseRecord × ℕ)) :
    LeaseInv (.leftover files inodes) where
  zero := ExtTreeMap.getElem?_empty
  started := by simp [LeaseWorld.leftover]
  created := by
    intro file lock t hlock hcreator
    simp only [LeaseWorld.leftover, List.getElem?_map, Option.map_eq_some_iff] at hlock
    obtain ⟨entry, -, rfl⟩ := hlock
    exact absurd hcreator (by simp)
  owned := by simp [LeaseWorld.leftover]
  knows := by simp [LeaseWorld.leftover]

lemma LeaseWorld.of_heldPath (h : world.heldPath t = some path) :
    ∃ task : LeaseTask, world.tasks[t]? = some task ∧ world.isAlive task.pid = true ∧
      task.phase.owned = some path := by
  unfold LeaseWorld.heldPath at h
  cases hget : world.tasks[t]? with
  | none => simp [hget] at h
  | some task =>
    cases hphase : task.phase with
    | holding lease =>
      by_cases halive : world.isAlive task.pid = true
      · refine ⟨task, rfl, halive, ?_⟩
        simpa [hget, hphase, halive, LeasePhase.owned] using h
      · simp [hget, hphase, halive] at h
    | _ => simp [hget, hphase] at h

/-- In a run in which records are written in time and every waiter removes the file that it has
judged, no two live processes hold the lease of one key. -/
theorem leases_exclude (files : ExtTreeMap String ℕ) (inodes : List (Option LeaseRecord × ℕ))
    (actions : List LeaseAction)
    (h : Runs.Along LeaseWorld.step (fun world action => world.WritesInTime ∧
      world.RemovesAsJudged action) (.leftover files inodes) actions) :
    ((LeaseWorld.leftover files inodes).run actions).Exclusive := by
  have hinv : LeaseInv ((LeaseWorld.leftover files inodes).run actions) :=
    h.invariant (fun _ _ hworld hcond => hworld.step hcond.1 hcond.2)
      (leaseInv_leftover files inodes)
  intro i j root key hi hj
  obtain ⟨first, hfirst, halive, hpath⟩ := LeaseWorld.of_heldPath hi
  obtain ⟨second, hsecond, halive', hpath'⟩ := LeaseWorld.of_heldPath hj
  exact hinv.owner_unique hfirst hsecond halive halive' hpath hpath'

/-- An acquisition makes some steps, all answered by success. -/
def successes (t n : ℕ) : List LeaseAction := List.replicate n (.act t .ok)

/-- The path of the lock file that a dead process has left. -/
def crashedPath : ExtTreeMap String ℕ := ExtTreeMap.empty.insert (leasePath "/leases" "gate") 0

def crashedFile : List (Option LeaseRecord × ℕ) := [(some ⟨7, "7-0-0", 0⟩, 0)]

/-- Two processes that want the lease of the dead one. -/
def twoWaiters : List LeaseAction :=
  [.start 1, .start 2, .acquire 1 "/leases" (.lease "gate"), .acquire 2 "/leases" (.lease "gate")]

/-- The first waiter reclaims the lease, and then the second one looks. -/
theorem leases_exclude_two_waiters :
    let world := (LeaseWorld.leftover crashedPath crashedFile).run
      (twoWaiters ++ successes 0 10 ++ successes 1 4)
    world.Holds 0 "/leases" "gate" ∧ world.Exclusive := by
  intro world
  exact ⟨by decide +kernel, leases_exclude crashedPath crashedFile _ (by decide +kernel)⟩

/-- The first waiter makes its file, and then the second removes it. -/
theorem two_waiters_hold_one_lease :
    let actions := twoWaiters ++ successes 0 5 ++ successes 1 5 ++ successes 0 5 ++ successes 1 5
    let world := (LeaseWorld.leftover crashedPath crashedFile).run actions
    Runs.Along LeaseWorld.step (fun world _ => world.WritesInTime)
        (.leftover crashedPath crashedFile) actions ∧
      world.tasks.map LeaseTask.pid = [1, 2] ∧ ¬ world.Exclusive := by
  intro actions world
  have hrun : Runs.Along LeaseWorld.step (fun world _ => world.WritesInTime)
        (.leftover crashedPath crashedFile) actions ∧
      world.tasks.map LeaseTask.pid = [1, 2] ∧
      world.Holds 0 "/leases" "gate" ∧ world.Holds 1 "/leases" "gate" := by decide +kernel
  obtain ⟨htime, hpids, hfirst, hsecond⟩ := hrun
  exact ⟨htime, hpids, fun h => absurd (h 0 1 _ _ hfirst hsecond) (by decide)⟩

end AgzRustMcp.Gate
