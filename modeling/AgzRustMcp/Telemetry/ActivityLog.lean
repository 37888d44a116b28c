import AgzRustMcp.Change.Model
import AgzRustMcp.Foundation.Json
import AgzRustMcp.Foundation.Runs

/-!
# The activity log

`record` of `telemetry.rs` appends an event to a file that several processes share, and rotates the
file into numbered archives before it grows too large.  A rotation is a chain of renames that may
be cut anywhere, and is resumed by the next one with a gap in the numbering.  `LogInv` is what holds
between any two of its steps: what is left of the log is an end of it (`activity_log_keeps_suffix`).
-/

namespace AgzRustMcp.Telemetry

open JsonText Utf8Text
open String (utf8Len)

/-! ## The log -/

/-- `TelemetryConfig`, in the ranges that `Config::validate` accepts. -/
structure TelemetryConfig where
  enabled : Bool
  retentionBytes : ℕ
  retentionDays : ℕ
  maxArchives : ℕ
  retentionBytes_range : 4 * 1024 ≤ retentionBytes ∧ retentionBytes ≤ u64Max
  retentionDays_range : 1 ≤ retentionDays ∧ retentionDays ≤ u64Max
  maxArchives_range : 1 ≤ maxArchives ∧ maxArchives ≤ u64Max

/-- The retention age in nanoseconds, like the clock. -/
def TelemetryConfig.retentionAge (config : TelemetryConfig) : ℕ :=
  min (config.retentionDays * (24 * 60 * 60)) u64Max * 10 ^ 9

def maxEventBytes : ℕ := 4 * 1024

/-- A file of the log: its lines, and when it was last modified. -/
structure LogFile where
  lines : List Text
  modified : ℕ

def LogFile.bytes (file : LogFile) : ℕ := (file.lines.map fun line => utf8Len line + 1).sum

/-- The files of the log: the current one is 0, then the archives. -/
abbrev LogFiles := ℕ → Option LogFile

/-- The files, the clock, the counters, and the accepted lines. -/
structure ActivityWorld where
  files : LogFiles
  clock : ℕ
  sequences : ℕ → ℕ
  accepted : List Text

/-- Nothing is recorded yet. -/
def ActivityWorld.empty : ActivityWorld := ⟨fun _ => none, 0, fun _ => 0, []⟩

/-- A call of `record` by a process: its arguments, the time that passes until the expiry of the
archives, then until its time stamp and then until its write, and where a rotation is cut. -/
structure RecordCall where
  process : ℕ
  event : Text
  tool : Option Text
  status : Option Text
  root : Option Text
  request : Option Text
  untilExpiry : ℕ
  untilStamp : ℕ
  untilWrite : ℕ
  crash : Option ℕ

inductive RecordResult where
  | recorded
  | refused (message : String)
  | crashed

def boundedToken (value : Text) : Text :=
  if utf8Len (trim value) ≤ 64 then trim value else "oversized".toList

/-- `hash`, with the salt of the process. -/
def activityHash (sha : ByteArray → String) (salt : ByteArray) (value : Text) : Text :=
  (sha (salt ++ encodeUtf8 value)).toList

/-- The line of an event: `ActivityEvent` as JSON, which holds no line feed. -/
def eventLine (hash : Text → Text) (call : RecordCall) (timestampMs sequence : ℕ) : Text :=
  let optional (text : Option Text) : Value := (text.map Value.string).getD .null
  let fallback := s!"event:{timestampMs}:{sequence}".toList
  (Value.object
    [("version".toList, .nat 1), ("timestampMs".toList, .nat timestampMs),
      ("event".toList, .string (boundedToken call.event)),
      ("tool".toList, optional (call.tool.map boundedToken)),
      ("status".toList, optional (call.status.map boundedToken)),
      ("requestHash".toList, .string (hash (call.request.getD fallback))),
      ("rootHash".toList, optional (call.root.map hash))]).compact

def LogFile.isExpired (config : TelemetryConfig) (now : ℕ) (file : LogFile) : Bool :=
  config.retentionAge < now - file.modified

/-- One turn of the loop of `remove_expired_archives`. -/
def removeExpired (config : TelemetryConfig) (now : ℕ) (files : LogFiles) (index : ℕ) : LogFiles :=
  match files index with
  | some file => if file.isExpired config now then Function.update files index none else files
  | none => files

def removeExpiredArchives (config : TelemetryConfig) (now : ℕ) (files : LogFiles) : LogFiles :=
  (List.range' 1 config.maxArchives).foldl (removeExpired config now) files

/-- A step of a rotation: `remove_if_file` or `rename_if_file`. -/
inductive RotateStep where
  | remove (index : ℕ)
  | rename (source destination : ℕ)

def RotateStep.run (files : LogFiles) : RotateStep → LogFiles
  | .remove index => Function.update files index none
  | .rename source destination =>
    match files source with
    | some file => Function.update (Function.update files source none) destination (some file)
    | none => files

/-- The renames of the files below a number, the current one last. -/
def renameSteps (top : ℕ) : List RotateStep :=
  (List.range top).reverse.map fun index => .rename index (index + 1)

/-- The steps of `rotate`. -/
def rotateSteps (maxArchives : ℕ) : List RotateStep :=
  if maxArchives = 0 then [.remove 0] else .remove maxArchives :: renameSteps maxArchives

/-- The end of `record_locked`; no file is longer than `u64::MAX`. -/
def appendLine (world : ActivityWorld) (untilWrite : ℕ) (line : Text) : ActivityWorld × RecordResult :=
  let file := (world.files 0).getD ⟨[], 0⟩
  let now := world.clock + untilWrite
  if u64Max < file.bytes + (utf8Len line + 1) then (world, .refused "File too large")
  else
    ({ world with
        files := Function.update world.files 0 (some ⟨file.lines ++ [line], now⟩)
        clock := now
        accepted := world.accepted ++ [line] },
      .recorded)

def recordLocked (sha : ByteArray → String) (salt : ℕ → ByteArray) (config : TelemetryConfig)
    (world : ActivityWorld) (call : RecordCall) : ActivityWorld × RecordResult :=
  let now := world.clock + call.untilExpiry
  let sequence := world.sequences call.process
  let stamp := now + call.untilStamp
  let world :=
    { world with
      files := removeExpiredArchives config now world.files
      clock := stamp
      sequences := Function.update world.sequences call.process ((sequence + 1) % 2 ^ 64) }
  let line := eventLine (activityHash sha (salt call.process)) call (stamp / 10 ^ 6) sequence
  if maxEventBytes ≤ utf8Len line then (world, .refused "telemetry event exceeded its byte limit")
  else
    let currentSize := ((world.files 0).map LogFile.bytes).getD 0
    if 0 < currentSize ∧ config.retentionBytes < saturatingAdd currentSize (utf8Len line + 1) then
      let steps := rotateSteps config.maxArchives
      match call.crash with
      | some done => ({ world with files := (steps.take done).foldl RotateStep.run world.files }, .crashed)
      | none =>
        appendLine { world with files := steps.foldl RotateStep.run world.files } call.untilWrite line
    else appendLine world call.untilWrite line

/-- `record` under its two locks, which no two calls have at the same time. -/
def record (sha : ByteArray → String) (salt : ℕ → ByteArray) (config : TelemetryConfig)
    (world : ActivityWorld) (call : RecordCall) : ActivityWorld × RecordResult :=
  if config.enabled then recordLocked sha salt config world call else (world, .recorded)

/-- The world after a list of calls, by any processes. -/
def recordAll (sha : ByteArray → String) (salt : ℕ → ByteArray) (config : TelemetryConfig)
    (calls : List RecordCall) : ActivityWorld :=
  Runs.run (fun world call => (record sha salt config world call).1) .empty calls

def linesAt (files : LogFiles) (index : ℕ) : List Text := ((files index).map LogFile.lines).getD []

/-- The lines of the files with numbers below a bound, from the highest number down. -/
def logLines (files : LogFiles) : ℕ → List Text
  | 0 => []
  | index + 1 => linesAt files index ++ logLines files index

/-! ## What is left of the log -/

/-- The files hold an end of the accepted lines, older ones further up. -/
structure LogInv (config : TelemetryConfig) (accepted : List Text) (clock : ℕ) (files : LogFiles) : Prop where
  suffix : logLines files (config.maxArchives + 1) <:+ accepted
  ordered : ∀ i j file older, i < j → files i = some file → files j = some older → older.modified ≤ file.modified
  past : ∀ i file, files i = some file → file.modified ≤ clock
  bounded : ∀ i file, files i = some file → file.bytes ≤ config.retentionBytes
  archived : ∀ i, config.maxArchives < i → files i = none

variable {config : TelemetryConfig} {accepted : List Text} {clock : ℕ} {files files' : LogFiles}

lemma logLines_congr {count : ℕ} (h : ∀ i < count, files' i = files i) :
    logLines files' count = logLines files count := by
  induction count with
  | zero => rfl
  | succ count ih =>
    rw [logLines, logLines, ih fun i hi => h i (Nat.lt_succ_of_lt hi), linesAt, linesAt,
      h count (Nat.lt_succ_self count)]

lemma logLines_succ_of_eq_none {index : ℕ} (h : files index = none) :
    logLines files (index + 1) = logLines files index := by
  rw [logLines, linesAt, h]
  rfl

lemma logLines_suffix (hkept : ∀ i, files' i = files i ∨ files' i = none)
    (holder : ∀ i j, i < j → files' i ≠ files i → files' j = none) (count : ℕ) :
    logLines files' count <:+ logLines files count := by
  induction count with
  | zero => exact List.suffix_refl []
  | succ count ih =>
    by_cases hgone : files' count = none
    · rw [logLines_succ_of_eq_none hgone, logLines]
      exact ih.trans (List.suffix_append _ _)
    · have hsame : ∀ i < count + 1, files' i = files i := by
        intro i hi
        by_contra hne
        rcases Nat.lt_succ_iff_lt_or_eq.mp hi with hlt | rfl
        · exact hgone (holder i count hlt hne)
        · exact hne ((hkept i).resolve_right hgone)
      rw [logLines_congr hsame]

lemma LogInv.removed (h : LogInv config accepted clock files) (hkept : ∀ i, files' i = files i ∨ files' i = none)
    (holder : ∀ i j, i < j → files' i ≠ files i → files' j = none) : LogInv config accepted clock files' := by
  have hold : ∀ i file, files' i = some file → files i = some file := by
    intro i file hfile
    rcases hkept i with hsame | hgone
    · rw [← hsame, hfile]
    · rw [hgone] at hfile
      cases hfile
  refine ⟨(logLines_suffix hkept holder _).trans h.suffix, ?_, ?_, ?_, ?_⟩
  · exact fun i j file older hij hi hj => h.ordered i j file older hij (hold i file hi) (hold j older hj)
  · exact fun i file hi => h.past i file (hold i file hi)
  · exact fun i file hi => h.bounded i file (hold i file hi)
  · intro i hi
    rcases hkept i with hsame | hgone
    · rw [hsame, h.archived i hi]
    · exact hgone

lemma LogInv.later (h : LogInv config accepted clock files) (time : ℕ) :
    LogInv config accepted (clock + time) files :=
  ⟨h.suffix, h.ordered, fun i file hi => (h.past i file hi).trans (Nat.le_add_right _ _), h.bounded, h.archived⟩

lemma removeExpired_apply (now index i : ℕ) : removeExpired config now files index i =
    if i = index then (files i).filter (!·.isExpired config now) else files i := by
  unfold removeExpired
  split_ifs with hi
  · subst hi
    cases hfile : files i with
    | none => exact hfile
    | some file => cases hexpired : file.isExpired config now <;> simp [hfile, hexpired, Option.filter_some]
  · cases files index with
    | none => rfl
    | some file =>
      dsimp only
      split_ifs
      · exact Function.update_of_ne hi _ _
      · rfl

lemma removeExpiredArchives_apply (now i : ℕ) : removeExpiredArchives config now files i =
    if i ∈ List.range' 1 config.maxArchives then (files i).filter (!·.isExpired config now) else files i := by
  unfold removeExpiredArchives
  induction List.range' 1 config.maxArchives generalizing files with
  | nil => rfl
  | cons index rest ih =>
    rw [List.foldl_cons, ih, removeExpired_apply]
    by_cases hi : i = index
    · simp [hi]
    · simp [hi]

lemma LogInv.removeExpiredArchives (h : LogInv config accepted clock files) (now : ℕ) :
    LogInv config accepted clock (removeExpiredArchives config now files) := by
  have hkept : ∀ i, (files i).filter (!·.isExpired config now) = files i ∨
      (files i).filter (!·.isExpired config now) = none := by
    intro i
    cases files i with
    | none => exact Or.inl rfl
    | some file => cases hexpired : file.isExpired config now <;> simp [hexpired]
  refine h.removed (fun i => ?_) fun i j hij hne => ?_
  · rw [removeExpiredArchives_apply]
    split_ifs
    · exact hkept i
    · exact Or.inl rfl
  · rw [removeExpiredArchives_apply] at hne ⊢
    split_ifs at hne with hi
    · cases hfile : files i with
      | none =>
        rw [hfile] at hne
        exact absurd rfl hne
      | some file =>
        cases holder : files j with
        | none => split_ifs <;> rfl
        | some older =>
          have hexpired : file.isExpired config now = true := by
            by_contra hfresh
            exact hne (by simp [hfile, hfresh])
          have hmodified := h.ordered i j file older hij hfile holder
          have hj : j ∈ List.range' 1 config.maxArchives := by
            rw [List.mem_range'_1] at hi ⊢
            refine ⟨hi.1.trans hij.le, ?_⟩
            by_contra hhigh
            rw [h.archived j (by omega)] at holder
            cases holder
          have holderExpired : older.isExpired config now = true :=
            decide_eq_true ((of_decide_eq_true hexpired).trans_le (Nat.sub_le_sub_left hmodified now))
          rw [if_pos hj, Option.filter_some, holderExpired]
          rfl
    · exact absurd rfl hne

lemma logLines_rename {index : ℕ} {file : LogFile} (hfile : files index = some file)
    (hempty : files (index + 1) = none) {count : ℕ} (hcount : index + 2 ≤ count) :
    logLines (Function.update (Function.update files index none) (index + 1) (some file)) count =
      logLines files count := by
  induction count, hcount using Nat.le_induction with
  | base =>
    have hbelow : logLines (Function.update (Function.update files index none) (index + 1) (some file)) index =
        logLines files index := by
      refine logLines_congr fun i hi => ?_
      rw [Function.update_of_ne (by omega), Function.update_of_ne (by omega)]
    rw [logLines, logLines, hbelow, logLines_succ_of_eq_none hempty, logLines, linesAt, linesAt, linesAt,
      Function.update_self, Function.update_of_ne (Nat.lt_succ_self index).ne, Function.update_self, hfile]
    rfl
  | succ count hcount ih =>
    rw [logLines, logLines, ih, linesAt, linesAt, Function.update_of_ne (by omega), Function.update_of_ne (by omega)]

lemma LogInv.rename (h : LogInv config accepted clock files) {index : ℕ} (hempty : files (index + 1) = none)
    (hindex : index < config.maxArchives) :
    LogInv config accepted clock ((RotateStep.rename index (index + 1)).run files) ∧
      (RotateStep.rename index (index + 1)).run files index = none := by
  cases hfile : files index with
  | none =>
    rw [RotateStep.run, hfile]
    exact ⟨h, hfile⟩
  | some file =>
    rw [RotateStep.run, hfile]
    dsimp only
    generalize hnext : Function.update (Function.update files index none) (index + 1) (some file) = files'
    have hgone : files' index = none := by
      rw [← hnext, Function.update_of_ne (Nat.lt_succ_self index).ne, Function.update_self]
    -- Where a file stood before the rename.
    have hold : ∀ i moved, files' i = some moved → ∃ k, files k = some moved ∧
        (k = index ∧ i = index + 1 ∨ k = i ∧ i ≠ index ∧ i ≠ index + 1) := by
      intro i moved hi
      by_cases hto : i = index + 1
      · subst hto
        rw [← hnext, Function.update_self] at hi
        exact ⟨index, hfile.trans hi, Or.inl ⟨rfl, rfl⟩⟩
      · have hfrom : i ≠ index := by
          rintro rfl
          rw [hgone] at hi
          cases hi
        rw [← hnext, Function.update_of_ne hto, Function.update_of_ne hfrom] at hi
        exact ⟨i, hi, Or.inr ⟨rfl, hfrom, hto⟩⟩
    refine ⟨⟨?_, ?_, ?_, ?_, ?_⟩, hgone⟩
    · rw [← hnext, logLines_rename hfile hempty (Nat.succ_le_succ hindex)]
      exact h.suffix
    · intro i j newer older hij hi hj
      obtain ⟨k, hk, hik⟩ := hold i newer hi
      obtain ⟨l, hl, hjl⟩ := hold j older hj
      exact h.ordered k l newer older (by omega) hk hl
    · intro i moved hi
      obtain ⟨k, hk, -⟩ := hold i moved hi
      exact h.past k moved hk
    · intro i moved hi
      obtain ⟨k, hk, -⟩ := hold i moved hi
      exact h.bounded k moved hk
    · intro i hi
      rw [← hnext, Function.update_of_ne (by omega), Function.update_of_ne (by omega)]
      exact h.archived i hi

lemma LogInv.renames {top : ℕ} (h : LogInv config accepted clock files) (hempty : files top = none)
    (htop : top ≤ config.maxArchives) (done : ℕ) :
    LogInv config accepted clock (((renameSteps top).take done).foldl RotateStep.run files) ∧
      (top ≤ done → ((renameSteps top).take done).foldl RotateStep.run files 0 = none) := by
  induction top generalizing files done with
  | zero => exact ⟨by simpa [renameSteps] using h, fun _ => by simpa [renameSteps] using hempty⟩
  | succ top ih =>
    cases done with
    | zero => exact ⟨h, fun hdone => absurd hdone (Nat.not_succ_le_zero top)⟩
    | succ done =>
      obtain ⟨hnext, hgone⟩ := h.rename hempty htop
      obtain ⟨hrest, hcurrent⟩ := ih hnext hgone (Nat.le_of_succ_le htop) done
      rw [renameSteps, List.range_succ, List.reverse_concat, List.map_cons, List.take_succ_cons, List.foldl_cons]
      exact ⟨hrest, fun hdone => hcurrent (Nat.le_of_succ_le_succ hdone)⟩

lemma LogInv.rotate (h : LogInv config accepted clock files) (done : ℕ) :
    LogInv config accepted clock (((rotateSteps config.maxArchives).take done).foldl RotateStep.run files) ∧
      ((rotateSteps config.maxArchives).length ≤ done →
        ((rotateSteps config.maxArchives).take done).foldl RotateStep.run files 0 = none) := by
  have hremoved : LogInv config accepted clock (Function.update files config.maxArchives none) := by
    refine h.removed (fun i => ?_) fun i j hij hne => ?_
    · rw [Function.update_apply]
      split_ifs
      · exact Or.inr rfl
      · exact Or.inl rfl
    · have hi : i = config.maxArchives := by
        by_contra hi
        exact hne (Function.update_of_ne hi _ _)
      rw [Function.update_of_ne (by omega)]
      exact h.archived j (by omega)
  rw [rotateSteps, if_neg (Nat.one_le_iff_ne_zero.mp config.maxArchives_range.1)]
  cases done with
  | zero => exact ⟨h, fun hdone => absurd hdone (Nat.not_succ_le_zero _)⟩
  | succ done =>
    obtain ⟨hrest, hcurrent⟩ := hremoved.renames (Function.update_self _ _ _) le_rfl done
    rw [List.take_succ_cons, List.foldl_cons]
    refine ⟨hrest, fun hdone => hcurrent ?_⟩
    simpa [renameSteps] using hdone

/-! ## Records -/

def ActivityWorld.Kept (config : TelemetryConfig) (world : ActivityWorld) : Prop :=
  LogInv config world.accepted world.clock world.files

lemma logLines_update_zero (line : Text) (now count : ℕ) :
    logLines (Function.update files 0 (some ⟨((files 0).getD ⟨[], 0⟩).lines ++ [line], now⟩)) (count + 1) =
      logLines files (count + 1) ++ [line] := by
  induction count with
  | zero =>
    simp only [logLines, linesAt, Function.update_self, Option.map_some, Option.getD_some, List.append_nil]
    cases files 0 <;> rfl
  | succ count ih =>
    rw [logLines, ih, logLines.eq_2 files (count + 1), linesAt, linesAt,
      Function.update_of_ne (Nat.succ_ne_zero count), List.append_assoc]

lemma LogInv.append (h : LogInv config accepted clock files) {line : Text} {now : ℕ} (hnow : clock ≤ now)
    (hfits : ((files 0).getD ⟨[], 0⟩).bytes + (utf8Len line + 1) ≤ config.retentionBytes) :
    LogInv config (accepted ++ [line]) now
      (Function.update files 0 (some ⟨((files 0).getD ⟨[], 0⟩).lines ++ [line], now⟩)) := by
  have hat : ∀ i file, Function.update files 0 (some ⟨((files 0).getD ⟨[], 0⟩).lines ++ [line], now⟩) i =
      some file → i = 0 ∧ ⟨((files 0).getD ⟨[], 0⟩).lines ++ [line], now⟩ = file ∨ i ≠ 0 ∧ files i = some file := by
    intro i file hi
    rw [Function.update_apply] at hi
    split_ifs at hi with hzero
    · exact Or.inl ⟨hzero, Option.some.inj hi⟩
    · exact Or.inr ⟨hzero, hi⟩
  refine ⟨?_, ?_, ?_, ?_, ?_⟩
  · rw [logLines_update_zero]
    obtain ⟨lost, hlost⟩ := h.suffix
    exact ⟨lost, by rw [← List.append_assoc, hlost]⟩
  · intro i j file older hij hi hj
    rcases hat j older hj with ⟨hzero, -⟩ | ⟨-, holder⟩
    · omega
    · rcases hat i file hi with ⟨-, rfl⟩ | ⟨-, hfile⟩
      · exact (h.past j older holder).trans hnow
      · exact h.ordered i j file older hij hfile holder
  · intro i file hi
    rcases hat i file hi with ⟨-, rfl⟩ | ⟨-, hfile⟩
    · exact le_rfl
    · exact (h.past i file hfile).trans hnow
  · intro i file hi
    rcases hat i file hi with ⟨-, rfl⟩ | ⟨-, hfile⟩
    · simpa [LogFile.bytes] using hfits
    · exact h.bounded i file hfile
  · intro i hi
    rw [Function.update_of_ne (by omega)]
    exact h.archived i hi

variable {sha : ByteArray → String} {salt : ℕ → ByteArray}

lemma kept_appendLine {world : ActivityWorld}
    (h : LogInv config world.accepted world.clock world.files) (untilWrite : ℕ) {line : Text}
    (hfits : ((world.files 0).getD ⟨[], 0⟩).bytes + (utf8Len line + 1) ≤ u64Max →
      ((world.files 0).getD ⟨[], 0⟩).bytes + (utf8Len line + 1) ≤ config.retentionBytes) :
    (appendLine world untilWrite line).1.Kept config := by
  unfold Telemetry.appendLine
  dsimp only
  split_ifs with hlarge
  · exact h
  · exact h.append (Nat.le_add_right _ _) (hfits (Nat.le_of_not_lt hlarge))

lemma ActivityWorld.Kept.record {world : ActivityWorld} (h : world.Kept config) (call : RecordCall) :
    (record sha salt config world call).1.Kept config := by
  unfold Telemetry.record
  split_ifs
  case neg => exact h
  have hkept := ((h.removeExpiredArchives (world.clock + call.untilExpiry)).later call.untilExpiry).later
    call.untilStamp
  unfold recordLocked
  dsimp only
  generalize removeExpiredArchives config (world.clock + call.untilExpiry) world.files = files at hkept ⊢
  generalize eventLine _ call _ _ = line
  split_ifs with hlong hrotate
  · exact hkept
  · cases call.crash with
    | some done => exact (hkept.rotate done).1
    | none =>
      obtain ⟨hrotated, hcurrent⟩ := hkept.rotate (rotateSteps config.maxArchives).length
      rw [List.take_length] at hrotated hcurrent
      refine kept_appendLine hrotated _ fun _ => ?_
      dsimp only
      rw [hcurrent le_rfl, Option.getD_none, LogFile.bytes, List.map_nil, List.sum_nil, Nat.zero_add]
      exact (Nat.lt_of_not_le hlong).trans_le config.retentionBytes_range.1
  · refine kept_appendLine hkept _ fun hsmall => ?_
    have hline : utf8Len line + 1 ≤ config.retentionBytes :=
      (Nat.lt_of_not_le hlong).trans_le config.retentionBytes_range.1
    have hsize : ((files 0).map LogFile.bytes).getD 0 = ((files 0).getD ⟨[], 0⟩).bytes := by
      cases files 0 <;> rfl
    dsimp only at hsmall ⊢
    rw [hsize, saturatingAdd, min_eq_left hsmall] at hrotate
    omega

/-- The archives from the highest number down to 1 and the current file hold an end of the accepted
lines, in their order, and no file is larger than `retention_bytes`. -/
theorem activity_log_keeps_suffix (sha : ByteArray → String) (salt : ℕ → ByteArray)
    (config : TelemetryConfig) (calls : List RecordCall) :
    let world := recordAll sha salt config calls
    logLines world.files (config.maxArchives + 1) <:+ world.accepted ∧
      (∀ i file, world.files i = some file → file.bytes ≤ config.retentionBytes) ∧
      ∀ i, config.maxArchives < i → world.files i = none := by
  have hstart : ActivityWorld.empty.Kept config := by
    have hnone : ∀ count, logLines (fun _ => none) count = [] := by
      intro count
      induction count with
      | zero => rfl
      | succ count ih => rw [logLines_succ_of_eq_none rfl, ih]
    exact ⟨by rw [ActivityWorld.empty, hnone], nofun, nofun, nofun, fun _ _ => rfl⟩
  have hkept : (recordAll sha salt config calls).Kept config :=
    Runs.invariant (fun _ call hworld => hworld.record call) hstart
  exact ⟨hkept.suffix, hkept.bounded, hkept.archived⟩

end AgzRustMcp.Telemetry
