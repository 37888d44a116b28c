import AgzRustMcp.Foundation.Runs
import AgzRustMcp.Diagnostics.Stream

/-!
# What a stream keeps

`CargoStream::retain` keeps diagnostics within two budgets, and gives warnings up when an error
needs their room.  `retention_iff` says for which diagnostics none is given up in vain.
-/

namespace AgzRustMcp.Records

open Runs
open Utf8Text (Text)

def errorsOf (diagnostics : List Diagnostic) : List Diagnostic := diagnostics.filter (·.level = .error)

/-- The length of some diagnostics as JSON. -/
def totalSize (diagnostics : List Diagnostic) : ℕ := (diagnostics.map serializedSize).sum

namespace CargoStream

/-- The budgets hold, with the sizes and keys of what is kept. -/
structure Accounted (serde : SerdeJson) (stream : CargoStream) : Prop where
  length_le : stream.diagnostics.length ≤ stream.maxDiagnostics
  bytes_eq : totalSize stream.diagnostics = stream.evidenceBytes
  bytes_le : stream.evidenceBytes ≤ stream.maxEvidenceBytes
  keys_nodup : (stream.diagnostics.map (unitKey serde)).Nodup
  keys_eq : (stream.diagnostics.map (unitKey serde)).toFinset = stream.keys

/-- Every record was kept, was a duplicate or was left out. -/
def Counted (stream : CargoStream) : Prop :=
  stream.stats.diagnosticRecords = stream.diagnostics.length + stream.stats.duplicates + stream.stats.omittedRecords

/-- An error that is left out costs no diagnostic that was kept before. -/
def Harmless (serde : SerdeJson) (stream : CargoStream) (diagnostic : Diagnostic) : Prop :=
  diagnostic.level = .error → unitKey serde diagnostic ∉ (stream.retain serde diagnostic).keys →
    ∀ kept ∈ stream.diagnostics, kept ∈ (stream.retain serde diagnostic).diagnostics

structure Retention (serde : SerdeJson) (start : CargoStream) (diagnostics : List Diagnostic) : Prop where
  accounted : Throughout (retain serde) (Accounted serde) start diagnostics
  counted : Throughout (retain serde) Counted start diagnostics
  harmless : Along (retain serde) (Harmless serde) start diagnostics

/-- A diagnostic that could be kept alone. -/
def Keepable (stream : CargoStream) (diagnostic : Diagnostic) : Prop :=
  serializedSize diagnostic ≤ stream.maxEvidenceBytes ∧ stream.maxDiagnostics ≠ 0

/-- A new error does not fit beside the kept ones, while a warning is kept. -/
structure Crowded (serde : SerdeJson) (stream : CargoStream) (diagnostic : Diagnostic) : Prop where
  error : diagnostic.level = .error
  new : unitKey serde diagnostic ∉ stream.keys
  size_le : serializedSize diagnostic ≤ stream.maxEvidenceBytes
  warning : ∃ kept ∈ stream.diagnostics, kept.level = .warning
  errors : stream.maxDiagnostics ≤ (errorsOf stream.diagnostics).length ∨
    stream.maxEvidenceBytes < totalSize (errorsOf stream.diagnostics) + serializedSize diagnostic

variable {serde : SerdeJson} {stream : CargoStream} {diagnostic removed : Diagnostic}
  {diagnostics front back : List Diagnostic} {turns : ℕ}

/-! ## Making room -/

lemma lastWarning_cases (diagnostics : List Diagnostic) :
    (lastWarning diagnostics = none ∧ ∀ kept ∈ diagnostics, kept.level = .error) ∨
      ∃ front removed back, diagnostics = front ++ removed :: back ∧ removed.level = .warning ∧
        lastWarning diagnostics = some front.length := by
  unfold lastWarning
  cases hindex : diagnostics.reverse.findIdx? (·.level = .warning) with
  | none =>
    refine Or.inl ⟨rfl, fun kept hkept => ?_⟩
    have hnot := List.findIdx?_eq_none_iff.mp hindex kept (List.mem_reverse.mpr hkept)
    cases hlevel : kept.level with
    | error => rfl
    | warning => simp [hlevel] at hnot
  | some index =>
    obtain ⟨hlt, hwarning, -⟩ := List.findIdx?_eq_some_iff_getElem.mp hindex
    have hlen : index < diagnostics.length := by simpa using hlt
    have hpos : diagnostics.length - 1 - index < diagnostics.length := by omega
    refine Or.inr ⟨diagnostics.take (diagnostics.length - 1 - index),
      diagnostics[diagnostics.length - 1 - index], diagnostics.drop (diagnostics.length - 1 - index + 1),
      ?_, ?_, ?_⟩
    · rw [← List.drop_eq_getElem_cons hpos, List.take_append_drop]
    · rw [List.getElem_reverse] at hwarning
      exact of_decide_eq_true hwarning
    · rw [List.length_take, Nat.min_eq_left hpos.le]
      rfl

lemma makeRoom_of_fits (h : stream.full (serializedSize diagnostic) = false) :
    makeRoom serde diagnostic (turns + 1) stream = (stream, true) := by
  rw [makeRoom, h, if_neg Bool.false_ne_true]

lemma makeRoom_of_stuck (h : stream.full (serializedSize diagnostic) = true)
    (hstuck : diagnostic.level = .error → ∀ kept ∈ stream.diagnostics, kept.level = .error) :
    makeRoom serde diagnostic (turns + 1) stream = (stream.leaveOut, false) := by
  rw [makeRoom, if_pos h]
  split_ifs with herror
  · rcases lastWarning_cases stream.diagnostics with ⟨hnone, -⟩ | ⟨front, removed, back, hsplit, hwarning, -⟩
    · rw [hnone]
    · have := hstuck herror removed (by rw [hsplit]; simp)
      rw [hwarning] at this
      exact absurd this (by decide)
  · rfl

lemma makeRoom_of_warning (h : stream.full (serializedSize diagnostic) = true)
    (herror : diagnostic.level = .error) (hsplit : stream.diagnostics = front ++ removed :: back)
    (hlast : lastWarning stream.diagnostics = some front.length) : makeRoom serde diagnostic (turns + 1) stream =
      makeRoom serde diagnostic turns (stream.evict serde front.length removed) := by
  have hget : stream.diagnostics[front.length]? = some removed := by
    rw [hsplit, List.getElem?_append_right le_rfl, Nat.sub_self, List.getElem?_cons_zero]
  rw [makeRoom, if_pos h, if_pos herror, hlast]
  dsimp only
  rw [hget]

/-- What the loop leaves. -/
structure MadeRoom (serde : SerdeJson) (diagnostic : Diagnostic) (before after : CargoStream)
    (fits : Bool) : Prop where
  accounted : Accounted serde after
  maxDiagnostics_eq : after.maxDiagnostics = before.maxDiagnostics
  maxEvidenceBytes_eq : after.maxEvidenceBytes = before.maxEvidenceBytes
  sublist : after.diagnostics.Sublist before.diagnostics
  errors_eq : errorsOf after.diagnostics = errorsOf before.diagnostics
  records_eq : after.stats.diagnosticRecords = before.stats.diagnosticRecords
  duplicates_eq : after.stats.duplicates = before.stats.duplicates
  omitted : ∀ omitted, before.stats.omittedRecords = min omitted u64Max →
    ∃ omitted', after.stats.omittedRecords = min omitted' u64Max ∧ after.diagnostics.length + omitted' =
        before.diagnostics.length + omitted + if fits then 0 else 1
  full_eq : after.full (serializedSize diagnostic) = !fits
  stuck : fits = false → diagnostic.level = .error → ∀ kept ∈ after.diagnostics, kept.level = .error

lemma saturatingAdd_min (a b : ℕ) : saturatingAdd (min a u64Max) b = min (a + b) u64Max := by
  unfold saturatingAdd
  omega

lemma Accounted.evict (h : Accounted serde stream) (hsplit : stream.diagnostics = front ++ removed :: back) :
    Accounted serde (stream.evict serde front.length removed) ∧
      (stream.evict serde front.length removed).diagnostics = front ++ back := by
  have hdiagnostics : (stream.evict serde front.length removed).diagnostics = front ++ back := by
    show stream.diagnostics.eraseIdx front.length = front ++ back
    rw [hsplit, List.eraseIdx_append_of_length_le le_rfl, Nat.sub_self, List.eraseIdx_cons_zero]
  have hnodup := h.keys_nodup
  rw [hsplit, List.map_append, List.map_cons, List.nodup_middle, List.nodup_cons] at hnodup
  refine ⟨⟨?_, ?_, ?_, ?_, ?_⟩, hdiagnostics⟩
  · have := h.length_le
    rw [hsplit] at this
    rw [hdiagnostics]
    simp only [List.length_append, List.length_cons] at this ⊢
    exact le_trans (by omega) this
  · have := h.bytes_eq
    rw [hsplit] at this
    rw [hdiagnostics]
    show _ = stream.evidenceBytes - serializedSize removed
    simp only [totalSize, List.map_append, List.map_cons, List.sum_append, List.sum_cons] at this ⊢
    omega
  · exact le_trans (Nat.sub_le _ _) h.bytes_le
  · rw [hdiagnostics, List.map_append]
    exact hnodup.2
  · rw [hdiagnostics]
    show _ = stream.keys.erase (unitKey serde removed)
    rw [← h.keys_eq, hsplit, List.map_append, List.map_append, List.map_cons, List.toFinset_append,
      List.toFinset_append, List.toFinset_cons, Finset.union_insert, Finset.erase_insert,
      ← List.toFinset_append]
    rw [← List.toFinset_append, List.mem_toFinset]
    exact hnodup.1

lemma madeRoom_makeRoom (h : Accounted serde stream) (hturns : stream.diagnostics.length < turns) :
    MadeRoom serde diagnostic stream (makeRoom serde diagnostic turns stream).1
      (makeRoom serde diagnostic turns stream).2 := by
  induction turns generalizing stream with
  | zero => exact absurd hturns (Nat.not_lt_zero _)
  | succ turns ih =>
    cases hfull : stream.full (serializedSize diagnostic) with
    | false =>
      rw [makeRoom_of_fits hfull]
      exact ⟨h, rfl, rfl, List.Sublist.refl _, rfl, rfl, rfl, fun omitted homitted => ⟨omitted, homitted, rfl⟩,
        hfull, nofun⟩
    | true =>
      have hstuck : (diagnostic.level = .error → ∀ kept ∈ stream.diagnostics, kept.level = .error) →
          MadeRoom serde diagnostic stream (makeRoom serde diagnostic (turns + 1) stream).1
            (makeRoom serde diagnostic (turns + 1) stream).2 := by
        intro hstuck
        rw [makeRoom_of_stuck hfull hstuck]
        refine ⟨⟨h.length_le, h.bytes_eq, h.bytes_le, h.keys_nodup, h.keys_eq⟩, rfl, rfl,
          List.Sublist.refl _, rfl, rfl, rfl, fun omitted homitted => ⟨omitted + 1, ?_, ?_⟩, hfull,
          fun _ => hstuck⟩
        · show saturatingAdd stream.stats.omittedRecords 1 = _
          rw [homitted, saturatingAdd_min]
        · show stream.diagnostics.length + (omitted + 1) = _
          simp only [Bool.false_eq_true, if_false]
          omega
      by_cases herror : diagnostic.level = .error
      · rcases lastWarning_cases stream.diagnostics with
          ⟨-, hnone⟩ | ⟨front, removed, back, hsplit, hwarning, hlast⟩
        · exact hstuck fun _ => hnone
        · obtain ⟨haccounted, hdiagnostics⟩ := h.evict hsplit
          have hlength : stream.diagnostics.length = (front ++ back).length + 1 := by
            rw [hsplit]
            simp only [List.length_append, List.length_cons]
            omega
          rw [makeRoom_of_warning hfull herror hsplit hlast]
          have hroom := ih haccounted (by rw [hdiagnostics]; omega)
          refine ⟨hroom.accounted, hroom.maxDiagnostics_eq, hroom.maxEvidenceBytes_eq, ?_, ?_,
            hroom.records_eq, hroom.duplicates_eq, fun omitted homitted => ?_, hroom.full_eq, hroom.stuck⟩
          · refine hroom.sublist.trans ?_
            rw [hdiagnostics, hsplit]
            exact (List.Sublist.refl front).append (List.sublist_cons_self removed back)
          · rw [hroom.errors_eq, hdiagnostics, hsplit]
            simp [errorsOf, hwarning]
          · obtain ⟨omitted', homitted', htotal⟩ := hroom.omitted (omitted + 1) (by
              show saturatingAdd stream.stats.omittedRecords 1 = _
              rw [homitted, saturatingAdd_min])
            refine ⟨omitted', homitted', ?_⟩
            rw [htotal, hdiagnostics, hlength]
            omega
      · exact hstuck fun hlevel => absurd hlevel herror

/-! ## One record -/

def counting (stream : CargoStream) : CargoStream :=
  { stream with
    stats := { stream.stats with diagnosticRecords := saturatingAdd stream.stats.diagnosticRecords 1 } }

/-- What becomes of a record: a duplicate, kept, or left out for two reasons. -/
inductive Retained (serde : SerdeJson) (stream : CargoStream) (diagnostic : Diagnostic) :
    CargoStream → Prop
  | duplicate (hkey : unitKey serde diagnostic ∈ stream.keys) :
    Retained serde stream diagnostic
      { stream.counting with
        stats := { stream.counting.stats with
          duplicates := saturatingAdd stream.stats.duplicates 1 } }
  | tooLarge (hkey : unitKey serde diagnostic ∉ stream.keys) (hnot : ¬ stream.Keepable diagnostic) :
    Retained serde stream diagnostic stream.counting.leaveOut
  | kept (hkey : unitKey serde diagnostic ∉ stream.keys) (hkeepable : stream.Keepable diagnostic)
    (after : CargoStream) (hroom : MadeRoom serde diagnostic stream.counting after true) :
    Retained serde stream diagnostic (after.keep serde diagnostic)
  | noRoom (hkey : unitKey serde diagnostic ∉ stream.keys) (hkeepable : stream.Keepable diagnostic)
    (after : CargoStream) (hroom : MadeRoom serde diagnostic stream.counting after false) :
    Retained serde stream diagnostic after

lemma Accounted.counting (h : Accounted serde stream) : Accounted serde stream.counting :=
  ⟨h.length_le, h.bytes_eq, h.bytes_le, h.keys_nodup, h.keys_eq⟩

def keepFitting (serde : SerdeJson) (diagnostic : Diagnostic) : CargoStream × Bool → CargoStream
  | (stream, true) => stream.keep serde diagnostic
  | (stream, false) => stream

lemma Accounted.retained (h : Accounted serde stream) (diagnostic : Diagnostic) :
    Retained serde stream diagnostic (stream.retain serde diagnostic) := by
  by_cases hkey : unitKey serde diagnostic ∈ stream.keys
  · have heq : stream.retain serde diagnostic = { stream.counting with
        stats := { stream.counting.stats with
          duplicates := saturatingAdd stream.stats.duplicates 1 } } := by
      rw [retain]
      exact if_pos hkey
    rw [heq]
    exact .duplicate hkey
  by_cases hkeepable : stream.Keepable diagnostic
  · have hfits : ¬ (stream.maxEvidenceBytes < serializedSize diagnostic ∨ stream.maxDiagnostics = 0) :=
      fun hor => hor.elim (fun hlt => absurd hkeepable.1 (Nat.not_le.mpr hlt)) hkeepable.2
    have hroom : MadeRoom serde diagnostic stream.counting _ _ := madeRoom_makeRoom h.counting
      (Nat.lt_succ_self stream.counting.diagnostics.length)
    have heq : stream.retain serde diagnostic =
        keepFitting serde diagnostic
          (makeRoom serde diagnostic (stream.counting.diagnostics.length + 1) stream.counting) := by
      rw [retain]
      unfold keepFitting
      exact (if_neg hkey).trans (if_neg hfits)
    rw [heq]
    generalize makeRoom serde diagnostic (stream.counting.diagnostics.length + 1)
      stream.counting = result at hroom ⊢
    obtain ⟨after, fits⟩ := result
    cases fits with
    | true => exact .kept hkey hkeepable after hroom
    | false => exact .noRoom hkey hkeepable after hroom
  · have hlarge : stream.maxEvidenceBytes < serializedSize diagnostic ∨ stream.maxDiagnostics = 0 := by
      by_contra hnot
      rw [not_or, Nat.not_lt] at hnot
      exact hkeepable hnot
    have heq : stream.retain serde diagnostic = stream.counting.leaveOut := by
      rw [retain]
      exact (if_neg hkey).trans (if_pos hlarge)
    rw [heq]
    exact .tooLarge hkey hkeepable

lemma MadeRoom.not_full {before after : CargoStream} (h : MadeRoom serde diagnostic before after true) :
    after.diagnostics.length < after.maxDiagnostics ∧
      after.evidenceBytes + serializedSize diagnostic ≤ after.maxEvidenceBytes := by
  have hfull := h.full_eq
  simp only [full, Bool.not_true, Bool.or_eq_false_iff, decide_eq_false_iff_not, not_le, not_lt] at hfull
  exact hfull

lemma MadeRoom.full {before after : CargoStream} (h : MadeRoom serde diagnostic before after false) :
    after.maxDiagnostics ≤ after.diagnostics.length ∨
      after.maxEvidenceBytes < after.evidenceBytes + serializedSize diagnostic := by
  have hfull := h.full_eq
  simp only [CargoStream.full, Bool.not_false, Bool.or_eq_true, decide_eq_true_eq] at hfull
  exact hfull

lemma MadeRoom.keys_subset {before after : CargoStream} {fits : Bool}
    (h : MadeRoom serde diagnostic before after fits) (hbefore : Accounted serde before) :
    after.keys ⊆ before.keys := by
  rw [← h.accounted.keys_eq, ← hbefore.keys_eq]
  intro key hkey
  rw [List.mem_toFinset] at hkey ⊢
  exact (h.sublist.map _).subset hkey

lemma Accounted.retain (h : Accounted serde stream) (diagnostic : Diagnostic) :
    Accounted serde (stream.retain serde diagnostic) := by
  have hretained := h.retained diagnostic
  generalize stream.retain serde diagnostic = result at hretained ⊢
  cases hretained with
  | duplicate hkey => exact ⟨h.length_le, h.bytes_eq, h.bytes_le, h.keys_nodup, h.keys_eq⟩
  | tooLarge hkey hnot => exact ⟨h.length_le, h.bytes_eq, h.bytes_le, h.keys_nodup, h.keys_eq⟩
  | kept hkey hkeepable after hroom =>
    have hafter := hroom.accounted
    have hnew : unitKey serde diagnostic ∉ after.diagnostics.map (unitKey serde) := by
      rw [← List.mem_toFinset, hafter.keys_eq]
      exact fun hmem => hkey (hroom.keys_subset h.counting hmem)
    refine ⟨?_, ?_, hroom.not_full.2, ?_, ?_⟩
    · show (after.diagnostics ++ [diagnostic]).length ≤ after.maxDiagnostics
      rw [List.length_append, List.length_singleton]
      exact hroom.not_full.1
    · show totalSize (after.diagnostics ++ [diagnostic]) = after.evidenceBytes + serializedSize diagnostic
      rw [← hafter.bytes_eq]
      simp [totalSize]
    · show ((after.diagnostics ++ [diagnostic]).map (unitKey serde)).Nodup
      rw [List.map_append, List.map_singleton, ← List.concat_eq_append]
      exact hafter.keys_nodup.concat hnew
    · show ((after.diagnostics ++ [diagnostic]).map (unitKey serde)).toFinset =
        insert (unitKey serde diagnostic) after.keys
      rw [List.map_append, List.toFinset_append, hafter.keys_eq, Finset.union_comm]
      rfl
  | noRoom hkey hkeepable after hroom => exact hroom.accounted

@[simp]
lemma maxDiagnostics_retain (h : Accounted serde stream) (diagnostic : Diagnostic) :
    (stream.retain serde diagnostic).maxDiagnostics = stream.maxDiagnostics := by
  have hretained := h.retained diagnostic
  generalize stream.retain serde diagnostic = result at hretained ⊢
  cases hretained with
  | duplicate | tooLarge => rfl
  | kept _ _ after hroom => exact hroom.maxDiagnostics_eq
  | noRoom _ _ after hroom => exact hroom.maxDiagnostics_eq

@[simp]
lemma maxEvidenceBytes_retain (h : Accounted serde stream) (diagnostic : Diagnostic) :
    (stream.retain serde diagnostic).maxEvidenceBytes = stream.maxEvidenceBytes := by
  have hretained := h.retained diagnostic
  generalize stream.retain serde diagnostic = result at hretained ⊢
  cases hretained with
  | duplicate | tooLarge => rfl
  | kept _ _ after hroom => exact hroom.maxEvidenceBytes_eq
  | noRoom _ _ after hroom => exact hroom.maxEvidenceBytes_eq

lemma mem_errorsOf {kept : Diagnostic} : kept ∈ errorsOf diagnostics ↔ kept ∈ diagnostics ∧ kept.level = .error := by
  simp [errorsOf]

lemma errorsOf_sublist (diagnostics : List Diagnostic) : (errorsOf diagnostics).Sublist diagnostics :=
  List.filter_sublist

lemma totalSize_le {fewer more : List Diagnostic} (h : fewer.Sublist more) : totalSize fewer ≤ totalSize more :=
  List.Sublist.sum_le_sum (h.map _) fun _ _ => Nat.zero_le _

lemma MadeRoom.diagnostics_eq {before after : CargoStream}
    (h : MadeRoom serde diagnostic before after false) (herror : diagnostic.level = .error) :
    after.diagnostics = errorsOf before.diagnostics := by
  rw [← h.errors_eq, errorsOf, List.filter_eq_self.mpr]
  exact fun kept hkept => decide_eq_true (h.stuck rfl herror kept hkept)

lemma harmless_iff (h : Accounted serde stream) :
    Harmless serde stream diagnostic ↔ ¬ Crowded serde stream diagnostic := by
  constructor
  · intro hharmless hcrowded
    obtain ⟨kept, hkept, hwarning⟩ := hcrowded.warning
    have hkeepable : stream.Keepable diagnostic := by
      have := h.length_le
      have := List.length_pos_of_mem hkept
      exact ⟨hcrowded.size_le, by omega⟩
    generalize hresult : stream.retain serde diagnostic = result at *
    have hretained := h.retained diagnostic
    rw [hresult] at hretained
    unfold Harmless at hharmless
    rw [hresult] at hharmless
    cases hretained with
    | duplicate hkey => exact hcrowded.new hkey
    | tooLarge hkey hnot => exact hnot hkeepable
    | kept hkey _ after hroom =>
      -- The errors that are kept are among what the loop leaves, so they leave room.
      obtain ⟨hlength, hbytes⟩ := hroom.not_full
      have hsub : (errorsOf stream.diagnostics).Sublist after.diagnostics := by
        have := errorsOf_sublist after.diagnostics
        rwa [hroom.errors_eq] at this
      have hle := hsub.length_le
      have hsize := totalSize_le hsub
      rw [hroom.accounted.bytes_eq] at hsize
      rw [hroom.maxDiagnostics_eq] at hlength
      rw [hroom.maxEvidenceBytes_eq] at hbytes
      rcases hcrowded.errors with hmany | hlarge
      · exact absurd (lt_of_le_of_lt (hmany.trans hle) hlength) (lt_irrefl _)
      · exact absurd (lt_of_lt_of_le (lt_of_lt_of_le hlarge (Nat.add_le_add_right hsize _)) hbytes)
          (lt_irrefl _)
    | noRoom hkey _ after hroom =>
      have hlost := hharmless hcrowded.error
        (fun hmem => hkey (hroom.keys_subset h.counting hmem)) kept hkept
      have := hroom.stuck rfl hcrowded.error kept hlost
      rw [hwarning] at this
      exact absurd this (by decide)
  · intro hnot herror hkey kept hkept
    generalize hresult : stream.retain serde diagnostic = result at *
    have hretained := h.retained diagnostic
    rw [hresult] at hretained
    cases hretained with
    | duplicate | tooLarge => exact hkept
    | kept _ _ after hroom => exact absurd (Finset.mem_insert_self _ _) hkey
    | noRoom hnew hkeepable _ hroom =>
      by_contra hlost
      have hdiagnostics : result.diagnostics = errorsOf stream.diagnostics := hroom.diagnostics_eq herror
      refine hnot ⟨herror, hnew, hkeepable.1, ⟨kept, hkept, ?_⟩, ?_⟩
      · cases hlevel : kept.level with
        | error => exact absurd (hdiagnostics ▸ mem_errorsOf.mpr ⟨hkept, hlevel⟩) hlost
        | warning => rfl
      · have hfull := hroom.full
        rw [hroom.maxDiagnostics_eq, hroom.maxEvidenceBytes_eq, ← hroom.accounted.bytes_eq, hdiagnostics] at hfull
        exact hfull

/-- How many records, duplicates and omissions there were, up to the bound. -/
structure Counts (stream : CargoStream) (records duplicates omitted : ℕ) : Prop where
  records_eq : stream.stats.diagnosticRecords = min records u64Max
  duplicates_eq : stream.stats.duplicates = min duplicates u64Max
  omitted_eq : stream.stats.omittedRecords = min omitted u64Max
  total : records = stream.diagnostics.length + duplicates + omitted

variable {records duplicates omitted : ℕ}

lemma Counts.counted (h : Counts stream records duplicates omitted) (hle : records ≤ u64Max) : Counted stream := by
  have htotal := h.total
  unfold Counted
  rw [h.records_eq, h.duplicates_eq, h.omitted_eq, Nat.min_eq_left hle, Nat.min_eq_left (by omega),
    Nat.min_eq_left (by omega)]
  exact htotal

lemma Counts.le_of_counted (h : Counts stream records duplicates omitted) (hcounted : Counted stream)
    (hkept : stream.diagnostics ≠ []) : records ≤ u64Max := by
  have htotal := h.total
  have hpos := List.length_pos_iff.mpr hkept
  unfold Counted at hcounted
  rw [h.records_eq, h.duplicates_eq, h.omitted_eq] at hcounted
  by_contra hlt
  omega

lemma Counts.retain (h : Counts stream records duplicates omitted) (haccounted : Accounted serde stream)
    (diagnostic : Diagnostic) : ∃ duplicates' omitted',
      Counts (stream.retain serde diagnostic) (records + 1) duplicates' omitted' := by
  have hrecords : saturatingAdd stream.stats.diagnosticRecords 1 = min (records + 1) u64Max := by
    rw [h.records_eq, saturatingAdd_min]
  have htotal := h.total
  have hretained := haccounted.retained diagnostic
  generalize stream.retain serde diagnostic = result at hretained ⊢
  cases hretained with
  | duplicate hkey =>
    refine ⟨duplicates + 1, omitted, hrecords, ?_, h.omitted_eq, ?_⟩
    · show saturatingAdd stream.stats.duplicates 1 = _
      rw [h.duplicates_eq, saturatingAdd_min]
    · show records + 1 = stream.diagnostics.length + (duplicates + 1) + omitted
      omega
  | tooLarge hkey hnot =>
    refine ⟨duplicates, omitted + 1, hrecords, h.duplicates_eq, ?_, ?_⟩
    · show saturatingAdd stream.stats.omittedRecords 1 = _
      rw [h.omitted_eq, saturatingAdd_min]
    · show records + 1 = stream.diagnostics.length + duplicates + (omitted + 1)
      omega
  | kept hkey hkeepable after hroom =>
    obtain ⟨omitted', homitted, hlength⟩ := hroom.omitted omitted h.omitted_eq
    refine ⟨duplicates, omitted', hroom.records_eq.trans hrecords,
      hroom.duplicates_eq.trans h.duplicates_eq, homitted, ?_⟩
    show records + 1 = (after.diagnostics ++ [diagnostic]).length + duplicates + omitted'
    rw [List.length_append, List.length_singleton]
    change after.diagnostics.length + omitted' = stream.diagnostics.length + omitted + 0 at hlength
    omega
  | noRoom hkey hkeepable after hroom =>
    obtain ⟨omitted', homitted, hlength⟩ := hroom.omitted omitted h.omitted_eq
    refine ⟨duplicates, omitted', hroom.records_eq.trans hrecords,
      hroom.duplicates_eq.trans h.duplicates_eq, homitted, ?_⟩
    change result.diagnostics.length + omitted' = stream.diagnostics.length + omitted + 1 at hlength
    omega

lemma retain_ne_nil (h : Accounted serde stream) (hsome : stream.diagnostics ≠ [] ∨ stream.Keepable diagnostic) :
    (stream.retain serde diagnostic).diagnostics ≠ [] := by
  have hretained := h.retained diagnostic
  generalize stream.retain serde diagnostic = result at hretained ⊢
  cases hretained with
  | duplicate hkey =>
    intro hnil
    rw [← h.keys_eq, show stream.diagnostics = [] from hnil] at hkey
    simp at hkey
  | tooLarge hkey hnot => exact hsome.resolve_right hnot
  | kept => exact List.append_ne_nil_of_right_ne_nil _ (List.cons_ne_nil _ _)
  | noRoom hkey hkeepable after hroom =>
    intro hnil
    have hbytes := hroom.accounted.bytes_eq
    have hfull := hroom.full
    rw [hnil] at hbytes hfull
    rw [← hbytes, hroom.maxDiagnostics_eq, hroom.maxEvidenceBytes_eq] at hfull
    rcases hfull with hzero | hlarge
    · exact hkeepable.2 (Nat.le_zero.mp hzero)
    · exact absurd hkeepable.1 (Nat.not_le.mpr (by simpa [totalSize, counting] using hlarge))

/-! ## Whole sequences -/

lemma accounted_new (serde : SerdeJson) (maxLine maxDiagnostics maxEvidenceBytes : ℕ) :
    Accounted serde (new maxLine maxDiagnostics maxEvidenceBytes) :=
  ⟨Nat.zero_le _, rfl, Nat.zero_le _, List.nodup_nil, rfl⟩

lemma counts_new (maxLine maxDiagnostics maxEvidenceBytes : ℕ) :
    Counts (new maxLine maxDiagnostics maxEvidenceBytes) 0 0 0 :=
  ⟨rfl, rfl, rfl, rfl⟩

lemma Keepable.retain (h : Accounted serde stream) (record : Diagnostic) :
    (stream.retain serde record).Keepable diagnostic ↔ stream.Keepable diagnostic := by
  unfold Keepable
  rw [maxDiagnostics_retain h, maxEvidenceBytes_retain h]

lemma Counts.throughout (h : Counts stream records duplicates omitted) (haccounted : Accounted serde stream)
    (hle : records + diagnostics.length ≤ u64Max) :
    Throughout (CargoStream.retain serde) Counted stream diagnostics := by
  induction diagnostics generalizing stream records duplicates omitted with
  | nil => exact h.counted hle
  | cons diagnostic diagnostics ih =>
    rw [List.length_cons] at hle
    obtain ⟨duplicates', omitted', hnext⟩ := h.retain haccounted diagnostic
    exact ⟨h.counted (by omega), ih hnext (haccounted.retain diagnostic) (by omega)⟩

lemma Counts.run (h : Counts stream records duplicates omitted) (haccounted : Accounted serde stream)
    (hsome : stream.diagnostics ≠ [] ∨ ∃ diagnostic ∈ diagnostics, stream.Keepable diagnostic) :
    (∃ duplicates' omitted', Counts (run (CargoStream.retain serde) stream diagnostics)
      (records + diagnostics.length) duplicates' omitted') ∧
      (run (CargoStream.retain serde) stream diagnostics).diagnostics ≠ [] := by
  induction diagnostics generalizing stream records duplicates omitted with
  | nil => exact ⟨⟨duplicates, omitted, h⟩, hsome.resolve_right (by simp)⟩
  | cons diagnostic diagnostics ih =>
    obtain ⟨duplicates', omitted', hnext⟩ := h.retain haccounted diagnostic
    have hsome' : (stream.retain serde diagnostic).diagnostics ≠ [] ∨
        ∃ record ∈ diagnostics, (stream.retain serde diagnostic).Keepable record := by
      rcases hsome with hkept | ⟨record, hrecord, hkeepable⟩
      · exact Or.inl (retain_ne_nil haccounted (Or.inl hkept))
      · rcases List.mem_cons.mp hrecord with rfl | hrecord
        · exact Or.inl (retain_ne_nil haccounted (Or.inr hkeepable))
        · exact Or.inr ⟨record, hrecord, (Keepable.retain haccounted diagnostic).mpr hkeepable⟩
    rw [run_cons, List.length_cons, Nat.add_comm diagnostics.length, ← Nat.add_assoc]
    exact ih hnext (haccounted.retain diagnostic) hsome'

/-- A stream that has kept nothing and met no duplicate. -/
structure KeptNothing (stream : CargoStream) : Prop where
  diagnostics_eq : stream.diagnostics = []
  keys_eq : stream.keys = ∅
  duplicates_eq : stream.stats.duplicates = 0
  records_eq : stream.stats.diagnosticRecords = stream.stats.omittedRecords

lemma KeptNothing.counted (h : KeptNothing stream) : Counted stream := by
  unfold Counted
  rw [h.diagnostics_eq, h.duplicates_eq, h.records_eq, List.length_nil, Nat.zero_add]

lemma KeptNothing.retain (h : KeptNothing stream) (haccounted : Accounted serde stream)
    (hnot : ¬ stream.Keepable diagnostic) : KeptNothing (stream.retain serde diagnostic) := by
  have hretained := haccounted.retained diagnostic
  generalize stream.retain serde diagnostic = result at hretained ⊢
  cases hretained with
  | duplicate hkey =>
    rw [h.keys_eq] at hkey
    exact absurd hkey (Finset.notMem_empty _)
  | tooLarge hkey _ =>
    exact ⟨h.diagnostics_eq, h.keys_eq, h.duplicates_eq, congrArg (saturatingAdd · 1) h.records_eq⟩
  | kept _ hkeepable => exact absurd hkeepable hnot
  | noRoom _ hkeepable => exact absurd hkeepable hnot

lemma KeptNothing.throughout (h : KeptNothing stream) (haccounted : Accounted serde stream)
    (hnot : ∀ diagnostic ∈ diagnostics, ¬ stream.Keepable diagnostic) :
    Throughout (CargoStream.retain serde) Counted stream diagnostics := by
  induction diagnostics generalizing stream with
  | nil => exact h.counted
  | cons diagnostic diagnostics ih =>
    refine ⟨h.counted, ih (h.retain haccounted (hnot diagnostic List.mem_cons_self))
      (haccounted.retain diagnostic) fun record hrecord hkeepable => ?_⟩
    exact hnot record (List.mem_cons_of_mem _ hrecord) ((Keepable.retain haccounted diagnostic).mp hkeepable)

/-- The accounts are always right, and errors do no harm, just when no error is crowded out and no
counter stops too early. -/
theorem retention_iff (serde : SerdeJson) (maxLine maxDiagnostics maxEvidenceBytes : ℕ)
    (diagnostics : List Diagnostic) :
    Retention serde (new maxLine maxDiagnostics maxEvidenceBytes) diagnostics ↔
      Along (CargoStream.retain serde) (fun stream diagnostic => ¬ Crowded serde stream diagnostic)
        (new maxLine maxDiagnostics maxEvidenceBytes) diagnostics ∧
      (diagnostics.length ≤ u64Max ∨ ∀ diagnostic ∈ diagnostics,
        ¬ (new maxLine maxDiagnostics maxEvidenceBytes).Keepable diagnostic) := by
  have haccounted := accounted_new serde maxLine maxDiagnostics maxEvidenceBytes
  have hcounts := counts_new maxLine maxDiagnostics maxEvidenceBytes
  generalize hstart : new maxLine maxDiagnostics maxEvidenceBytes = start at *
  have hall : Throughout (CargoStream.retain serde) (Accounted serde) start diagnostics := by
    have hrun : Along (CargoStream.retain serde) (fun _ _ => True) start diagnostics :=
      along_of_forall fun _ _ => trivial
    exact hrun.throughout (fun _ diagnostic h _ => h.retain diagnostic) haccounted
  have hharmless : Along (CargoStream.retain serde) (Harmless serde) start diagnostics ↔
      Along (CargoStream.retain serde) (fun stream diagnostic => ¬ Crowded serde stream diagnostic) start
        diagnostics := by
    clear hcounts hstart hall
    induction diagnostics generalizing start with
    | nil => exact Iff.rfl
    | cons diagnostic diagnostics ih =>
      rw [along_cons, along_cons, harmless_iff haccounted, ih _ (haccounted.retain diagnostic)]
  constructor
  · intro h
    refine ⟨hharmless.mp h.harmless, or_iff_not_imp_right.mpr fun hsome => ?_⟩
    push Not at hsome
    obtain ⟨⟨duplicates, omitted, hlast⟩, hkept⟩ := hcounts.run haccounted (Or.inr hsome)
    have hle := hlast.le_of_counted h.counted.last hkept
    rwa [Nat.zero_add] at hle
  · rintro ⟨hcrowded, hcount⟩
    refine ⟨hall, ?_, hharmless.mpr hcrowded⟩
    rcases hcount with hshort | hnone
    · exact hcounts.throughout haccounted (by rwa [Nat.zero_add])
    · have hnothing : KeptNothing start := by
        rw [← hstart]
        exact ⟨rfl, rfl, rfl, rfl⟩
      exact hnothing.throughout haccounted hnone

end CargoStream

/-- What is read on three lines: an error, a warning and a longer error. -/
def shortFindings : List Diagnostic :=
  ["a.rs:1:1: error: a", "a.rs:2:1: warning: b", "a.rs:3:1: error: ccccc"].flatMap fun line =>
    (parseCargoOutput plainSerde line.toList).diagnostics

lemma length_shortFindings : shortFindings.length = 3 := by decide +kernel

def secondError : Diagnostic := shortFindings.get ⟨2, by rw [length_shortFindings]; decide⟩

def beforeSecondError : CargoStream :=
  run (CargoStream.retain plainSerde) (CargoStream.new 4096 3 524) (shortFindings.take 2)

/-- The second error does not fit beside the first one, and the warning is lost. -/
theorem warning_lost_for_nothing :
    ¬ CargoStream.Retention plainSerde (CargoStream.new 4096 3 524) shortFindings := by
  intro h
  have hrest : shortFindings.drop 2 = [secondError] := by
    rw [List.drop_eq_getElem_cons (by rw [length_shortFindings]; decide),
      List.drop_of_length_le length_shortFindings.le]
    rfl
  have hsplit : shortFindings = shortFindings.take 2 ++ [secondError] := by
    rw [← hrest, List.take_append_drop]
  have halong := h.harmless
  rw [hsplit, along_append] at halong
  have hharmless : CargoStream.Harmless plainSerde beforeSecondError secondError := halong.2.1
  have hbefore : beforeSecondError.diagnostics.map (·.level) = [.error, .warning] := by decide +kernel
  have hafter : (beforeSecondError.retain plainSerde secondError).diagnostics.map (·.level) = [.error] := by
    decide +kernel
  have hwarning : DiagnosticLevel.warning ∈ beforeSecondError.diagnostics.map (·.level) := by
    rw [hbefore]
    decide
  obtain ⟨kept, hkept, hlevel⟩ := List.mem_map.mp hwarning
  have hstill := hharmless (by decide +kernel) (by decide +kernel) kept hkept
  have := List.mem_map_of_mem (f := (·.level)) hstill
  rw [hafter, hlevel] at this
  exact absurd this (by decide)

end AgzRustMcp.Records
