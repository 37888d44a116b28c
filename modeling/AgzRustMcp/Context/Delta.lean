import AgzRustMcp.Context.Capsule

/-!
# Differences between capsules

`build_delta` sorts the items of a new capsule by their identifiers and source hashes.  An item that
is not tied to a source file has no hash, so it counts as unchanged whatever its excerpt says
(`buildDelta_exact_iff`).
-/

namespace AgzRustMcp.Context

open Utf8Text
open String (utf8Len)

/-! ## The comparison -/

def maxDeltaEntries : ℕ := 24

def sourceHashChanged (previous current : ContextItem) : Bool :=
  match previous.sourceHash, current.sourceHash with
  | some previous, some current => previous ≠ current
  | none, none => false
  | _, _ => true

def ContextItem.deltaEntry (item : ContextItem) : DeltaEntry :=
  ⟨item.id, item.kind, item.file, item.line, item.symbol, item.reason⟩

/-- `push_delta_entry`, on the entries and the flag. -/
def pushDeltaEntry (entries : List DeltaEntry) (item : ContextItem) (truncated : Bool) : List DeltaEntry × Bool :=
  if maxDeltaEntries ≤ entries.length then (entries, true) else (entries ++ [item.deltaEntry], truncated)

/-- The item of a list with an identifier, as the map of the list has it: the last one. -/
def itemWith (items : List ContextItem) (id : Text) : Option ContextItem := items.reverse.find? (·.id = id)

/-- The turn of the first loop of `build_delta`, over the items of the current capsule. -/
def deltaTurn (previous : List ContextItem) (report : DeltaReport) (item : ContextItem) : DeltaReport :=
  match itemWith previous item.id with
  | none =>
    let pushed := pushDeltaEntry report.added item report.truncated
    { report with added := pushed.1, truncated := pushed.2 }
  | some previousItem =>
    if sourceHashChanged previousItem item then
      let pushed := pushDeltaEntry report.changed item report.truncated
      { report with changed := pushed.1, truncated := pushed.2 }
    else { report with unchanged := report.unchanged + 1 }

/-- The turn of the second loop of `build_delta`, over previous items. -/
def removalTurn (current : List ContextItem) (report : DeltaReport) (item : ContextItem) : DeltaReport :=
  if item.id ∈ current.map ContextItem.id then report
  else
    let pushed := pushDeltaEntry report.removed item report.truncated
    { report with removed := pushed.1, truncated := pushed.2 }

def buildDelta (previous current : Capsule) : DeltaReport :=
  previous.items.foldl (removalTurn current.items)
    (current.items.foldl (deltaTurn previous.items) ⟨[], [], [], 0, false⟩)

/-- The evidence is the same: the source hash, or else the excerpt. -/
def SameEvidence (before item : ContextItem) : Prop :=
  before.sourceHash = item.sourceHash ∧ (item.file = none → before.excerpt = item.excerpt)

/-- The added, changed and removed items and the number of the others make up both capsules, and an
item not listed as changed has the same evidence. -/
structure ExactDelta (previous current : List ContextItem) (report : DeltaReport) : Prop where
  ids : ∀ id, id ∈ current.map ContextItem.id ↔
    (id ∈ previous.map ContextItem.id ∧ id ∉ report.removed.map DeltaEntry.id) ∨ id ∈ report.added.map DeltaEntry.id
  added : ∀ id ∈ report.added.map DeltaEntry.id, id ∉ previous.map ContextItem.id
  removed : ∀ id ∈ report.removed.map DeltaEntry.id, id ∈ previous.map ContextItem.id
  changed : ∀ id ∈ report.changed.map DeltaEntry.id,
    id ∈ previous.map ContextItem.id ∧ id ∈ current.map ContextItem.id
  nodup : (report.added.map DeltaEntry.id).Nodup ∧ (report.changed.map DeltaEntry.id).Nodup ∧
    (report.removed.map DeltaEntry.id).Nodup
  counted : report.unchanged + report.changed.length =
    (current.filter fun item => item.id ∈ previous.map ContextItem.id).length
  evidence : ∀ before ∈ previous, ∀ item ∈ current, before.id = item.id →
    item.id ∉ report.changed.map DeltaEntry.id → SameEvidence before item

/-! ## The lists of a report -/

section

variable {previous current items : List ContextItem} {item before : ContextItem}

def newItems (previous current : List ContextItem) : List ContextItem :=
  current.filter fun item => (itemWith previous item.id).isNone

/-- The items whose source hash is another one. -/
def changedItems (previous current : List ContextItem) : List ContextItem :=
  current.filter fun item => (itemWith previous item.id).any fun before => sourceHashChanged before item

/-- The items with the hash that they had. -/
def keptItems (previous current : List ContextItem) : List ContextItem :=
  current.filter fun item => (itemWith previous item.id).any fun before => !sourceHashChanged before item

def goneItems (previous current : List ContextItem) : List ContextItem :=
  previous.filter fun item => item.id ∉ current.map ContextItem.id

def listed (items : List ContextItem) : List DeltaEntry := (items.take maxDeltaEntries).map ContextItem.deltaEntry

lemma pushDeltaEntry_listed (items : List ContextItem) (item : ContextItem) (rest : Bool) :
    pushDeltaEntry (listed items) item (decide (maxDeltaEntries < items.length) || rest) =
      (listed (items ++ [item]), decide (maxDeltaEntries < (items ++ [item]).length) || rest) := by
  unfold pushDeltaEntry listed
  rw [List.length_map, List.length_take, List.length_append, List.length_singleton]
  by_cases hfull : maxDeltaEntries ≤ items.length
  · rw [if_pos (by omega), List.take_append_of_le_length hfull, decide_eq_true (by omega), Bool.true_or]
  · rw [if_neg (by omega), List.take_of_length_le (by omega), List.take_of_length_le (by simp; omega),
      List.map_append, decide_eq_false (by omega), decide_eq_false (by omega)]
    rfl

lemma foldl_deltaTurn (previous current : List ContextItem) :
    current.foldl (deltaTurn previous) ⟨[], [], [], 0, false⟩ =
      ⟨listed (newItems previous current), listed (changedItems previous current), [],
        (keptItems previous current).length, decide (maxDeltaEntries < (newItems previous current).length) ||
          decide (maxDeltaEntries < (changedItems previous current).length)⟩ := by
  induction current using List.reverseRecOn with
  | nil => rfl
  | append_singleton items item ih =>
    rw [List.foldl_concat, ih]
    unfold deltaTurn newItems changedItems keptItems
    simp only [List.filter_append, List.filter_singleton]
    cases hbefore : itemWith previous item.id with
    | none =>
      have hpushed := pushDeltaEntry_listed (newItems previous items) item
        (decide (maxDeltaEntries < (changedItems previous items).length))
      unfold newItems changedItems at hpushed
      simp [hpushed]
    | some before =>
      by_cases hchanged : sourceHashChanged before item = true
      · have hpushed := pushDeltaEntry_listed (changedItems previous items) item
          (decide (maxDeltaEntries < (newItems previous items).length))
        unfold newItems changedItems at hpushed
        rw [Bool.or_comm] at hpushed
        simp [hchanged, hpushed, Bool.or_comm]
      · rw [Bool.not_eq_true] at hchanged
        simp [hchanged]

lemma foldl_removalTurn (current previous : List ContextItem) (report : DeltaReport)
    (hremoved : report.removed = []) : previous.foldl (removalTurn current) report = { report with
        removed := listed (goneItems previous current)
        truncated := decide (maxDeltaEntries < (goneItems previous current).length) || report.truncated } := by
  induction previous using List.reverseRecOn with
  | nil =>
    cases report
    cases hremoved
    rfl
  | append_singleton items item ih =>
    rw [List.foldl_concat, ih]
    unfold removalTurn goneItems
    rw [List.filter_append, List.filter_singleton]
    by_cases hmem : item.id ∈ current.map ContextItem.id
    · simp [hmem]
    · have hpushed := pushDeltaEntry_listed (goneItems items current) item report.truncated
      unfold goneItems at hpushed
      rw [if_neg hmem]
      dsimp only
      rw [hpushed, decide_eq_true hmem, cond_true]

lemma buildDelta_eq (previous current : Capsule) : buildDelta previous current =
      ⟨listed (newItems previous.items current.items), listed (changedItems previous.items current.items),
        listed (goneItems previous.items current.items), (keptItems previous.items current.items).length,
        decide (maxDeltaEntries < (goneItems previous.items current.items).length) ||
          (decide (maxDeltaEntries < (newItems previous.items current.items).length) ||
            decide (maxDeltaEntries < (changedItems previous.items current.items).length))⟩ := by
  unfold buildDelta
  rw [foldl_deltaTurn, foldl_removalTurn _ _ _ rfl]

/-! ## Items by their identifiers -/

lemma itemWith_eq_some_iff (hids : (items.map ContextItem.id).Nodup) {id : Text} :
    itemWith items id = some item ↔ item ∈ items ∧ item.id = id := by
  unfold itemWith
  constructor
  · intro h
    exact ⟨List.mem_reverse.mp (List.mem_of_find?_eq_some h), by simpa using List.find?_some h⟩
  · rintro ⟨hmem, hid⟩
    obtain ⟨found, hfound⟩ : ∃ found, items.reverse.find? (·.id = id) = some found := by
      rw [← Option.isSome_iff_exists, List.find?_isSome]
      exact ⟨item, List.mem_reverse.mpr hmem, by simpa using hid⟩
    rw [hfound]
    have hfoundMem := List.mem_reverse.mp (List.mem_of_find?_eq_some hfound)
    have hfoundId : found.id = id := by simpa using List.find?_some hfound
    rw [List.inj_on_of_nodup_map hids hfoundMem hmem (hfoundId.trans hid.symm)]

lemma itemWith_eq_none_iff {id : Text} : itemWith items id = none ↔ id ∉ items.map ContextItem.id := by
  unfold itemWith
  rw [List.find?_eq_none]
  simp [eq_comm]

lemma listed_of_length_le (h : items.length ≤ maxDeltaEntries) :
    (listed items).map DeltaEntry.id = items.map ContextItem.id := by
  rw [listed, List.take_of_length_le h, List.map_map]
  rfl

lemma mem_map_newItems {id : Text} : id ∈ (newItems previous current).map ContextItem.id ↔
    id ∈ current.map ContextItem.id ∧ id ∉ previous.map ContextItem.id := by
  simp only [newItems, List.mem_map, List.mem_filter, Option.isNone_iff_eq_none, itemWith_eq_none_iff]
  constructor
  · rintro ⟨item, ⟨hmem, hnew⟩, rfl⟩
    exact ⟨⟨item, hmem, rfl⟩, by simpa using hnew⟩
  · rintro ⟨⟨item, hmem, rfl⟩, hnew⟩
    exact ⟨item, ⟨hmem, by simpa using hnew⟩, rfl⟩

lemma mem_map_goneItems {id : Text} : id ∈ (goneItems previous current).map ContextItem.id ↔
    id ∈ previous.map ContextItem.id ∧ id ∉ current.map ContextItem.id := by
  unfold goneItems
  constructor
  · intro h
    obtain ⟨item, hitem, rfl⟩ := List.mem_map.mp h
    obtain ⟨hmem, hgone⟩ := List.mem_filter.mp hitem
    exact ⟨List.mem_map_of_mem hmem, of_decide_eq_true hgone⟩
  · rintro ⟨hmem, hgone⟩
    obtain ⟨item, hitem, rfl⟩ := List.mem_map.mp hmem
    exact List.mem_map_of_mem (List.mem_filter.mpr ⟨hitem, decide_eq_true hgone⟩)

lemma mem_changedItems (hprevious : (previous.map ContextItem.id).Nodup) :
    item ∈ changedItems previous current ↔ item ∈ current ∧
      ∃ before ∈ previous, before.id = item.id ∧ sourceHashChanged before item = true := by
  rw [changedItems, List.mem_filter]
  refine and_congr_right fun _ => ?_
  cases hfound : itemWith previous item.id with
  | none =>
    have hnone := itemWith_eq_none_iff.mp hfound
    constructor
    · intro h
      exact absurd h (by simp)
    · rintro ⟨before, hmem, hid, -⟩
      exact absurd (hid ▸ List.mem_map_of_mem hmem) hnone
  | some found =>
    obtain ⟨hmem, hid⟩ := (itemWith_eq_some_iff hprevious).mp hfound
    rw [Option.any_some]
    constructor
    · intro h
      exact ⟨found, hmem, hid, h⟩
    · rintro ⟨before, hbefore, hsame, h⟩
      have heq := (itemWith_eq_some_iff hprevious).mpr ⟨hbefore, hsame⟩
      rw [Option.some.inj (hfound.symm.trans heq)]
      exact h

lemma length_kept_add_changed (previous current : List ContextItem) :
    (keptItems previous current).length + (changedItems previous current).length =
      (current.filter fun item => item.id ∈ previous.map ContextItem.id).length := by
  unfold keptItems changedItems
  induction current with
  | nil => rfl
  | cons item items ih =>
    simp only [List.filter_cons]
    cases hfound : itemWith previous item.id with
    | none =>
      have hnone := itemWith_eq_none_iff.mp hfound
      simp only [Option.any_none, Bool.false_eq_true, if_false]
      rw [if_neg (by simpa using hnone)]
      exact ih
    | some found =>
      have hmem : item.id ∈ previous.map ContextItem.id := by
        by_contra hnone
        rw [itemWith_eq_none_iff.mpr hnone] at hfound
        simp at hfound
      rw [if_pos (decide_eq_true hmem)]
      cases hchanged : sourceHashChanged found item with
      | true =>
        simp only [Option.any_some, hchanged, Bool.not_true, Bool.false_eq_true, if_false, if_true, List.length_cons]
        omega
      | false =>
        simp only [Option.any_some, hchanged, Bool.not_false, Bool.false_eq_true, if_false, if_true, List.length_cons]
        omega

lemma sourceHashChanged_eq_false_iff :
    sourceHashChanged before item = false ↔ before.sourceHash = item.sourceHash := by
  unfold sourceHashChanged
  cases before.sourceHash <;> cases item.sourceHash <;> simp

end

/-! ## When a report is exact -/

/-- One of the lists of the report has no place for all its items. -/
def Overfull (previous current : List ContextItem) : Prop :=
  maxDeltaEntries < (newItems previous current).length ∨ maxDeltaEntries < (changedItems previous current).length ∨
      maxDeltaEntries < (goneItems previous current).length

/-- An item without a file has another excerpt under the same hash. -/
def HiddenChange (previous current : List ContextItem) : Prop :=
  ∃ before ∈ previous, ∃ item ∈ current, before.id = item.id ∧ before.sourceHash = item.sourceHash ∧
    item.file = none ∧ before.excerpt ≠ item.excerpt

/-- A whole report is exact unless an excerpt without a file has changed. -/
theorem buildDelta_exact_iff (previous current : Capsule)
    (hprevious : (previous.items.map ContextItem.id).Nodup)
    (hcurrent : (current.items.map ContextItem.id).Nodup) :
    ((buildDelta previous current).truncated = false →
        ExactDelta previous.items current.items (buildDelta previous current)) ↔
      Overfull previous.items current.items ∨ ¬ HiddenChange previous.items current.items := by
  by_cases hfull : Overfull previous.items current.items
  · have htruncated : (buildDelta previous current).truncated ≠ false := by
      rw [buildDelta_eq]
      unfold Overfull at hfull
      simp only [ne_eq, Bool.or_eq_false_iff, decide_eq_false_iff_not]
      tauto
    exact ⟨fun _ => Or.inl hfull, fun _ h => absurd h htruncated⟩
  -- Nothing is cut off: the lists are all the new, the changed and the gone items.
  have hlengths : (newItems previous.items current.items).length ≤ maxDeltaEntries ∧
      (changedItems previous.items current.items).length ≤ maxDeltaEntries ∧
      (goneItems previous.items current.items).length ≤ maxDeltaEntries := by
    unfold Overfull at hfull
    push Not at hfull
    exact hfull
  obtain ⟨hnew, hchanged, hgone⟩ := hlengths
  have htruncated : (buildDelta previous current).truncated = false := by
    rw [buildDelta_eq]
    simp only [Bool.or_eq_false_iff, decide_eq_false_iff_not]
    omega
  have hlists : (buildDelta previous current).added.map DeltaEntry.id =
        (newItems previous.items current.items).map ContextItem.id ∧
      (buildDelta previous current).changed.map DeltaEntry.id =
        (changedItems previous.items current.items).map ContextItem.id ∧
      (buildDelta previous current).removed.map DeltaEntry.id =
        (goneItems previous.items current.items).map ContextItem.id := by
    rw [buildDelta_eq]
    exact ⟨listed_of_length_le hnew, listed_of_length_le hchanged, listed_of_length_le hgone⟩
  obtain ⟨hadded, hchangedList, hremoved⟩ := hlists
  have hunlisted : ∀ item ∈ current.items, ∀ before ∈ previous.items, before.id = item.id →
      (item.id ∉ (changedItems previous.items current.items).map ContextItem.id ↔
        before.sourceHash = item.sourceHash) := by
    intro item hitem before hbefore hid
    rw [← sourceHashChanged_eq_false_iff]
    constructor
    · intro hnot
      by_contra hhash
      rw [Bool.not_eq_false] at hhash
      exact hnot (List.mem_map_of_mem
        ((mem_changedItems hprevious).mpr ⟨hitem, before, hbefore, hid, hhash⟩))
    · intro hhash hmem
      obtain ⟨other, hother, hsame⟩ := List.mem_map.mp hmem
      obtain ⟨hotherMem, previousItem, hpreviousItem, hpreviousId, hdiffers⟩ :=
        (mem_changedItems hprevious).mp hother
      obtain rfl := List.inj_on_of_nodup_map hcurrent hotherMem hitem hsame
      obtain rfl := List.inj_on_of_nodup_map hprevious hpreviousItem hbefore (hpreviousId.trans hid.symm)
      rw [hhash] at hdiffers
      exact absurd hdiffers (by decide)
  constructor
  · intro h
    refine Or.inr ?_
    rintro ⟨before, hbefore, item, hitem, hid, hhash, hfile, hexcerpt⟩
    have hevidence := (h htruncated).evidence before hbefore item hitem hid
    rw [hchangedList] at hevidence
    exact hexcerpt ((hevidence ((hunlisted item hitem before hbefore hid).mpr hhash)).2 hfile)
  · rintro (h | hhidden) -
    · exact absurd h hfull
    have hnodup : ∀ {kept : List ContextItem}, (kept.map ContextItem.id).Nodup → ∀ p : ContextItem → Bool,
        ((kept.filter p).map ContextItem.id).Nodup :=
      fun hkept p => hkept.sublist (List.filter_sublist.map _)
    refine ⟨?_, ?_, ?_, ?_, ?_, ?_, ?_⟩
    · intro id
      rw [hremoved, hadded, mem_map_goneItems, mem_map_newItems]
      tauto
    · intro id hid
      rw [hadded, mem_map_newItems] at hid
      exact hid.2
    · intro id hid
      rw [hremoved, mem_map_goneItems] at hid
      exact hid.1
    · intro id hid
      rw [hchangedList] at hid
      obtain ⟨item, hitem, rfl⟩ := List.mem_map.mp hid
      obtain ⟨hmem, before, hbefore, hsame, -⟩ := (mem_changedItems hprevious).mp hitem
      exact ⟨hsame ▸ List.mem_map_of_mem hbefore, List.mem_map_of_mem hmem⟩
    · rw [hadded, hchangedList, hremoved]
      exact ⟨hnodup hcurrent _, hnodup hcurrent _, hnodup hprevious _⟩
    · have hlength := congrArg List.length hchangedList
      rw [List.length_map, List.length_map] at hlength
      rw [hlength, ← length_kept_add_changed, buildDelta_eq]
    · intro before hbefore item hitem hid hnot
      rw [hchangedList] at hnot
      have hhash := (hunlisted item hitem before hbefore hid).mp hnot
      refine ⟨hhash, fun hfile => ?_⟩
      by_contra hexcerpt
      exact hhidden ⟨before, hbefore, item, hitem, hid, hhash, hfile, hexcerpt⟩

/-- A dependency in a capsule, with the version that the metadata reports. -/
def dependencyItem (version : Text) : ContextItem where
  id := "0123456789abcdef01234567".toList
  kind := .dependency
  reason := "direct dependency of demo from cargo metadata".toList
  provenance := .cargoMetadata
  resolution := .resolved
  file := none
  line := none
  symbol := some "serde".toList
  sourceHash := none
  stale := false
  excerpt := some version
  excerptBytes := utf8Len version
  excerptChars := version.length

lemma dependencyItem_id (version other : Text) : (dependencyItem version).id = (dependencyItem other).id := rfl

lemma dependencyItem_file (version : Text) : (dependencyItem version).file = none := rfl

def capsuleWith (items : List ContextItem) : Capsule where
  schemaVersion := 1
  capsuleId := []
  identity := ⟨1, [], 0, [], none, none, [], [], none, none, 0, [], [], true⟩
  anchors := []
  purpose := none
  changeId := none
  items := items
  omitted := []
  notes := []

theorem buildDelta_exact_unchanged :
    ExactDelta [dependencyItem "serde 1.0.1 (normal)".toList] [dependencyItem "serde 1.0.1 (normal)".toList]
      (buildDelta (capsuleWith [dependencyItem "serde 1.0.1 (normal)".toList])
        (capsuleWith [dependencyItem "serde 1.0.1 (normal)".toList])) := by
  refine (buildDelta_exact_iff (capsuleWith [dependencyItem "serde 1.0.1 (normal)".toList])
    (capsuleWith [dependencyItem "serde 1.0.1 (normal)".toList]) (by decide) (by decide)).mpr (Or.inr ?_)
    (by decide +kernel)
  rintro ⟨before, hbefore, item, hitem, -, -, -, hexcerpt⟩
  rw [List.mem_singleton.mp hbefore, List.mem_singleton.mp hitem] at hexcerpt
  exact hexcerpt rfl

/-- A dependency with another version counts as unchanged. -/
theorem new_version_counts_as_unchanged :
    ¬ ((buildDelta (capsuleWith [dependencyItem "serde 1.0.1 (normal)".toList])
        (capsuleWith [dependencyItem "serde 1.0.2 (normal)".toList])).truncated = false →
      ExactDelta [dependencyItem "serde 1.0.1 (normal)".toList]
        [dependencyItem "serde 1.0.2 (normal)".toList]
        (buildDelta (capsuleWith [dependencyItem "serde 1.0.1 (normal)".toList])
          (capsuleWith [dependencyItem "serde 1.0.2 (normal)".toList]))) := by
  intro h
  have hevidence := (h (by decide +kernel)).evidence (dependencyItem "serde 1.0.1 (normal)".toList)
    List.mem_cons_self (dependencyItem "serde 1.0.2 (normal)".toList) List.mem_cons_self
    (dependencyItem_id _ _) (by decide +kernel)
  exact absurd (hevidence.2 (dependencyItem_file _)) (by decide +kernel)

end AgzRustMcp.Context
