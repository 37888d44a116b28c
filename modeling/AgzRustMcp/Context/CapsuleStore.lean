import AgzRustMcp.Context.Expand
import AgzRustMcp.Foundation.RecentMap
import AgzRustMcp.Foundation.Runs

/-!
# The capsule store

`CapsuleStore` keeps the last capsules by their identifiers, and a look for one that is too old or from
another epoch takes it out.  What is found was the last to be put there (`found_was_inserted`), and it is
found as long as there is room and nobody has looked in vain (`capsule_found_iff`).
-/

namespace AgzRustMcp.Context

open Utf8Text

/-- `StoredCapsule` of `context/store.rs`, with its time in nanoseconds. -/
structure KeptCapsule where
  stored : StoredCapsule
  storedAt : ℕ

def KeptCapsule.id (entry : KeptCapsule) : Text := entry.stored.capsule.capsuleId

/-- The capsule is looked for in time and for its epoch. -/
def KeptCapsule.Fresh (entry : KeptCapsule) (ttl now rootEpoch : ℕ) : Prop :=
  now - entry.storedAt ≤ ttl ∧ entry.stored.capsule.identity.rootEpoch = rootEpoch

/-- `CapsuleStore`, with its `StoreState`. -/
structure CapsuleStore where
  state : RecentMap Text KeptCapsule
  maxCapsules : ℕ
  ttl : ℕ

inductive StoreCall
  | insert (now : ℕ) (stored : StoredCapsule)
  | lookup (now : ℕ) (capsuleId : Text) (rootEpoch : ℕ)

/-- The identifier under which a call inserts. -/
def StoreCall.inserted : StoreCall → Option Text
  | insert _ stored => some stored.capsule.capsuleId
  | lookup .. => none

/-- The call is no look for the capsule in vain. -/
def StoreCall.Spares (ttl : ℕ) (entry : KeptCapsule) : StoreCall → Prop
  | insert .. => True
  | lookup now capsuleId rootEpoch => capsuleId = entry.id → entry.Fresh ttl now rootEpoch

namespace CapsuleStore

def new (maxCapsules ttl : ℕ) : CapsuleStore := ⟨.empty, max maxCapsules 1, ttl⟩

def insert (store : CapsuleStore) (now : ℕ) (stored : StoredCapsule) : CapsuleStore :=
  { store with state := store.state.insert store.maxCapsules stored.capsule.capsuleId ⟨stored, now⟩ }

def lookup (store : CapsuleStore) (now : ℕ) (capsuleId : Text) (rootEpoch : ℕ) : StoreLookup × CapsuleStore :=
  match store.state.entries.lookup capsuleId with
  | none => (.notFound, store)
  | some entry =>
    let invalidated := { store with state := store.state.erase capsuleId }
    if store.ttl < now - entry.storedAt then
      (.expired ("capsule expired after ".toList ++ numeral (store.ttl / 10 ^ 6) ++
        " ms; prepare a new capsule".toList), invalidated)
    else if entry.stored.capsule.identity.rootEpoch ≠ rootEpoch then
      (.expired ("root epoch changed from ".toList ++ numeral entry.stored.capsule.identity.rootEpoch ++
        " to ".toList ++ numeral rootEpoch ++ "; stored capsule handles are invalidated".toList), invalidated)
    else (.found entry.stored, store)

def call (store : CapsuleStore) : StoreCall → CapsuleStore
  | .insert now stored => store.insert now stored
  | .lookup now capsuleId rootEpoch => (store.lookup now capsuleId rootEpoch).2

/-- The store after some calls, which take its lock one after another. -/
def after (store : CapsuleStore) (calls : List StoreCall) : CapsuleStore := Runs.run call store calls

/-! ## One call -/

variable {store : CapsuleStore} {id : Text} {entry : KeptCapsule} {stored : StoredCapsule}

lemma found_iff {now rootEpoch : ℕ} :
    (store.lookup now id rootEpoch).1 = .found stored ↔ ∃ entry, store.state.entries.lookup id = some entry ∧
      entry.Fresh store.ttl now rootEpoch ∧ entry.stored = stored := by
  unfold lookup
  cases hentry : store.state.entries.lookup id with
  | none => simp
  | some entry =>
    dsimp only
    have hfresh : entry.Fresh store.ttl now rootEpoch ↔ ¬ store.ttl < now - entry.storedAt ∧
        ¬ entry.stored.capsule.identity.rootEpoch ≠ rootEpoch := by rw [KeptCapsule.Fresh, not_lt, not_not]
    split_ifs with hold hepoch <;> simp [*]

lemma lookup_cases (store : CapsuleStore) (id : Text) (now rootEpoch : ℕ) :
    ((store.lookup now id rootEpoch).2 = store ∧
      ∀ entry, store.state.entries.lookup id = some entry → entry.Fresh store.ttl now rootEpoch) ∨
    (store.lookup now id rootEpoch).2 = { store with state := store.state.erase id } ∧
      ∃ entry, store.state.entries.lookup id = some entry ∧ ¬ entry.Fresh store.ttl now rootEpoch := by
  unfold lookup
  cases hentry : store.state.entries.lookup id with
  | none => exact Or.inl ⟨rfl, fun _ h => by cases h⟩
  | some entry =>
    dsimp only
    split_ifs with hold hepoch
    · exact Or.inr ⟨rfl, entry, rfl, fun h => hold.not_ge h.1⟩
    · exact Or.inr ⟨rfl, entry, rfl, fun h => hepoch h.2⟩
    · refine Or.inl ⟨rfl, fun _ h => ?_⟩
      obtain rfl := Option.some.inj h
      exact ⟨not_lt.mp hold, not_not.mp hepoch⟩

/-- What every call keeps, from a new store on. -/
structure Kept (maxCapsules ttl : ℕ) (store : CapsuleStore) : Prop where
  ordered : store.state.Ordered store.maxCapsules
  room : store.maxCapsules = max maxCapsules 1
  ttl : store.ttl = ttl

variable {maxCapsules ttl : ℕ} {calls rest : List StoreCall}

lemma Kept.call (h : store.Kept maxCapsules ttl) (call : StoreCall) : (store.call call).Kept maxCapsules ttl := by
  cases call with
  | insert now stored => exact ⟨h.ordered.insert _ _, h.room, h.ttl⟩
  | lookup now id rootEpoch =>
    change (store.lookup now id rootEpoch).2.Kept maxCapsules ttl
    rcases lookup_cases store id now rootEpoch with ⟨heq, -⟩ | ⟨heq, -⟩ <;> rw [heq]
    · exact h
    · exact ⟨h.ordered.erase id, h.room, h.ttl⟩

lemma Kept.after (h : store.Kept maxCapsules ttl) (calls : List StoreCall) :
    (store.after calls).Kept maxCapsules ttl :=
  Runs.invariant (fun _ call h => h.call call) h

lemma kept_new (maxCapsules ttl : ℕ) : (new maxCapsules ttl).Kept maxCapsules ttl :=
  ⟨RecentMap.ordered_empty _, rfl, rfl⟩

/-! ## Runs -/

lemma origin (h : ((new maxCapsules ttl).after calls).state.entries.lookup id = some entry) :
    ∃ before rest, calls = before ++ .insert entry.storedAt entry.stored :: rest ∧ entry.id = id ∧
      ∀ call ∈ rest, call.inserted ≠ some id := by
  induction calls using List.reverseRecOn generalizing id entry with
  | nil => cases h
  | append_singleton calls call ih =>
    have hkept := (kept_new maxCapsules ttl).after calls
    rw [after, Runs.run_append] at h
    change (((new maxCapsules ttl).after calls).call call).state.entries.lookup id = some entry at h
    generalize (new maxCapsules ttl).after calls = store at h ih hkept
    have hearlier (hold : store.state.entries.lookup id = some entry) (hother : call.inserted ≠ some id) :
        ∃ before rest, calls ++ [call] = before ++ .insert entry.storedAt entry.stored :: rest ∧ entry.id = id ∧
          ∀ call ∈ rest, call.inserted ≠ some id := by
      obtain ⟨before, rest, rfl, hid, hrest⟩ := ih hold
      refine ⟨before, rest ++ [call], by simp, hid, fun c hc => ?_⟩
      rcases List.mem_append.mp hc with hc | hc
      · exact hrest c hc
      · rwa [List.mem_singleton.mp hc]
    cases call with
    | insert now stored =>
      rw [CapsuleStore.call, insert, (RecentMap.insert_spec hkept.ordered _ _).2] at h
      split_ifs at h with _ hself
      · obtain rfl := Option.some.inj h
        exact ⟨calls, [], rfl, hself.symm, fun _ hc => absurd hc List.not_mem_nil⟩
      · exact hearlier h fun heq => hself (Option.some.inj heq).symm
    | lookup now other rootEpoch =>
      refine hearlier ?_ (by simp [StoreCall.inserted])
      change (store.lookup now other rootEpoch).2.state.entries.lookup id = _ at h
      rcases lookup_cases store other now rootEpoch with ⟨heq, -⟩ | ⟨heq, -⟩ <;> rw [heq] at h
      · exact h
      · rw [RecentMap.lookup_erase] at h
        split_ifs at h
        exact h

/-- In every run there is room for what is kept, and what is found was the last to be inserted under its
identifier, within the time to live and for the epoch of the look. -/
theorem found_was_inserted (maxCapsules ttl : ℕ) (calls : List StoreCall) :
    ((new maxCapsules ttl).after calls).state.entries.keys.card ≤ max maxCapsules 1 ∧
    ∀ now id rootEpoch stored, (((new maxCapsules ttl).after calls).lookup now id rootEpoch).1 = .found stored →
      ∃ storedAt before rest, calls = before ++ .insert storedAt stored :: rest ∧
        (∀ call ∈ rest, call.inserted ≠ some id) ∧ stored.capsule.capsuleId = id ∧
        (⟨stored, storedAt⟩ : KeptCapsule).Fresh ttl now rootEpoch := by
  have hkept := (kept_new maxCapsules ttl).after calls
  refine ⟨?_, fun now id rootEpoch stored hfound => ?_⟩
  · rw [RecentMap.card_keys hkept.ordered.nodup hkept.ordered.mem_iff, ← hkept.room]
    exact hkept.ordered.length_le
  · obtain ⟨entry, hentry, hfresh, rfl⟩ := found_iff.mp hfound
    obtain ⟨before, rest, hcalls, hid, hrest⟩ := origin hentry
    exact ⟨entry.storedAt, before, rest, hcalls, hrest, hid, hkept.ttl ▸ hfresh⟩

lemma holds_or_gone (h : store.Kept maxCapsules ttl) (entry : KeptCapsule)
    (hother : ∀ call ∈ rest, call.inserted ≠ some entry.id)
    (hfew : (rest.filterMap StoreCall.inserted).toFinset.card < store.maxCapsules) :
    ((∀ call ∈ rest, call.Spares ttl entry) ∧ ((store.insert entry.storedAt entry.stored).after rest).state.Holds
      entry.id entry (rest.filterMap StoreCall.inserted)) ∨ (¬ ∀ call ∈ rest, call.Spares ttl entry) ∧
      ((store.insert entry.storedAt entry.stored).after rest).state.entries.lookup entry.id = none := by
  have hinsert := h.call (.insert entry.storedAt entry.stored)
  change (store.insert entry.storedAt entry.stored).Kept maxCapsules ttl at hinsert
  induction rest using List.reverseRecOn with
  | nil => exact Or.inl ⟨by simp, RecentMap.holds_insert h.ordered (by rw [h.room]; omega) _ _⟩
  | append_singleton rest next ih =>
    have hkept := hinsert.after rest
    have hall : (∀ c ∈ rest ++ [next], c.Spares ttl entry) ↔
        (∀ c ∈ rest, c.Spares ttl entry) ∧ next.Spares ttl entry := by simp [or_imp, forall_and]
    rw [List.filterMap_append] at hfew
    have hprefix := ih (fun c hc => hother c (List.mem_append_left _ hc)) <| lt_of_le_of_lt
      (Finset.card_le_card fun id hid => List.mem_toFinset.mpr
        (List.mem_append_left _ (List.mem_toFinset.mp hid))) hfew
    rw [hall, List.filterMap_append, after, Runs.run_append]
    rw [h.room, ← hkept.room] at hfew
    change (_ ∧ RecentMap.Holds (call (CapsuleStore.after _ rest) next).state _ _ _) ∨
      _ ∧ (call (CapsuleStore.after _ rest) next).state.entries.lookup _ = none
    generalize (store.insert entry.storedAt entry.stored).after rest = s at hprefix hkept hfew ⊢
    cases next with
    | insert later other =>
      have hne : other.capsule.capsuleId ≠ entry.id := fun heq =>
        hother (.insert later other) (by simp) (congrArg some heq)
      rcases hprefix with ⟨hspares, hholds⟩ | ⟨hvain, hgone⟩
      · exact Or.inl ⟨⟨hspares, trivial⟩, hholds.insert hkept.ordered hne hfew _⟩
      · refine Or.inr ⟨fun h => hvain h.1, ?_⟩
        rw [call, insert, (RecentMap.insert_spec hkept.ordered _ _).2, if_neg hne.symm, hgone, ite_self]
    | lookup later other rootEpoch =>
      change (_ ∧ (s.lookup later other rootEpoch).2.state.Holds _ _ (_ ++ [])) ∨
        _ ∧ (s.lookup later other rootEpoch).2.state.entries.lookup _ = none
      rw [List.append_nil]
      have hlook := lookup_cases s other later rootEpoch
      rw [hkept.ttl] at hlook
      rcases hprefix with ⟨hspares, hholds⟩ | ⟨hvain, hgone⟩
      · rcases hlook with ⟨heq, hfresh⟩ | ⟨heq, found, hfound, hstale⟩ <;> rw [heq]
        · exact Or.inl ⟨⟨hspares, fun hid => hfresh _ (hid ▸ hholds.1)⟩, hholds⟩
        · by_cases hid : other = entry.id
          · obtain rfl : entry = found := Option.some.inj (hholds.1.symm.trans (hid ▸ hfound))
            exact Or.inr ⟨fun h => hstale (h.2 hid), by rw [RecentMap.lookup_erase, if_pos hid.symm]⟩
          · exact Or.inl ⟨⟨hspares, fun h => absurd h hid⟩, hholds.erase hid⟩
      · refine Or.inr ⟨fun h => hvain h.1, ?_⟩
        rcases hlook with ⟨heq, -⟩ | ⟨heq, -⟩ <;> rw [heq]
        · exact hgone
        · rw [RecentMap.lookup_erase, hgone, ite_self]

/-- A capsule is found exactly when no look for it since its insertion was in vain, this one included, as
long as nothing came under its identifier and fewer others than there is room for. -/
theorem capsule_found_iff (maxCapsules ttl : ℕ) (before rest : List StoreCall) (entry : KeptCapsule)
    (hother : ∀ call ∈ rest, call.inserted ≠ some entry.id)
    (hfew : (rest.filterMap StoreCall.inserted).toFinset.card < max maxCapsules 1) (now rootEpoch : ℕ) :
    (((new maxCapsules ttl).after (before ++ .insert entry.storedAt entry.stored :: rest)).lookup now entry.id
        rootEpoch).1 = .found entry.stored ↔
      ∀ call ∈ rest ++ [.lookup now entry.id rootEpoch], call.Spares ttl entry := by
  have hkept := (kept_new maxCapsules ttl).after before
  have hend := (hkept.call (.insert entry.storedAt entry.stored)).after rest
  have hcases := holds_or_gone hkept entry hother (by rwa [hkept.room])
  rw [after, Runs.run_append]
  change ((((new maxCapsules ttl).after before).insert entry.storedAt entry.stored).after rest |>.lookup ..).1 = _ ↔ _
  change ((((new maxCapsules ttl).after before).insert entry.storedAt entry.stored).after rest).Kept _ _ at hend
  rw [found_iff, hend.ttl]
  constructor
  · rintro ⟨found, hfound, hfresh, -⟩ call hcall
    rcases hcases with ⟨hspares, hholds, -⟩ | ⟨-, hgone⟩
    · obtain rfl := Option.some.inj (hholds.symm.trans hfound)
      rcases List.mem_append.mp hcall with hcall | hcall
      · exact hspares call hcall
      · rw [List.mem_singleton.mp hcall]
        exact fun _ => hfresh
    · rw [hgone] at hfound
      cases hfound
  · intro hall
    rcases hcases with ⟨-, hholds, -⟩ | ⟨hvain, -⟩
    · exact ⟨entry, hholds, hall _ (List.mem_append_right _ (List.mem_singleton_self _)) rfl, rfl⟩
    · exact absurd (fun call hcall => hall call (List.mem_append_left _ hcall)) hvain

/-- `storedPair` under another identifier. -/
def otherPair : StoredCapsule := ⟨{ pairCapsule with capsuleId := "d".toList }, by decide, by decide⟩

/-- A capsule is found behind another one that was looked for too late. -/
theorem capsule_found_beside_late_look :
    (((new 2 5).after [.insert 0 storedPair, .insert 1 otherPair, .lookup 9 "d".toList 1]).lookup 5
      "c".toList 1).1 = .found storedPair := by
  refine (capsule_found_iff 2 5 [] [.insert 1 otherPair, .lookup 9 "d".toList 1] ⟨storedPair, 0⟩
    (by decide) (by decide) 5 1).mpr ?_
  simp only [List.cons_append, List.nil_append, List.forall_mem_cons]
  exact ⟨trivial, fun h => absurd h (by decide), fun _ => ⟨by decide, by decide⟩, nofun⟩

end CapsuleStore

end AgzRustMcp.Context
