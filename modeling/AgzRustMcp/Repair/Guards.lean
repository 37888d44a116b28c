import AgzRustMcp.Foundation.Matches
import AgzRustMcp.Foundation.TextLines
import AgzRustMcp.Foundation.TextScan
import AgzRustMcp.Repair.Candidate

/-!
# Impact guards

`repair/guards.rs` counts ten signals over the patches of the base and the candidate together, and
over those of the base alone.  Nine are sums; the public items are sets of names, and a set does not
show a name that the base has already (`guards_show_candidate_iff`).
-/

namespace AgzRustMcp

open Utf8Text TextScan

inductive GuardKind where
  | unnecessaryClone | unsafeAdded | panicPathAdded | assertionRemoval | testRemoval | testIgnored
  | lintDisabled | errorSwallowed | codeDeletion | publicApiChange
  deriving DecidableEq

def GuardKind.asStr : GuardKind → String
  | .unnecessaryClone => "unnecessaryClone"
  | .unsafeAdded => "unsafeAdded"
  | .panicPathAdded => "panicPathAdded"
  | .assertionRemoval => "assertionRemoval"
  | .testRemoval => "testRemoval"
  | .testIgnored => "testIgnored"
  | .lintDisabled => "lintDisabled"
  | .errorSwallowed => "errorSwallowed"
  | .codeDeletion => "codeDeletion"
  | .publicApiChange => "publicApiChange"

def GuardKind.category : GuardKind → String
  | .unnecessaryClone => "performance"
  | _ => "behavior"

/-- The kinds in the order of `scan`. -/
def GuardKind.all : List GuardKind :=
  [.unnecessaryClone, .unsafeAdded, .panicPathAdded, .assertionRemoval, .testRemoval, .testIgnored,
    .lintDisabled, .errorSwallowed, .codeDeletion, .publicApiChange]

/-! ## One patch -/

def delta (removed added : Text) (needles : List String) : ℕ :=
  let total := fun text =>
    needles.foldl (fun sum needle => saturatingAdd sum (matchCount text needle.toList)) 0
  total added - total removed

def substantiveLines (text : Text) : ℕ :=
  (lines text).countP fun line =>
    trim line ≠ [] && !"//".toList.isPrefixOf (trim line)

def isBlockDeletion (removed added : Text) : Bool :=
  if substantiveLines removed = 0 then false
  else substantiveLines added = 0 && 3 ≤ substantiveLines removed

def keywordName (rest : Text) : Option Text :=
  (["fn ", "struct ", "enum ", "trait ", "type ", "mod ", "const ", "static ", "union ",
    "macro "].findSome? fun keyword => stripPrefix keyword.toList rest).map fun name =>
      trim (name.takeWhile fun c => c ∉ ['<', '(', ' ', ';', '{', ':', '='])

/-- The name of a public item on a line, as `api_items` finds it. -/
def apiItem (line : Text) : Option Text :=
  let line := trim line
  if !"pub ".toList.isPrefixOf line || "pub(crate)".toList.isPrefixOf line ||
      "pub(super)".toList.isPrefixOf line then none
  else
    let rest := trimStartMatches "pub ".toList line.length line
    let rest := (["async ", "unsafe ", "const "].findSome? fun keyword =>
      stripPrefix keyword.toList rest).getD rest
    let used := (stripPrefix "use ".toList rest).map fun path =>
      let path := dropEndWhile (· = ';') path
      trim (((rsplitOnce "::".toList path).map Prod.snd).getD path)
    (used.orElse fun _ => keywordName rest).filter (· ≠ [])

def apiItems (text : Text) : Finset Text := ((lines text).filterMap apiItem).toFinset

/-- What `signals` adds to the counter of a kind but public items. -/
def patchSignal (kind : GuardKind) (patch : PatchInput) : ℕ :=
  let added := patch.newString.toList
  let removed := patch.oldString.toList
  match kind with
  | .unnecessaryClone => delta removed added [".clone()"]
  | .unsafeAdded => delta removed added ["unsafe "]
  | .panicPathAdded => delta removed added ["todo!", "unimplemented!", "panic!", ".unwrap()"]
  | .assertionRemoval => delta added removed ["assert!", "assert_eq!", "assert_ne!",
      "debug_assert!", "debug_assert_eq!", "debug_assert_ne!"]
  | .testRemoval => delta added removed ["#[test]", "#[tokio::test]", "#[async_std::test]"]
  | .testIgnored => delta removed added ["#[ignore]", "#[ignore ="]
  | .lintDisabled => delta removed added ["#[allow(", "#![allow(", "#[expect(", "#![expect("]
  | .errorSwallowed => delta removed added [".ok()", ".unwrap_or(", ".unwrap_or_default()",
      ".unwrap_or_else(", "let _ = "]
  | .codeDeletion => if isBlockDeletion removed added then 1 else 0
  | .publicApiChange => 0

/-- `Signals`: the counters by kind, and the public items. -/
structure Signals where
  counter : GuardKind → ℕ
  publicApiAdded : Finset Text
  publicApiRemoved : Finset Text

/-- `Signals::default`. -/
def Signals.zero : Signals := ⟨fun _ => 0, ∅, ∅⟩

/-- The body of the loop of `signals`. -/
def Signals.add (signals : Signals) (patch : PatchInput) : Signals :=
  let added := apiItems patch.newString.toList
  let removed := apiItems patch.oldString.toList
  { counter := fun kind => saturatingAdd (signals.counter kind) (patchSignal kind patch)
    publicApiAdded := signals.publicApiAdded ∪ (added \ removed)
    publicApiRemoved := signals.publicApiRemoved ∪ (removed \ added) }

def signals (patches : List PatchInput) : Signals := patches.foldl Signals.add .zero

def Signals.value (signals : Signals) : GuardKind → ℕ
  | .publicApiChange => signals.publicApiAdded.card + signals.publicApiRemoved.card
  | kind => signals.counter kind

def maxImpacts : ℕ := 16

/-- `impact`; `debug` renders a set of names. -/
def impact (debug : Finset Text → String) (kind : GuardKind) (count : ℕ) (origin : String)
    (signals : Signals) : RepairImpactData where
  kind := kind.asStr
  category := kind.category
  detail := toString count ++
    match kind with
    | .unnecessaryClone => " added `.clone()` call(s): a clone is a performance cost and may hide " ++
        "an ownership redesign"
    | .unsafeAdded => " added `unsafe` token(s)"
    | .panicPathAdded => " added `todo!`, `unimplemented!`, `panic!`, or `.unwrap()` path(s)"
    | .assertionRemoval => " removed assertion(s)"
    | .testRemoval => " removed `#[test]` item(s)"
    | .testIgnored => " added `#[ignore]` item(s)"
    | .lintDisabled => " added lint-silencing attribute(s)"
    | .errorSwallowed => " added error-swallowing conversion(s) (`.ok()`, `unwrap_or*`, or " ++ "discarded results)"
    | .codeDeletion => " block(s) deleted without a replacement"
    | .publicApiChange => " public API item(s) added or removed (added: " ++
        debug signals.publicApiAdded ++ ", removed: " ++ debug signals.publicApiRemoved ++ ")"
  origin := origin

structure GuardReport where
  added : List RepairImpactData
  inherited : List RepairImpactData

/-- The body of the loop of `scan`. -/
def GuardReport.add (debug : Finset Text → String) (base combined : Signals) (report : GuardReport)
    (kind : GuardKind) : GuardReport :=
  let before := base.value kind
  let after := combined.value kind
  { inherited :=
      if 0 < before ∧ report.inherited.length < maxImpacts then
        report.inherited ++ [impact debug kind before "inherited" base]
      else report.inherited
    added :=
      if before < after ∧ report.added.length < maxImpacts then
        report.added ++ [impact debug kind (after - before) "candidateAdded" combined]
      else report.added }

def scan (debug : Finset Text → String) (base combined : List PatchInput) : GuardReport :=
  GuardKind.all.foldl (GuardReport.add debug (signals base) (signals combined)) ⟨[], []⟩

section

variable {debug : Finset Text → String} {base combined : Signals}

lemma GuardKind.asStr_injective : Function.Injective GuardKind.asStr := by
  intro a b h
  cases a <;> cases b <;> first | rfl | exact absurd h (by decide)

lemma GuardKind.mem_all (kind : GuardKind) : kind ∈ GuardKind.all := by
  cases kind <;> decide

lemma added_foldl (kinds : List GuardKind) (report : GuardReport)
    (hroom : report.added.length + kinds.length ≤ maxImpacts) :
    (kinds.foldl (GuardReport.add debug base combined) report).added.map RepairImpactData.kind =
      report.added.map RepairImpactData.kind ++
        (kinds.filter fun kind => base.value kind < combined.value kind).map GuardKind.asStr := by
  induction kinds generalizing report with
  | nil => simp
  | cons kind kinds ih =>
    rw [List.length_cons] at hroom
    rw [List.foldl_cons]
    by_cases hmore : base.value kind < combined.value kind
    · have hadd : (report.add debug base combined kind).added = report.added ++
          [impact debug kind (combined.value kind - base.value kind) "candidateAdded" combined] := by
        unfold GuardReport.add
        dsimp only
        rw [if_pos ⟨hmore, by omega⟩]
      rw [ih _ (by rw [hadd, List.length_append, List.length_singleton]; omega), hadd]
      simp [hmore, impact]
    · have hadd : (report.add debug base combined kind).added = report.added := by
        unfold GuardReport.add
        dsimp only
        rw [if_neg fun h => hmore h.1]
      rw [ih _ (by rw [hadd]; omega), hadd]
      simp [hmore]

lemma mem_added_iff (patches all : List PatchInput) (kind : GuardKind) :
    kind.asStr ∈ (scan debug patches all).added.map RepairImpactData.kind ↔
      (signals patches).value kind < (signals all).value kind := by
  unfold scan
  rw [added_foldl GuardKind.all ⟨[], []⟩ (by decide)]
  simp only [List.map_nil, List.nil_append, List.mem_map, List.mem_filter, decide_eq_true_eq]
  constructor
  · rintro ⟨other, ⟨-, hmore⟩, hsame⟩
    rwa [← GuardKind.asStr_injective hsame]
  · exact fun hmore => ⟨kind, ⟨kind.mem_all, hmore⟩, rfl⟩

end

/-! ## Signals of two lists of patches -/

/-- The signals that are counted on from others. -/
def signalsFrom (start : Signals) (patches : List PatchInput) : Signals :=
  patches.foldl Signals.add start

lemma counter_signalsFrom (start : Signals) (patches : List PatchInput) (kind : GuardKind)
    (hstart : start.counter kind ≤ u64Max) : (signalsFrom start patches).counter kind =
      min (start.counter kind + (patches.map (patchSignal kind)).sum) u64Max := by
  unfold signalsFrom
  induction patches generalizing start with
  | nil => simpa using hstart
  | cons patch patches ih =>
    have hstep : (start.add patch).counter kind = min (start.counter kind + patchSignal kind patch) u64Max := rfl
    rw [List.foldl_cons, ih _ (hstep ▸ min_le_right _ _), hstep, List.map_cons, List.sum_cons]
    omega

lemma publicApi_signalsFrom (start : Signals) (patches : List PatchInput) :
    (signalsFrom start patches).publicApiAdded = start.publicApiAdded ∪ (signals patches).publicApiAdded ∧
      (signalsFrom start patches).publicApiRemoved = start.publicApiRemoved ∪ (signals patches).publicApiRemoved := by
  unfold signals signalsFrom
  induction patches using List.reverseRecOn with
  | nil => simp [Signals.zero]
  | append_singleton patches patch ih =>
    rw [List.foldl_append, List.foldl_append]
    constructor
    · simp only [List.foldl_cons, List.foldl_nil, Signals.add]
      rw [ih.1, Finset.union_assoc]
    · simp only [List.foldl_cons, List.foldl_nil, Signals.add]
      rw [ih.2, Finset.union_assoc]

lemma signals_append (base candidate : List PatchInput) :
    signals (base ++ candidate) = signalsFrom (signals base) candidate := by
  unfold signals signalsFrom
  rw [List.foldl_append]

lemma counter_signals (patches : List PatchInput) (kind : GuardKind) :
    (signals patches).counter kind = min (patches.map (patchSignal kind)).sum u64Max := by
  have h := counter_signalsFrom .zero patches kind (Nat.zero_le _)
  rwa [show Signals.zero.counter kind = 0 from rfl, Nat.zero_add] at h

lemma card_lt_card_union_iff {α : Type*} [DecidableEq α] (s t u v : Finset α) :
    s.card + t.card < (s ∪ u).card + (t ∪ v).card ↔ ¬ (u ⊆ s ∧ v ⊆ t) := by
  have hs := Finset.card_le_card (Finset.subset_union_left : s ⊆ s ∪ u)
  have ht := Finset.card_le_card (Finset.subset_union_left : t ⊆ t ∪ v)
  constructor
  · rintro hless ⟨hu, hv⟩
    rw [Finset.union_eq_left.mpr hu, Finset.union_eq_left.mpr hv] at hless
    exact absurd hless (lt_irrefl _)
  · intro hnot
    by_contra hless
    have hsame : (s ∪ u).card = s.card ∧ (t ∪ v).card = t.card := by omega
    have hunion : ∀ a b : Finset α, (a ∪ b).card = a.card → b ⊆ a := by
      intro a b hcard
      have heq := Finset.eq_of_subset_of_card_le (Finset.subset_union_left : a ⊆ a ∪ b) hcard.le
      exact Finset.union_eq_left.mp heq.symm
    exact hnot ⟨hunion _ _ hsame.1, hunion _ _ hsame.2⟩

/-! ## What the candidate adds -/

lemma counted_shown_iff {kind : GuardKind} (hkind : kind ≠ .publicApiChange) (base candidate : List PatchInput) :
    ((signals base).value kind < (signals (base ++ candidate)).value kind ↔
        (signals []).value kind < (signals candidate).value kind) ↔
      ((signals candidate).value kind ≠ 0 → (signals base).value kind < u64Max) := by
  have hvalue : ∀ s : Signals, s.value kind = s.counter kind := by
    intro s
    cases kind with
    | publicApiChange => exact absurd rfl hkind
    | _ => rfl
  have hbase : (signals base).counter kind ≤ u64Max := by
    rw [counter_signals]
    exact min_le_right _ _
  rw [hvalue, hvalue, hvalue, hvalue, signals_append, counter_signalsFrom _ _ _ hbase, counter_signals candidate]
  have hpositive : 0 < u64Max := by decide
  have hnil : (signals []).counter kind = 0 := rfl
  rw [hnil]
  omega

lemma publicApi_shown_iff (base candidate : List PatchInput) :
    ((signals base).value .publicApiChange < (signals (base ++ candidate)).value .publicApiChange ↔
        (signals []).value .publicApiChange < (signals candidate).value .publicApiChange) ↔
      ((signals candidate).publicApiAdded ⊆ (signals base).publicApiAdded ∧
          (signals candidate).publicApiRemoved ⊆ (signals base).publicApiRemoved →
        (signals candidate).publicApiAdded = ∅ ∧ (signals candidate).publicApiRemoved = ∅) := by
  have hapi := publicApi_signalsFrom (signals base) candidate
  have hmore := card_lt_card_union_iff (signals base).publicApiAdded (signals base).publicApiRemoved
    (signals candidate).publicApiAdded (signals candidate).publicApiRemoved
  have hsome : 0 < (signals candidate).publicApiAdded.card + (signals candidate).publicApiRemoved.card ↔
      ¬ ((signals candidate).publicApiAdded = ∅ ∧ (signals candidate).publicApiRemoved = ∅) := by
    rw [← Finset.card_eq_zero, ← Finset.card_eq_zero]
    omega
  have hnil : (signals []).value .publicApiChange = 0 := rfl
  rw [hnil, signals_append]
  simp only [Signals.value]
  rw [hapi.1, hapi.2, hmore, hsome]
  constructor
  · intro h hsub
    by_contra hnot
    exact absurd hsub (h.mpr hnot)
  · intro h
    constructor
    · rintro hnot ⟨hadded, hremoved⟩
      rw [hadded, hremoved] at hnot
      exact hnot ⟨Finset.empty_subset _, Finset.empty_subset _⟩
    · exact fun hnot hsub => hnot (h hsub)

/-- The candidate's impacts are those of its own patches exactly when the base has not all of its
public items already, unless it has none, and no counter that it raises is full. -/
theorem guards_show_candidate_iff (debug : Finset Text → String)
    (base candidate : List PatchInput) :
    (∀ kind : GuardKind, kind.asStr ∈ (scan debug base (base ++ candidate)).added.map RepairImpactData.kind ↔
          kind.asStr ∈ (scan debug [] candidate).added.map RepairImpactData.kind) ↔
      ((signals candidate).publicApiAdded ⊆ (signals base).publicApiAdded ∧
          (signals candidate).publicApiRemoved ⊆ (signals base).publicApiRemoved →
        (signals candidate).publicApiAdded = ∅ ∧ (signals candidate).publicApiRemoved = ∅) ∧
      ∀ kind ≠ GuardKind.publicApiChange,
        (signals candidate).value kind ≠ 0 → (signals base).value kind < u64Max := by
  simp only [mem_added_iff]
  constructor
  · intro h
    refine ⟨(publicApi_shown_iff base candidate).mp (h .publicApiChange), ?_⟩
    exact fun kind hkind => (counted_shown_iff hkind base candidate).mp (h kind)
  · rintro ⟨hapi, hcounted⟩ kind
    by_cases hkind : kind = .publicApiChange
    · subst hkind
      exact (publicApi_shown_iff base candidate).mpr hapi
    · exact (counted_shown_iff hkind base candidate).mpr (hcounted kind hkind)

/-- A base and a candidate add functions of one name. -/
def loadPatch (file : String) : PatchInput :=
  ⟨file, "mod tests;", "pub fn load() \x7b\x7d\nmod tests;"⟩

/-- The base hides the public function of the candidate. -/
theorem guards_laundered_through_base :
    ¬ ∀ (debug : Finset Text → String) (base candidate : List PatchInput) (kind : GuardKind),
      kind.asStr ∈ (scan debug base (base ++ candidate)).added.map RepairImpactData.kind ↔
        kind.asStr ∈ (scan debug [] candidate).added.map RepairImpactData.kind := by
  intro h
  have hkind := h (fun _ => "") [loadPatch "src/a.rs"] [loadPatch "src/b.rs"] .publicApiChange
  have hshown : GuardKind.publicApiChange.asStr ∈
      (scan (fun _ => "") [] [loadPatch "src/b.rs"]).added.map RepairImpactData.kind := by
    decide +kernel
  have hhidden : GuardKind.publicApiChange.asStr ∉ (scan (fun _ => "") [loadPatch "src/a.rs"]
      ([loadPatch "src/a.rs"] ++ [loadPatch "src/b.rs"])).added.map RepairImpactData.kind := by
    decide +kernel
  exact hhidden (hkind.mpr hshown)

end AgzRustMcp
