import AgzRustMcp.Foundation.Utf8Text

/-!
# Evaluation of cfg predicates

`evaluate_cfg` of `tools/explain.rs` answers a predicate with one of three verdicts from what is
known of the features and the target.  `Agrees` says which truth values are compatible with that;
`evaluateCfg_sound` and `attainable_of_admits` compare the verdict with the meaning under all of
these.
-/

namespace AgzRustMcp.Explain

open Utf8Text

/-! ## Predicates and verdicts -/

/-- `CfgExpr`: a parsed `cfg(...)` predicate. -/
inductive CfgExpr where
  | all (items : List CfgExpr)
  | any (items : List CfgExpr)
  | not (inner : CfgExpr)
  | flag (key : Text) (value : Option Text)

inductive CfgVerdict where
  | enabled
  | disabled
  | unknown
  deriving DecidableEq, Repr

/-- `!verdict`. -/
def CfgVerdict.not : CfgVerdict → CfgVerdict
  | .enabled => .disabled
  | .disabled => .enabled
  | .unknown => .unknown

def CfgVerdict.ofBool (value : Bool) : CfgVerdict := if value then .enabled else .disabled

/-- `FeatureSelection`, without its note. -/
structure FeatureSelection where
  recorded : Finset Text
  effective : Option (Finset Text)
  unknown : Finset Text

def FeatureSelection.isEnabled (features : FeatureSelection) (feature : Text) : CfgVerdict :=
  if feature ∈ features.unknown then .unknown
  else match features.effective with
    | some effective => if feature ∈ effective then .enabled else .disabled
    | none => if feature ∈ features.recorded then .enabled else .unknown

/-- The predicates that are looked up in the cfgs of the target with their value. -/
def targetKeys : List Text :=
  ["target_os", "target_arch", "target_family", "target_env", "target_vendor", "target_pointer_width",
    "target_endian", "target_abi", "target_feature"].map String.toList

/-- The predicates that are looked up in the cfgs of the target by their name. -/
def familyKeys : List Text := ["unix", "windows"].map String.toList

/-- `format!("{key}=\"{value}\"")`. -/
def targetEntry (key value : Text) : Text := key ++ '=' :: '"' :: value ++ ['"']

/-- A verdict from the cfgs of the target, where they were asked for. -/
def targetVerdict (targetCfgs : Option (Finset Text)) (entry : Text) : CfgVerdict :=
  match targetCfgs with
  | some targetCfgs => if entry ∈ targetCfgs then .enabled else .disabled
  | none => .unknown

def evalFlag (key : Text) (value : Option Text) (features : FeatureSelection)
    (targetCfgs : Option (Finset Text)) : CfgVerdict :=
  match value with
  | some value =>
    if key = "feature".toList then features.isEnabled value
    else if key ∈ targetKeys then targetVerdict targetCfgs (targetEntry key value)
    else .unknown
  -- `test`, `debug_assertions`, `proc_macro` and `doctest` have no verdict of their own either
  | none => if key ∈ familyKeys then targetVerdict targetCfgs key else .unknown

lemma evalFlag_none (key : Text) (features : FeatureSelection) (targetCfgs : Option (Finset Text)) :
    evalFlag key none features targetCfgs =
      if key ∈ familyKeys then targetVerdict targetCfgs key else .unknown := rfl

lemma evalFlag_some (key value : Text) (features : FeatureSelection) (targetCfgs : Option (Finset Text)) :
    evalFlag key (some value) features targetCfgs =
      if key = "feature".toList then features.isEnabled value
      else if key ∈ targetKeys then targetVerdict targetCfgs (targetEntry key value) else .unknown := rfl

mutual

def evaluateCfg (features : FeatureSelection) (targetCfgs : Option (Finset Text)) : CfgExpr → CfgVerdict
  | .all items => evaluateItems features targetCfgs .disabled items .enabled
  | .any items => evaluateItems features targetCfgs .enabled items .disabled
  | .not inner => (evaluateCfg features targetCfgs inner).not
  | .flag key value => evalFlag key value features targetCfgs

/-- The loop over the items of `all` or `any`, which returns at `stop`. -/
def evaluateItems (features : FeatureSelection) (targetCfgs : Option (Finset Text)) (stop : CfgVerdict) :
    List CfgExpr → CfgVerdict → CfgVerdict
  | [], verdict => verdict
  | item :: items, verdict =>
    let answer := evaluateCfg features targetCfgs item
    if answer = stop then stop
    else if answer = .unknown then evaluateItems features targetCfgs stop items .unknown
    else evaluateItems features targetCfgs stop items verdict

end

/-- An induction over predicates, with the items of a list at once. -/
theorem CfgExpr.induct {P : CfgExpr → Prop} (all : ∀ items, (∀ item ∈ items, P item) → P (.all items))
    (any : ∀ items, (∀ item ∈ items, P item) → P (.any items)) (not : ∀ inner, P inner → P (.not inner))
    (flag : ∀ key value, P (.flag key value)) (expr : CfgExpr) : P expr :=
  @CfgExpr.rec P (fun items => ∀ item ∈ items, P item) all any not flag
    (fun _ h => absurd h List.not_mem_nil)
    (fun _ _ hitem hitems _ h => (List.mem_cons.mp h).elim (· ▸ hitem) (hitems _)) expr

/-! ## The meaning of a predicate -/

/-- A name with the value it is compared with. -/
abbrev CfgPredicate := Text × Option Text

mutual

/-- A predicate under given truth values of its names. -/
def CfgExpr.holds (truth : CfgPredicate → Bool) : CfgExpr → Bool
  | .all items => allHold truth items
  | .any items => someHolds truth items
  | .not inner => !inner.holds truth
  | .flag key value => truth (key, value)

def allHold (truth : CfgPredicate → Bool) : List CfgExpr → Bool
  | [] => true
  | item :: items => item.holds truth && allHold truth items

def someHolds (truth : CfgPredicate → Bool) : List CfgExpr → Bool
  | [] => false
  | item :: items => item.holds truth || someHolds truth items

end

mutual

/-- The names a predicate is made of, one by one. -/
def CfgExpr.predicates : CfgExpr → List CfgPredicate
  | .all items => itemPredicates items
  | .any items => itemPredicates items
  | .not inner => inner.predicates
  | .flag key value => [(key, value)]

def itemPredicates : List CfgExpr → List CfgPredicate
  | [] => []
  | item :: items => item.predicates ++ itemPredicates items

end

/-- Truth values compatible with what is known of features and target. -/
structure Agrees (features : FeatureSelection) (targetCfgs : Option (Finset Text))
    (truth : CfgPredicate → Bool) : Prop where
  effective : ∀ effective, features.effective = some effective → ∀ feature ∉ features.unknown,
    truth ("feature".toList, some feature) = decide (feature ∈ effective)
  recorded : features.effective = none → ∀ feature ∈ features.recorded, feature ∉ features.unknown →
    truth ("feature".toList, some feature) = true
  target : ∀ cfgs, targetCfgs = some cfgs → ∀ key ∈ targetKeys, ∀ value,
    truth (key, some value) = decide (targetEntry key value ∈ cfgs)
  family : ∀ cfgs, targetCfgs = some cfgs → ∀ key ∈ familyKeys, truth (key, none) = decide (key ∈ cfgs)

/-- The truth values that a verdict leaves open. -/
def CfgVerdict.Admits : CfgVerdict → Bool → Prop
  | .enabled, value => value = true
  | .disabled, value => value = false
  | .unknown, _ => True

/-- The truth value that a verdict fixes, or the given one. -/
def CfgVerdict.pick (value : Bool) : CfgVerdict → Bool
  | .enabled => true
  | .disabled => false
  | .unknown => value

@[simp] lemma CfgVerdict.admits_pick (verdict : CfgVerdict) (value : Bool) : verdict.Admits (verdict.pick value) := by
  cases verdict <;> simp [CfgVerdict.Admits, CfgVerdict.pick]

@[simp] lemma CfgVerdict.admits_not (verdict : CfgVerdict) (value : Bool) :
    verdict.not.Admits (!value) ↔ verdict.Admits value := by
  cases verdict <;> simp [CfgVerdict.Admits, CfgVerdict.not]

lemma CfgVerdict.pick_of_admits {verdict : CfgVerdict} {value : Bool} (h : verdict.Admits value) :
    verdict.pick value = value := by
  cases verdict with
  | enabled => exact h.symm
  | disabled => exact h.symm
  | unknown => rfl

@[simp] lemma CfgVerdict.admits_ofBool (fixed value : Bool) :
    (CfgVerdict.ofBool fixed).Admits value ↔ value = fixed := by
  cases fixed <;> rfl

lemma CfgVerdict.eq_ofBool_not {verdict : CfgVerdict} {value : Bool} (hstop : verdict ≠ .ofBool value)
    (hdoubt : verdict ≠ .unknown) : verdict = .ofBool !value := by
  cases verdict <;> cases value <;> simp_all [CfgVerdict.ofBool]

section

variable {features : FeatureSelection} {targetCfgs : Option (Finset Text)} {truth : CfgPredicate → Bool}

lemma targetVerdict_admits_iff (entry : Text) (value : Bool) : (targetVerdict targetCfgs entry).Admits value ↔
      ∀ cfgs, targetCfgs = some cfgs → value = decide (entry ∈ cfgs) := by
  cases targetCfgs with
  | none => simp [targetVerdict, CfgVerdict.Admits]
  | some cfgs => by_cases h : entry ∈ cfgs <;> simp [targetVerdict, CfgVerdict.Admits, h]

lemma isEnabled_admits_iff (feature : Text) (value : Bool) :
    (features.isEnabled feature).Admits value ↔ (feature ∉ features.unknown →
      (∀ effective, features.effective = some effective → value = decide (feature ∈ effective)) ∧
      (features.effective = none → feature ∈ features.recorded → value = true)) := by
  unfold FeatureSelection.isEnabled
  by_cases hunknown : feature ∈ features.unknown
  · simp [hunknown, CfgVerdict.Admits]
  · cases heffective : features.effective with
    | none => by_cases h : feature ∈ features.recorded <;> simp [hunknown, h, CfgVerdict.Admits]
    | some effective => by_cases h : feature ∈ effective <;> simp [hunknown, h, CfgVerdict.Admits]

/-- What is known is what `eval_flag` answers. -/
theorem agrees_iff : Agrees features targetCfgs truth ↔
      ∀ p : CfgPredicate, (evalFlag p.1 p.2 features targetCfgs).Admits (truth p) := by
  have hfeature : "feature".toList ∉ targetKeys := by decide
  constructor
  · rintro h ⟨key, value⟩
    cases value with
    | none =>
      rw [evalFlag_none]
      split_ifs with hkey
      · exact (targetVerdict_admits_iff key _).mpr fun cfgs hcfgs => h.family cfgs hcfgs key hkey
      · trivial
    | some value =>
      rw [evalFlag_some]
      split_ifs with hkey htarget
      · subst hkey
        exact (isEnabled_admits_iff value _).mpr fun hknown =>
          ⟨fun effective heff => h.effective effective heff value hknown,
            fun hnone hmem => h.recorded hnone value hmem hknown⟩
      · exact (targetVerdict_admits_iff _ _).mpr fun cfgs hcfgs => h.target cfgs hcfgs key htarget value
      · trivial
  · intro h
    refine ⟨fun effective heff feature hknown => ?_, fun hnone feature hmem hknown => ?_,
      fun cfgs hcfgs key hkey value => ?_, fun cfgs hcfgs key hkey => ?_⟩
    · have hflag := h ("feature".toList, some feature)
      dsimp only at hflag
      rw [evalFlag_some, if_pos rfl] at hflag
      exact ((isEnabled_admits_iff feature _).mp hflag hknown).1 effective heff
    · have hflag := h ("feature".toList, some feature)
      dsimp only at hflag
      rw [evalFlag_some, if_pos rfl] at hflag
      exact ((isEnabled_admits_iff feature _).mp hflag hknown).2 hnone hmem
    · have hflag := h (key, some value)
      rw [evalFlag_some, if_neg (ne_of_mem_of_not_mem hkey hfeature), if_pos hkey] at hflag
      exact (targetVerdict_admits_iff _ _).mp hflag cfgs hcfgs
    · have hflag := h (key, none)
      rw [evalFlag_none, if_pos hkey] at hflag
      exact (targetVerdict_admits_iff _ _).mp hflag cfgs hcfgs

/-! ## A predicate and its names -/

lemma allHold_iff {items : List CfgExpr} : allHold truth items = true ↔ ∀ item ∈ items, item.holds truth = true := by
  induction items with
  | nil => simp [allHold]
  | cons item items ih => rw [allHold, Bool.and_eq_true, ih, List.forall_mem_cons]

lemma someHolds_iff {items : List CfgExpr} :
    someHolds truth items = true ↔ ∃ item ∈ items, item.holds truth = true := by
  induction items with
  | nil => simp [someHolds]
  | cons item items ih => rw [someHolds, Bool.or_eq_true, ih, List.exists_mem_cons_iff]

lemma itemPredicates_eq (items : List CfgExpr) : itemPredicates items = items.flatMap CfgExpr.predicates := by
  induction items with
  | nil => rfl
  | cons item items ih => rw [itemPredicates, ih, List.flatMap_cons]

lemma holds_congr {truth other : CfgPredicate → Bool} {expr : CfgExpr}
    (h : ∀ p ∈ expr.predicates, truth p = other p) : expr.holds truth = expr.holds other := by
  induction expr using CfgExpr.induct with
  | all items ih =>
    rw [CfgExpr.predicates, itemPredicates_eq] at h
    have hitems : ∀ item ∈ items, item.holds truth = item.holds other := fun item hitem =>
      ih item hitem fun p hp => h p (List.mem_flatMap.mpr ⟨item, hitem, hp⟩)
    rw [CfgExpr.holds, CfgExpr.holds, Bool.eq_iff_iff, allHold_iff, allHold_iff]
    exact forall₂_congr fun item hitem => by rw [hitems item hitem]
  | any items ih =>
    rw [CfgExpr.predicates, itemPredicates_eq] at h
    have hitems : ∀ item ∈ items, item.holds truth = item.holds other := fun item hitem =>
      ih item hitem fun p hp => h p (List.mem_flatMap.mpr ⟨item, hitem, hp⟩)
    rw [CfgExpr.holds, CfgExpr.holds, Bool.eq_iff_iff, someHolds_iff, someHolds_iff]
    exact exists_congr fun item => and_congr_right fun hitem => by rw [hitems item hitem]
  | not inner ih => rw [CfgExpr.holds, CfgExpr.holds, ih h]
  | flag key value => exact h (key, value) (List.mem_singleton.mpr rfl)

lemma admits_evaluateItems_iff (features : FeatureSelection) (targetCfgs : Option (Finset Text)) (value : Bool)
    (items : List CfgExpr) {verdict : CfgVerdict}
    (hverdict : verdict.Admits !value) :
    ((evaluateItems features targetCfgs (.ofBool value) items verdict).Admits value ↔
        verdict.Admits value ∨ ∃ item ∈ items, (evaluateCfg features targetCfgs item).Admits value) ∧
      ((evaluateItems features targetCfgs (.ofBool value) items verdict).Admits (!value) ↔
        ∀ item ∈ items, (evaluateCfg features targetCfgs item).Admits !value) := by
  induction items generalizing verdict with
  | nil => simp [evaluateItems, hverdict]
  | cons item items ih =>
    have hunknown : ∀ b, CfgVerdict.unknown.Admits b := fun _ => trivial
    rw [evaluateItems, List.forall_mem_cons, List.exists_mem_cons_iff]
    by_cases hstop : evaluateCfg features targetCfgs item = .ofBool value
    · simp [hstop]
    · rw [if_neg hstop]
      by_cases hdoubt : evaluateCfg features targetCfgs item = .unknown
      · rw [if_pos hdoubt, (ih (hunknown _)).1, (ih (hunknown _)).2, hdoubt]
        simp [hunknown]
      · have hother : evaluateCfg features targetCfgs item = .ofBool !value :=
          CfgVerdict.eq_ofBool_not hstop hdoubt
        rw [if_neg hdoubt, (ih hverdict).1, (ih hverdict).2, hother]
        simp

lemma admits_all_iff (items : List CfgExpr) : ((evaluateCfg features targetCfgs (.all items)).Admits true ↔
        ∀ item ∈ items, (evaluateCfg features targetCfgs item).Admits true) ∧
      ((evaluateCfg features targetCfgs (.all items)).Admits false ↔
        ∃ item ∈ items, (evaluateCfg features targetCfgs item).Admits false) := by
  have h := admits_evaluateItems_iff features targetCfgs false items (show CfgVerdict.enabled.Admits true from rfl)
  exact ⟨h.2, h.1.trans (or_iff_right (by simp [CfgVerdict.Admits]))⟩

lemma admits_any_iff (items : List CfgExpr) : ((evaluateCfg features targetCfgs (.any items)).Admits true ↔
        ∃ item ∈ items, (evaluateCfg features targetCfgs item).Admits true) ∧
      ((evaluateCfg features targetCfgs (.any items)).Admits false ↔
        ∀ item ∈ items, (evaluateCfg features targetCfgs item).Admits false) := by
  have h := admits_evaluateItems_iff features targetCfgs true items (show CfgVerdict.disabled.Admits false from rfl)
  exact ⟨h.1.trans (or_iff_right (by simp [CfgVerdict.Admits])), h.2⟩

/-! ## Verdicts and truth values -/

/-- The truth value of a predicate is one that its verdict leaves open. -/
theorem admits_holds (hagrees : Agrees features targetCfgs truth) (expr : CfgExpr) :
    (evaluateCfg features targetCfgs expr).Admits (expr.holds truth) := by
  induction expr using CfgExpr.induct with
  | all items ih =>
    rw [CfgExpr.holds]
    cases hvalue : allHold truth items with
    | true =>
      refine (admits_all_iff items).1.mpr fun item hitem => ?_
      rw [← allHold_iff.mp hvalue item hitem]
      exact ih item hitem
    | false =>
      obtain ⟨item, hitem, hfails⟩ : ∃ item ∈ items, item.holds truth = false := by
        simpa [allHold_iff] using (Bool.eq_false_iff.mp hvalue : allHold truth items ≠ true)
      refine (admits_all_iff items).2.mpr ⟨item, hitem, ?_⟩
      rw [← hfails]
      exact ih item hitem
  | any items ih =>
    rw [CfgExpr.holds]
    cases hvalue : someHolds truth items with
    | true =>
      obtain ⟨item, hitem, hholds⟩ := someHolds_iff.mp hvalue
      refine (admits_any_iff items).1.mpr ⟨item, hitem, ?_⟩
      rw [← hholds]
      exact ih item hitem
    | false =>
      refine (admits_any_iff items).2.mpr fun item hitem => ?_
      have hfails : item.holds truth = false := by
        rw [Bool.eq_false_iff]
        exact fun hholds => Bool.eq_false_iff.mp hvalue (someHolds_iff.mpr ⟨item, hitem, hholds⟩)
      rw [← hfails]
      exact ih item hitem
  | not inner ih =>
    rw [evaluateCfg, CfgExpr.holds, CfgVerdict.admits_not]
    exact ih
  | flag key value => exact agrees_iff.mp hagrees (key, value)

lemma Agrees.piecewise {other : CfgPredicate → Bool} (h : Agrees features targetCfgs truth)
    (hother : Agrees features targetCfgs other) (names : List CfgPredicate) :
    Agrees features targetCfgs fun p => if p ∈ names then truth p else other p := by
  refine agrees_iff.mpr fun p => ?_
  split_ifs
  · exact agrees_iff.mp h p
  · exact agrees_iff.mp hother p

lemma agrees_pick (choice : CfgPredicate → Bool) :
    Agrees features targetCfgs fun p => (evalFlag p.1 p.2 features targetCfgs).pick (choice p) :=
  agrees_iff.mpr fun _ => CfgVerdict.admits_pick _ _

lemma exists_joint_truth {items : List CfgExpr} (value : Bool)
    (hitems : ∀ item ∈ items, item.predicates.Nodup → ∀ value, (evaluateCfg features targetCfgs item).Admits value →
        ∃ truth, Agrees features targetCfgs truth ∧ item.holds truth = value)
    (hnodup : (itemPredicates items).Nodup) : ∃ truth, Agrees features targetCfgs truth ∧
      ∀ item ∈ items, item.holds truth = (evaluateCfg features targetCfgs item).pick value := by
  induction items with
  | nil => exact ⟨_, agrees_pick fun _ => true, fun _ h => absurd h List.not_mem_nil⟩
  | cons item items ih =>
    rw [itemPredicates, List.nodup_append] at hnodup
    obtain ⟨hfirst, hrest, hapart⟩ := hnodup
    obtain ⟨truth, hagrees, htruth⟩ :=
      hitems item List.mem_cons_self hfirst _ (CfgVerdict.admits_pick _ value)
    obtain ⟨other, hothers, hother⟩ :=
      ih (fun next hnext => hitems next (List.mem_cons_of_mem _ hnext)) hrest
    refine ⟨_, hagrees.piecewise hothers item.predicates, List.forall_mem_cons.mpr ⟨?_, fun next hnext => ?_⟩⟩
    · rw [← htruth]
      exact holds_congr fun p hp => if_pos hp
    · rw [← hother next hnext]
      refine holds_congr fun p hp => if_neg fun hfirst => ?_
      rw [itemPredicates_eq] at hapart
      exact hapart p hfirst p (List.mem_flatMap.mpr ⟨next, hnext, hp⟩) rfl

/-- Where no name occurs twice, every value left open is taken. -/
theorem attainable_of_admits (expr : CfgExpr) (hnodup : expr.predicates.Nodup) (value : Bool)
    (hvalue : (evaluateCfg features targetCfgs expr).Admits value) :
    ∃ truth, Agrees features targetCfgs truth ∧ expr.holds truth = value := by
  induction expr using CfgExpr.induct generalizing value with
  | all items ih =>
    obtain ⟨truth, hagrees, htruth⟩ := exists_joint_truth value ih hnodup
    refine ⟨truth, hagrees, ?_⟩
    rw [CfgExpr.holds]
    cases value with
    | true =>
      refine allHold_iff.mpr fun item hitem => ?_
      rw [htruth item hitem]
      exact CfgVerdict.pick_of_admits ((admits_all_iff items).1.mp hvalue item hitem)
    | false =>
      obtain ⟨item, hitem, hopen⟩ := (admits_all_iff items).2.mp hvalue
      rw [Bool.eq_false_iff, Ne, allHold_iff]
      intro hall
      have hfails := htruth item hitem
      rw [hall item hitem, CfgVerdict.pick_of_admits hopen] at hfails
      exact Bool.noConfusion hfails
  | any items ih =>
    obtain ⟨truth, hagrees, htruth⟩ := exists_joint_truth value ih hnodup
    refine ⟨truth, hagrees, ?_⟩
    rw [CfgExpr.holds]
    cases value with
    | true =>
      obtain ⟨item, hitem, hopen⟩ := (admits_any_iff items).1.mp hvalue
      refine someHolds_iff.mpr ⟨item, hitem, ?_⟩
      rw [htruth item hitem]
      exact CfgVerdict.pick_of_admits hopen
    | false =>
      rw [Bool.eq_false_iff, Ne, someHolds_iff]
      rintro ⟨item, hitem, hholds⟩
      have hfails := htruth item hitem
      rw [hholds, CfgVerdict.pick_of_admits ((admits_any_iff items).2.mp hvalue item hitem)] at hfails
      exact Bool.noConfusion hfails
  | not inner ih =>
    rw [← Bool.not_not value, evaluateCfg, CfgVerdict.admits_not] at hvalue
    obtain ⟨truth, hagrees, htruth⟩ := ih hnodup _ hvalue
    exact ⟨truth, hagrees, by rw [CfgExpr.holds, htruth, Bool.not_not]⟩
  | flag key flagValue =>
    refine ⟨_, agrees_pick fun _ => value, ?_⟩
    exact CfgVerdict.pick_of_admits hvalue

end

/-- A verdict holds under all values that agree with what is known; where no name occurs twice, none
leaves both open. -/
theorem evaluate_cfg_three_valued (expr : CfgExpr) (features : FeatureSelection)
    (targetCfgs : Option (Finset Text)) :
    (evaluateCfg features targetCfgs expr = .enabled →
      ∀ truth, Agrees features targetCfgs truth → expr.holds truth = true) ∧
    (evaluateCfg features targetCfgs expr = .disabled →
      ∀ truth, Agrees features targetCfgs truth → expr.holds truth = false) ∧
    (evaluateCfg features targetCfgs expr = .unknown → expr.predicates.Nodup →
      ∀ value, ∃ truth, Agrees features targetCfgs truth ∧ expr.holds truth = value) := by
  refine ⟨fun h truth hagrees => ?_, fun h truth hagrees => ?_, fun h hnodup value => ?_⟩
  · have hadmits := admits_holds hagrees expr
    rwa [h] at hadmits
  · have hadmits := admits_holds hagrees expr
    rwa [h] at hadmits
  · refine attainable_of_admits expr hnodup value ?_
    rw [h]
    trivial

lemma admits_of_more {features more : FeatureSelection} {targetCfgs moreCfgs : Option (Finset Text)}
    (hmore : ∀ truth, Agrees more moreCfgs truth → Agrees features targetCfgs truth) (expr : CfgExpr)
    (value : Bool) (h : (evaluateCfg more moreCfgs expr).Admits value) :
    (evaluateCfg features targetCfgs expr).Admits value := by
  induction expr using CfgExpr.induct generalizing value with
  | all items ih =>
    cases value with
    | true =>
      have hall := (admits_all_iff items).1.mp h
      exact (admits_all_iff items).1.mpr fun item hitem => ih item hitem _ (hall item hitem)
    | false =>
      obtain ⟨item, hitem, hfails⟩ := (admits_all_iff items).2.mp h
      exact (admits_all_iff items).2.mpr ⟨item, hitem, ih item hitem _ hfails⟩
  | any items ih =>
    cases value with
    | true =>
      obtain ⟨item, hitem, hholds⟩ := (admits_any_iff items).1.mp h
      exact (admits_any_iff items).1.mpr ⟨item, hitem, ih item hitem _ hholds⟩
    | false =>
      have hnone := (admits_any_iff items).2.mp h
      exact (admits_any_iff items).2.mpr fun item hitem => ih item hitem _ (hnone item hitem)
  | not inner ih =>
    rw [evaluateCfg, ← Bool.not_not value, CfgVerdict.admits_not] at h ⊢
    exact ih _ h
  | flag key value' =>
    -- Some truth values agree with all that is known, and give the name this one.
    have hagrees : Agrees more moreCfgs fun p =>
        if p = (key, value') then value else (evalFlag p.1 p.2 more moreCfgs).pick true := by
      refine agrees_iff.mpr fun p => ?_
      split_ifs with hp
      · rw [hp]
        exact h
      · exact CfgVerdict.admits_pick _ _
    have hflag := agrees_iff.mp (hmore _ hagrees) (key, value')
    rwa [if_pos rfl] at hflag

/-- More is known exactly when every verdict that was reached stays, for all predicates. -/
theorem reached_verdicts_stay_iff (features more : FeatureSelection)
    (targetCfgs moreCfgs : Option (Finset Text)) :
    (∀ truth, Agrees more moreCfgs truth → Agrees features targetCfgs truth) ↔
      ∀ expr, evaluateCfg features targetCfgs expr ≠ .unknown →
        evaluateCfg more moreCfgs expr = evaluateCfg features targetCfgs expr := by
  constructor
  · intro hmore expr hreached
    have hadmits := admits_of_more hmore expr
    generalize evaluateCfg features targetCfgs expr = verdict at *
    cases hverdict : evaluateCfg more moreCfgs expr <;> rw [hverdict] at hadmits <;> cases verdict <;>
      simp_all [CfgVerdict.Admits]
  · intro hstays truth hagrees
    refine agrees_iff.mpr fun p => ?_
    have hflag := hstays (.flag p.1 p.2)
    rw [evaluateCfg, evaluateCfg] at hflag
    by_cases hreached : evalFlag p.1 p.2 features targetCfgs = .unknown
    · rw [hreached]
      trivial
    · rw [← hflag hreached]
      exact agrees_iff.mp hagrees p

end AgzRustMcp.Explain
