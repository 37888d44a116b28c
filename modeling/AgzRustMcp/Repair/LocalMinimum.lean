import AgzRustMcp.Repair.MinimizeSound
import AgzRustMcp.Repair.Reductions

/-!
# The search ends in a local minimum

A round of the search tries every unit of its plan alone, or has it in a group that is still to be
tried (`searchRound_tries`), and a tree that is accepted is smaller, so that the rounds end without
a budget (`searchLoop_minimizes`).  Both hold for every `Reducer` whose groups always apply and make
the tree smaller.
-/

namespace AgzRustMcp

open Tasks

/-- The tree from which a step goes on. -/
def MinimizeLabel.accepted : MinimizeLabel → Option SourceTree
  | .accept tree => some tree
  | _ => none

/-- The trees from which the search went on, in their order. -/
def acceptedTrees (w : MinimizeWorld) : List SourceTree :=
  w.trace.filterMap fun entry => entry.label.accepted

/-- Any group of a plan can be applied, and makes the tree smaller. -/
def Reducer.Shrinks (reducer : Reducer) (size : SourceTree → ℕ) : Prop :=
  ∀ initial predicate scope tree skippedReferenced skippedScope group,
    group.Sublist (reducer.plan initial predicate scope tree skippedReferenced skippedScope).1 →
      group ≠ [] → ∃ trial, reducer.apply tree group = some trial ∧ size trial < size tree

section Search

variable (lowercase : String → String) (reducer : Reducer) (predicate : FailurePredicate)
  (baseline : List String) (size : SourceTree → ℕ)

/-- A unit was applied alone, and the result did not match. -/
def TriedAlone (tree : SourceTree) (w : MinimizeWorld) (unit : reducer.Unit) : Prop :=
  ∃ trial, reducer.apply tree [unit] = some trial ∧ ∃ entry ∈ w.trace,
    entry.label = .run .trial trial ∧ entry.before.current = some tree ∧
      (evaluateRun lowercase predicate baseline (convertEvidence entry.input.evidence)).matched = false

/-- The trees accepted behind a history are smaller and smaller. -/
def Descends (history : List SourceTree) (w : MinimizeWorld) : Prop :=
  ∃ steps, acceptedTrees w = history ++ steps ∧ steps.IsChain fun tree next => size next < size tree

/-- The search has reached a tree, as the last of those that it accepted. -/
structure Reached (history : List SourceTree) (tree : SourceTree) (w : MinimizeWorld) : Prop where
  current : w.state.current = some tree
  steps : ∃ steps, acceptedTrees w = history ++ steps ∧
    (steps.IsChain fun tree next => size next < size tree) ∧ steps.getLast? = some tree

variable {lowercase reducer predicate baseline size} {history : List SourceTree} {tree : SourceTree}
  {w w' : MinimizeWorld} {label : MinimizeLabel} {α : Type} {unit : reducer.Unit}

lemma TriedAlone.later (h : TriedAlone lowercase reducer predicate baseline tree w unit)
    (htrace : w.trace ⊆ w'.trace) : TriedAlone lowercase reducer predicate baseline tree w' unit := by
  obtain ⟨trial, happly, entry, hentry, htried⟩ := h
  exact ⟨trial, happly, entry, htrace hentry, htried⟩

lemma acceptedTrees_after (label : MinimizeLabel)
    (act : MinimizeInput → MinimizeSession → MinimizeSession) (input : MinimizeInput) :
    acceptedTrees (w.after 0 label act input) = acceptedTrees w ++ label.accepted.toList := by
  cases h : label.accepted <;> simp [acceptedTrees, List.filterMap_append, h]

lemma Reached.descends (h : Reached size history tree w) : Descends size history w := by
  obtain ⟨steps, haccepted, hchain, -⟩ := h.steps
  exact ⟨steps, haccepted, hchain⟩

lemma Reached.quiet (h : Reached size history tree w) (label : MinimizeLabel)
    (act : MinimizeInput → MinimizeSession → MinimizeSession) (input : MinimizeInput)
    (hlabel : label.accepted = none) (hcurrent : (act input w.state).current = w.state.current) :
    Reached size history tree (w.after 0 label act input) ∧ w.trace ⊆ (w.after 0 label act input).trace := by
  refine ⟨⟨hcurrent.trans h.current, ?_⟩, List.subset_append_left _ _⟩
  rw [acceptedTrees_after, hlabel, Option.toList_none, List.append_nil]
  exact h.steps

lemma Reached.look {value : MinimizeInput → MinimizeSession → α} {Q : α → MinimizeWorld → Prop}
    (h : Reached size history tree w) (hlabel : label.accepted = none)
    (hQ : ∀ input w', Reached size history tree w' → w.trace ⊆ w'.trace → Q (value input w.state) w') :
    (Task.look label value).Ensures (Descends size history) Q w := by
  refine Task.ensures_look fun input => ?_
  obtain ⟨hreached, htrace⟩ := h.quiet label (fun _ s => s) input hlabel rfl
  exact ⟨hreached.descends, hQ input _ hreached htrace⟩

lemma Reached.budgetStop {budget : RepairBudget} {Q : Option String → MinimizeWorld → Prop}
    (h : Reached size history tree w)
    (hQ : ∀ stop w', Reached size history tree w' → w.trace ⊆ w'.trace → stop ≠ some "completed" → Q stop w') :
    (AgzRustMcp.budgetStop budget).Ensures (Descends size history) Q w := by
  refine h.look rfl fun input w' hreached htrace => hQ _ w' hreached htrace ?_
  split_ifs <;> decide

lemma Reached.runTree {trial : SourceTree} {Q : Except String TrialRun → MinimizeWorld → Prop}
    (h : Reached size history tree w) (herror : ∀ reason w', Q (.error reason) w')
    (hok : ∀ entry : Entry MinimizeSession MinimizeInput MinimizeLabel, ∀ w',
      Reached size history tree w' → w.trace ⊆ w'.trace → entry ∈ w'.trace →
        entry.label = .run .trial trial → entry.before.current = some tree →
          Q (.ok (convertEvidence entry.input.evidence)) w') :
    (AgzRustMcp.runTree trial .trial).Ensures (Descends size history) Q w := by
  unfold AgzRustMcp.runTree
  refine Task.Ensures.bind (h.look rfl fun _ w₁ h₁ htrace => ?_)
  split
  next => exact Task.ensures_done (herror _ w₁)
  next =>
    refine Task.ensures_step fun _ input => ?_
    obtain ⟨hreached, htrace'⟩ := h₁.quiet (.run .trial trial)
      (fun input session =>
        { session with
          compiles := session.compiles + 1
          lastCommand :=
            if (convertEvidence input.evidence).command = "" then session.lastCommand
            else (convertEvidence input.evidence).command }) input rfl rfl
    refine ⟨hreached.descends, Task.ensures_done ?_⟩
    exact hok ⟨0, .run .trial trial, input, w₁.state⟩ _ hreached (List.Subset.trans htrace htrace')
      (List.mem_append_right _ (List.mem_singleton_self _)) rfl h₁.current

lemma Reached.acceptTree {trial : SourceTree} {Q : Unit → MinimizeWorld → Prop}
    (h : Reached size history tree w) (hsmaller : size trial < size tree)
    (hQ : ∀ w', Reached size history trial w' → Q () w') :
    (AgzRustMcp.acceptTree trial).Ensures (Descends size history) Q w := by
  refine Task.ensures_modify fun input => ?_
  have hreached : Reached size history trial (w.after 0 (.accept trial)
      (fun _ session => { session with current := some trial }) input) := by
    obtain ⟨steps, haccepted, hchain, hlast⟩ := h.steps
    refine ⟨rfl, steps ++ [trial], ?_, ?_, by simp⟩
    · rw [acceptedTrees_after, haccepted, List.append_assoc]
      rfl
    · rw [List.isChain_append]
      refine ⟨hchain, List.isChain_singleton _, fun last hmem next hnext => ?_⟩
      rw [hlast] at hmem
      obtain rfl := Option.some.inj hmem
      obtain rfl := Option.some.inj hnext
      exact hsmaller
  exact ⟨hreached.descends, hQ _ hreached⟩

variable (lowercase reducer predicate baseline size history) in
/-- What a round of the search on a tree ends with. -/
def RoundMinimizes (tree : SourceTree) (plan : List reducer.Unit) (w : MinimizeWorld) : RoundEnd → Prop
  | .exhausted => Reached size history tree w ∧
      ∀ unit ∈ plan, TriedAlone lowercase reducer predicate baseline tree w unit
  | .progressed trial => Reached size history trial w ∧ size trial < size tree
  | .stopped stop => stop ≠ "completed"
  | .outOfFuel => False
  | .cancelled | .unavailable _ => True

/-- The groups to try are parts of the plan, with every unit not tried alone. -/
structure Pending (tried : reducer.Unit → Prop) (plan : List reducer.Unit)
    (stack : List (List reducer.Unit)) : Prop where
  sublist : ∀ group ∈ stack, group ≠ [] ∧ group.Sublist plan
  covers : ∀ unit ∈ plan, tried unit ∨ ∃ group ∈ stack, unit ∈ group

lemma Pending.split {tried tried' : reducer.Unit → Prop} {plan group : List reducer.Unit}
    {stack : List (List reducer.Unit)} (h : Pending tried plan (group :: stack))
    (htried : ∀ unit, tried unit → tried' unit) (hlong : group.length > 1) :
    Pending tried' plan (group.take (group.length / 2) :: group.drop (group.length / 2) :: stack) := by
  obtain ⟨-, hsub⟩ := h.sublist group (List.mem_cons_self ..)
  refine ⟨fun part hpart => ?_, fun unit hunit => ?_⟩
  · simp only [List.mem_cons] at hpart
    rcases hpart with rfl | rfl | hpart
    · refine ⟨fun hempty => ?_, (List.take_sublist _ _).trans hsub⟩
      have hlen := congrArg List.length hempty
      rw [List.length_take, List.length_nil] at hlen
      omega
    · refine ⟨fun hempty => ?_, (List.drop_sublist _ _).trans hsub⟩
      have hlen := congrArg List.length hempty
      rw [List.length_drop, List.length_nil] at hlen
      omega
    · exact h.sublist part (List.mem_cons_of_mem _ hpart)
  · rcases h.covers unit hunit with hdone | ⟨other, hother, hmem⟩
    · exact Or.inl (htried unit hdone)
    · right
      rcases List.mem_cons.mp hother with rfl | hother
      · rw [← List.take_append_drop (other.length / 2) other, List.mem_append] at hmem
        rcases hmem with hleft | hright
        · exact ⟨_, by simp, hleft⟩
        · exact ⟨_, by simp, hright⟩
      · exact ⟨other, by simp [hother], hmem⟩

lemma Pending.drop {tried tried' : reducer.Unit → Prop} {plan group : List reducer.Unit}
    {stack : List (List reducer.Unit)} (h : Pending tried plan (group :: stack))
    (htried : ∀ unit, tried unit → tried' unit) (hgroup : ∀ unit, group = [unit] → tried' unit)
    (hshort : ¬ group.length > 1) : Pending tried' plan stack := by
  refine ⟨fun part hpart => h.sublist part (List.mem_cons_of_mem _ hpart), fun unit hunit => ?_⟩
  rcases h.covers unit hunit with hdone | ⟨other, hother, hmem⟩
  · exact Or.inl (htried unit hdone)
  · rcases List.mem_cons.mp hother with rfl | hother
    · left
      have hpos := List.length_pos_of_mem hmem
      obtain ⟨only, rfl⟩ := List.length_eq_one_iff.mp (show other.length = 1 by omega)
      obtain rfl := List.mem_singleton.mp hmem
      exact hgroup unit rfl
    · exact Or.inr ⟨other, hother, hmem⟩

variable {budget : RepairBudget}

lemma searchRound_tries {fuel : ℕ} {plan : List reducer.Unit} {stack : List (List reducer.Unit)}
    {Q : RoundEnd → MinimizeWorld → Prop} (hfuel : stackSize stack ≤ fuel)
    (hshrinks : ∀ group : List reducer.Unit, group.Sublist plan → group ≠ [] →
      ∃ trial, reducer.apply tree group = some trial ∧ size trial < size tree) (h : Reached size history tree w)
    (hpending : Pending (TriedAlone lowercase reducer predicate baseline tree w) plan stack)
    (hQ : ∀ result w', RoundMinimizes lowercase reducer predicate baseline size history tree plan w'
      result → Q result w') : (searchRound lowercase reducer predicate baseline budget tree fuel stack).Ensures
      (Descends size history) Q w := by
  have hexhausted : ∀ {w : MinimizeWorld}, Reached size history tree w →
      Pending (TriedAlone lowercase reducer predicate baseline tree w) plan [] → Q .exhausted w := by
    intro w h hpending
    refine hQ _ w ⟨h, fun unit hunit => ?_⟩
    rcases hpending.covers unit hunit with htried | ⟨group, hgroup, -⟩
    · exact htried
    · exact absurd hgroup (List.not_mem_nil)
  induction fuel generalizing stack w with
  | zero =>
    cases stack with
    | nil => exact Task.ensures_done (hexhausted h hpending)
    | cons group stack =>
      have hsize : stackSize stack < stackSize (group :: stack) := stackSize_lt
      omega
  | succ fuel ih =>
    cases stack with
    | nil => exact Task.ensures_done (hexhausted h hpending)
    | cons group stack =>
      have hsize : stackSize stack < stackSize (group :: stack) := stackSize_lt
      obtain ⟨hne, hsub⟩ := hpending.sublist group (List.mem_cons_self ..)
      obtain ⟨trial, happly, hsmaller⟩ := hshrinks group hsub hne
      unfold searchRound
      refine Task.Ensures.bind (h.look rfl fun _ w₁ h₁ htrace₁ => ?_)
      split
      · exact Task.ensures_done (hQ _ w₁ trivial)
      refine Task.Ensures.bind (h₁.budgetStop fun stop w₂ h₂ htrace₂ hstop => ?_)
      cases stop with
      | some stop =>
        exact Task.ensures_done (hQ _ w₂ fun hcompleted => hstop (congrArg some hcompleted))
      | none =>
        dsimp only
        rw [happly]
        dsimp only
        refine Task.Ensures.bind (h₂.runTree (fun reason w₃ => ?_)
          fun entry w₃ h₃ htrace₃ hentry hlabel hbefore => ?_)
        · exact Task.ensures_done (hQ _ w₃ trivial)
        -- The group was run; the record changes neither the tree nor what was tried.
        dsimp only
        refine Task.Ensures.bind (Task.ensures_modify fun input => ?_)
        obtain ⟨h₄, htrace₄⟩ := h₃.quiet .record
          (fun _ session =>
            { session with
              reductionsTotal := session.reductionsTotal + 1
              attempts := session.attempts + 1
              reductions :=
                if session.reductions.length ≥ maxReductions then session.reductions
                else session.reductions ++ [reductionData reducer group
                  (convertEvidence entry.input.evidence)
                  (evaluateRun lowercase predicate baseline
                    (convertEvidence entry.input.evidence)) tree (session.reductionsTotal + 1)] })
          input rfl rfl
        have htrace := List.Subset.trans (List.Subset.trans (List.Subset.trans htrace₁ htrace₂)
          htrace₃) htrace₄
        refine ⟨h₄.descends, ?_⟩
        split
        · exact Task.Ensures.bind (h₄.acceptTree hsmaller fun w₅ h₅ =>
            Task.ensures_done (hQ _ w₅ ⟨h₅, hsmaller⟩))
        next hmatched =>
          rw [Bool.not_eq_true] at hmatched
          split
          next hlong =>
            have hsplit : stackSize (group.take (group.length / 2) ::
                group.drop (group.length / 2) :: stack) < _ := stackSize_split hlong
            exact ih (by omega) h₄ (hpending.split (fun _ htried => htried.later htrace) hlong)
          next hshort =>
            refine ih (by omega) h₄ (hpending.drop (fun _ htried => htried.later htrace) ?_ hshort)
            rintro unit rfl
            exact ⟨trial, happly, entry, htrace₄ hentry, hlabel, hbefore, hmatched⟩

variable (lowercase reducer predicate baseline size history) in
/-- A completed search has tried every unit of the last plan alone. -/
def SearchMinimizes (initial : SourceTree) (scope : RepairReductionScope) (w : MinimizeWorld) : SearchEnd → Prop
  | .ended final _ _ stopReason => stopReason = "completed" → Reached size history final w ∧
      ∃ skippedReferenced skippedScope, ∀ unit ∈
        (reducer.plan initial predicate scope final skippedReferenced skippedScope).1,
        TriedAlone lowercase reducer predicate baseline final w unit
  | .outOfFuel => False
  | .cancelled | .unavailable _ => True

lemma searchLoop_minimizes {fuel skippedReferenced skippedScope : ℕ} {initial : SourceTree}
    {scope : RepairReductionScope} (hshrinks : reducer.Shrinks size) (hfuel : size tree < fuel)
    (h : Reached size history tree w) :
    (searchLoop lowercase reducer predicate baseline budget initial scope fuel tree
      skippedReferenced skippedScope).Ensures (Descends size history)
      (fun result w' => SearchMinimizes lowercase reducer predicate baseline size history initial scope
        w' result) w := by
  induction fuel generalizing tree skippedReferenced skippedScope w with
  | zero => omega
  | succ fuel ih =>
    unfold searchLoop
    refine Task.Ensures.bind (h.look rfl fun _ w₁ h₁ _ => ?_)
    split
    · exact Task.ensures_done trivial
    refine Task.Ensures.bind (h₁.budgetStop fun stop w₂ h₂ _ hstop => ?_)
    cases stop with
    | some stop =>
      exact Task.ensures_done fun hcompleted => absurd (congrArg some hcompleted) hstop
    | none =>
      dsimp only
      have hgroups := hshrinks initial predicate scope tree skippedReferenced skippedScope
      generalize hplanned : (reducer.plan initial predicate scope tree skippedReferenced
        skippedScope).1 = plan at hgroups
      split
      next hempty =>
        refine Task.ensures_done fun _ => ⟨h₂, skippedReferenced, skippedScope, ?_⟩
        rw [hplanned, List.isEmpty_iff.mp hempty]
        simp
      next hplan =>
      have hne : plan ≠ [] := by simpa using hplan
      have hlen := List.length_pos_of_ne_nil hne
      have hsize : stackSize [plan] ≤ 2 * plan.length := by
        simp only [stackSize, List.map_cons, List.map_nil, List.sum_cons, List.sum_nil]
        omega
      have hpending : Pending (TriedAlone lowercase reducer predicate baseline tree w₂) plan
          [plan] := by
        refine ⟨fun group hgroup => ?_, fun unit hunit => Or.inr ⟨plan, by simp, hunit⟩⟩
        obtain rfl := List.mem_singleton.mp hgroup
        exact ⟨hne, List.Sublist.refl _⟩
      refine Task.Ensures.bind (searchRound_tries hsize hgroups h₂ hpending
        fun result w₃ hresult => ?_)
      cases result with
      | progressed trial =>
        obtain ⟨h₃, hsmaller⟩ := hresult
        exact ih (by omega) h₃
      | exhausted =>
        refine Task.ensures_done fun _ => ⟨hresult.1, skippedReferenced, skippedScope, ?_⟩
        rw [hplanned]
        exact hresult.2
      | stopped stop => exact Task.ensures_done fun hcompleted => absurd hcompleted hresult
      | outOfFuel => exact hresult.elim
      | cancelled => exact Task.ensures_done trivial
      | unavailable reason => exact Task.ensures_done trivial

end Search

/-! ## The reductions of the minimizer -/

section Offered

variable (tree : SourceTree) (scope : RepairReductionScope) (file : String) (anchor : Option ℕ)
  {offers offers' : Offers}

lemma units_offerItem (item : ParsedItem) (h : offers.units = offers'.units) :
    (offerItem tree scope file item offers).units = (offerItem tree scope file item offers').units := by
  unfold offerItem
  dsimp only
  split <;> split_ifs <;> simp [Offers.push, Offers.skipReferenced, Offers.skipScope, h]

mutual

lemma units_planItem : ∀ (item : ParsedItem) (offers offers' : Offers), offers.units = offers'.units →
    (planItem tree scope file anchor item offers).units = (planItem tree scope file anchor item offers').units
  | .mk kind start stop body name pathAttr test children, offers, offers', h => by
    unfold planItem
    split
    · split
      · exact units_planItems children offers offers' h
      · exact h
    · exact units_offerItem tree scope file _ h

lemma units_planItems : ∀ (items : List ParsedItem) (offers offers' : Offers),
    offers.units = offers'.units → (planItems tree scope file anchor items offers).units =
      (planItems tree scope file anchor items offers').units
  | [], offers, offers', h => by
    unfold planItems
    exact h
  | item :: items, offers, offers', h => by
    unfold planItems
    rw [h]
    split
    · exact h
    · exact units_planItems items _ _ (units_planItem item offers offers' h)

end

lemma units_foldl {β : Type} {turn : Offers → β → Offers} (hturn : ∀ offers offers' b, offers.units = offers'.units →
      (turn offers b).units = (turn offers' b).units) (entries : List β) (h : offers.units = offers'.units) :
    (entries.foldl turn offers).units = (entries.foldl turn offers').units := by
  induction entries generalizing offers offers' with
  | nil => exact h
  | cons entry entries ih => exact ih (hturn offers offers' entry h)

lemma units_planUnits (target : TargetSite) (skippedReferenced skippedScope skippedReferenced' skippedScope' : ℕ) :
    (planUnits tree scope target skippedReferenced skippedScope).units =
      (planUnits tree scope target skippedReferenced' skippedScope').units := by
  have hfile : ∀ offers offers' entry, offers.units = offers'.units →
      (planFileItems tree scope target offers entry).units =
        (planFileItems tree scope target offers' entry).units := by
    intro offers offers' entry h
    unfold planFileItems
    rw [h]
    split
    · exact h
    · exact units_planItems tree scope entry.1 _ _ offers offers' h
  have hdelete : ∀ referenced offers offers', offers.units = offers'.units →
      (planFiles tree target referenced offers).units = (planFiles tree target referenced offers').units := by
    intro referenced offers offers' h
    refine units_foldl (fun offers offers' file h => ?_) tree.keys h
    rw [h]
    split_ifs
    · exact h
    · exact h
    · simp [Offers.push, h]
  unfold planUnits
  dsimp only
  congr 2
  split_ifs
  · exact hdelete _ _ _ (units_foldl hfile tree.toList rfl)
  · exact hdelete _ _ _ rfl
  · exact units_foldl hfile tree.toList rfl
  · rfl

end Offered

/-- Every group that the minimizer plans can be applied, and removes something. -/
theorem rustReducer_shrinks : rustReducer.Shrinks treeSize :=
  fun _ _ scope tree _ _ _ hsub hne =>
    applyUnits_shrinks ((wellPlanned_planUnits tree scope _ _ _).sublist hsub) hne

/-- The search as `minimize` starts it, with room for a number of rounds. -/
def searchFrom (lowercase : String → String) (reducer : Reducer) (predicate : FailurePredicate)
    (baseline : List String) (budget : RepairBudget) (scope : RepairReductionScope) (rounds : ℕ)
    (initial : SourceTree) : MinimizeTask SearchEnd := do
  acceptTree initial
  searchLoop lowercase reducer predicate baseline budget initial scope rounds initial 0 0

/-- Every accepted tree is smaller than the one before it, so that the rounds are bounded whatever
the budget; and when the search ends completed, every unit that is offered for its last tree was
tried alone on it and rejected. -/
theorem search_ends_in_local_minimum (lowercase : String → String) (predicate : FailurePredicate)
    (baseline : List String) (budget : RepairBudget) (scope : RepairReductionScope)
    (initial : SourceTree) (spare : ℕ) (w : MinimizeWorld) :
    (searchFrom lowercase rustReducer predicate baseline budget scope
        (treeSize initial + 1 + spare) initial).Ensures
      (Descends treeSize (acceptedTrees w))
      (fun result w' => result ≠ .outOfFuel ∧ ∀ final skippedReferenced skippedScope,
          result = .ended final skippedReferenced skippedScope "completed" →
            (acceptedTrees w').getLast? = some final ∧
              ∀ unit ∈ (planUnits final scope (TargetSite.locate initial predicate) 0 0).units,
                TriedAlone lowercase rustReducer predicate baseline final w' unit) w := by
  refine Task.Ensures.bind (Task.ensures_modify fun input => ?_)
  have hreached : Reached treeSize (acceptedTrees w) initial (w.after 0 (.accept initial)
      (fun _ session => { session with current := some initial }) input) :=
    ⟨rfl, [initial], acceptedTrees_after _ _ _, List.isChain_singleton _, rfl⟩
  refine ⟨hreached.descends, Task.Ensures.mono
    (searchLoop_minimizes rustReducer_shrinks (by omega) hreached) fun result w' hresult => ?_⟩
  refine ⟨fun hfuel => by rw [hfuel] at hresult; exact hresult, ?_⟩
  rintro final referenced outside rfl
  obtain ⟨⟨-, steps, haccepted, -, hlast⟩, r, s, htried⟩ := hresult rfl
  refine ⟨?_, fun unit hunit => htried unit ?_⟩
  · rw [haccepted, List.getLast?_append, hlast]
    rfl
  · rw [units_planUnits final scope (TargetSite.locate initial predicate) 0 0 r s] at hunit
    exact hunit

end AgzRustMcp
