import AgzRustMcp.Foundation.Runs

/-!
# Tasks that share a state

A `Task` is a program whose atomic steps act on a shared state: between two steps any other task may
act.  Every step carries a label, may have to wait, and receives an input from outside.

A `Pool` runs tasks under an arbitrary schedule.  The proof rule is the one of rely and guarantee:
`Moves j` says what task `j` may do to the world, `Task.Meets i t Q` that a task that is run as
number `i` does no more and ends in `Q`, and `Pool.meets_run` combines such statements into one
about every schedule.
-/

namespace Tasks

open Relation (ReflTransGen)

/-- A program of atomic steps on `σ`, with inputs `ε` and labels `ℓ`. -/
inductive Task (σ ε ℓ α : Type) : Type
  | done (a : α)
  | step (label : ℓ) (ready : σ → Bool) (act : ε → σ → σ) (next : ε → σ → Task σ ε ℓ α)

variable {σ ε ℓ α β : Type}

namespace Task

/-- Runs one task and then the task that its result selects. -/
def bind : Task σ ε ℓ α → (α → Task σ ε ℓ β) → Task σ ε ℓ β
  | done a, f => f a
  | step label ready act next, f => step label ready act fun e s => (next e s).bind f

instance : Monad (Task σ ε ℓ) where
  pure := done
  bind := bind

@[simp] lemma pure_def (a : α) : (pure a : Task σ ε ℓ α) = done a := rfl

@[simp] lemma done_bind (a : α) (f : α → Task σ ε ℓ β) : (done a >>= f) = f a := rfl

@[simp] lemma step_bind (label : ℓ) (ready : σ → Bool) (act : ε → σ → σ)
    (next : ε → σ → Task σ ε ℓ α) (f : α → Task σ ε ℓ β) :
    (step label ready act next >>= f) = step label ready act fun e s => next e s >>= f := rfl

/-- One step that is always ready and changes the state. -/
def modify (label : ℓ) (act : ε → σ → σ) : Task σ ε ℓ Unit :=
  step label (fun _ => true) act fun _ _ => done ()

/-- One step that is always ready and looks at the input and the state. -/
def look (label : ℓ) (value : ε → σ → α) : Task σ ε ℓ α :=
  step label (fun _ => true) (fun _ s => s) fun e s => done (value e s)

/-- Runs a task alone on inputs; nothing when it does not end. -/
def alone : Task σ ε ℓ α → List ε → σ → σ × Option α
  | done a, _, s => (s, some a)
  | step _ _ _ _, [], s => (s, none)
  | step _ ready act next, e :: inputs, s =>
    if ready s then (next e s).alone inputs (act e s) else (s, none)

/-! ### Running alone -/

variable {label : ℓ} {act : ε → σ → σ} {inputs : List ε} {s s' : σ} {a : α}

lemma of_alone_step {ready : σ → Bool} {next : ε → σ → Task σ ε ℓ α}
    (h : (step label ready act next).alone inputs s = (s', some a)) :
    ∃ e rest, inputs = e :: rest ∧ ready s = true ∧ (next e s).alone rest (act e s) = (s', some a) := by
  cases inputs with
  | nil => simp [alone] at h
  | cons e rest =>
    by_cases hready : ready s = true
    · exact ⟨e, rest, rfl, hready, by simpa [alone, hready] using h⟩
    · simp [alone, hready] at h

lemma of_alone_bind {task : Task σ ε ℓ α} {f : α → Task σ ε ℓ β} {b : β}
    (h : (task >>= f).alone inputs s = (s', some b)) :
    ∃ a mid used rest, inputs = used ++ rest ∧ task.alone used s = (mid, some a) ∧
      (f a).alone rest mid = (s', some b) := by
  induction task generalizing inputs s with
  | done a => exact ⟨a, s, [], inputs, rfl, rfl, h⟩
  | step label ready act next ih =>
    rw [step_bind] at h
    obtain ⟨e, rest, rfl, hready, hrest⟩ := of_alone_step h
    obtain ⟨a, mid, used, rest', rfl, hfirst, hsecond⟩ := ih e s hrest
    exact ⟨a, mid, e :: used, rest', rfl, by simpa [alone, hready] using hfirst, hsecond⟩

lemma of_alone_done {a' : α} (h : (done a : Task σ ε ℓ α).alone inputs s = (s', some a')) : s' = s ∧ a' = a := by
  cases inputs <;> cases h <;> exact ⟨rfl, rfl⟩

lemma of_alone_look {value : ε → σ → α}
    (h : (look label value).alone inputs s = (s', some a)) : s' = s ∧ ∃ e, a = value e s := by
  obtain ⟨e, rest, -, -, h⟩ := of_alone_step h
  obtain ⟨rfl, rfl⟩ := of_alone_done h
  exact ⟨rfl, e, rfl⟩

lemma of_alone_modify {a : Unit} (h : (modify label act).alone inputs s = (s', some a)) : ∃ e, s' = act e s := by
  obtain ⟨e, rest, -, -, h⟩ := of_alone_step h
  exact ⟨e, (of_alone_done h).1⟩

/-- Two tasks make corresponding steps from related states and return the same value. -/
inductive Alike (R : σ → σ → Prop) : Task σ ε ℓ α → Task σ ε ℓ α → Prop
  | done (a : α) : Alike R (done a) (done a)
  | step {label label' : ℓ} {ready ready' : σ → Bool} {act act' : ε → σ → σ}
      {next next' : ε → σ → Task σ ε ℓ α} (hready : ∀ s s', R s s' → ready s = ready' s')
      (hact : ∀ e s s', R s s' → R (act e s) (act' e s'))
      (hnext : ∀ e s s', R s s' → Alike R (next e s) (next' e s')) :
      Alike R (step label ready act next) (step label' ready' act' next')

variable {R : σ → σ → Prop} {task task' : Task σ ε ℓ α}

lemma Alike.bind {f f' : α → Task σ ε ℓ β} (h : Alike R task task')
    (hf : ∀ a, Alike R (f a) (f' a)) : Alike R (task >>= f) (task' >>= f') := by
  induction h with
  | done a => exact hf a
  | step hready hact _ ih => exact .step hready hact ih

lemma Alike.alone (h : Alike R task task') (hR : R s s') (inputs : List ε) :
    (task.alone inputs s).2 = (task'.alone inputs s').2 ∧ R (task.alone inputs s).1 (task'.alone inputs s').1 := by
  induction h generalizing s s' inputs with
  | done a => cases inputs <;> exact ⟨rfl, hR⟩
  | @step _ _ ready ready' _ _ _ _ hready hact _ ih =>
    cases inputs with
    | nil => exact ⟨rfl, hR⟩
    | cons e inputs =>
      simp only [Task.alone, ← hready s s' hR]
      split
      · exact ih e s s' hR (hact e s s' hR) inputs
      · exact ⟨rfl, hR⟩

end Task

/-! ## Schedules -/

/-- One step of the history: who made it, its label, its input and the state before it. -/
structure Entry (σ ε ℓ : Type) where
  task : ℕ
  label : ℓ
  input : ε
  before : σ

/-- The shared state and the history of all steps so far. -/
structure World (σ ε ℓ : Type) where
  state : σ
  trace : List (Entry σ ε ℓ)

def World.after (w : World σ ε ℓ) (i : ℕ) (label : ℓ) (act : ε → σ → σ) (e : ε) : World σ ε ℓ :=
  ⟨act e w.state, w.trace ++ [⟨i, label, e, w.state⟩]⟩

@[simp] lemma World.after_state (w : World σ ε ℓ) (i : ℕ) (label : ℓ) (act : ε → σ → σ) (e : ε) :
    (w.after i label act e).state = act e w.state := rfl

@[simp] lemma World.after_trace (w : World σ ε ℓ) (i : ℕ) (label : ℓ) (act : ε → σ → σ) (e : ε) :
    (w.after i label act e).trace = w.trace ++ [⟨i, label, e, w.state⟩] := rfl

/-- Tasks over one shared world. -/
structure Pool (σ ε ℓ α : Type) where
  world : World σ ε ℓ
  tasks : List (Task σ ε ℓ α)

/-- The pool in which no task has made a step. -/
def Pool.start (s : σ) (tasks : List (Task σ ε ℓ α)) : Pool σ ε ℓ α := ⟨⟨s, []⟩, tasks⟩

/-- Lets one task make its next step, if it has one and need not wait. -/
def Pool.turn (pool : Pool σ ε ℓ α) (choice : ℕ × ε) : Pool σ ε ℓ α :=
  match pool.tasks[choice.1]? with
  | some (.step label ready act next) =>
    if ready pool.world.state then
      { world := pool.world.after choice.1 label act choice.2
        tasks := pool.tasks.set choice.1 (next choice.2 pool.world.state) }
    else pool
  | _ => pool

def Pool.run (pool : Pool σ ε ℓ α) (schedule : List (ℕ × ε)) : Pool σ ε ℓ α :=
  Runs.run Pool.turn pool schedule

/-- A condition on the next step of a task, at a turn of the pool. -/
def Pool.Allowed (cond : World σ ε ℓ → ℕ → ℓ → ε → Prop) (pool : Pool σ ε ℓ α) (choice : ℕ × ε) : Prop :=
  ∀ label ready act next, pool.tasks[choice.1]? = some (.step label ready act next) →
    ready pool.world.state = true → cond pool.world choice.1 label choice.2

/-- Every step of the run meets the condition in the world in which it is made. -/
def Pool.Along (cond : World σ ε ℓ → ℕ → ℓ → ε → Prop) (pool : Pool σ ε ℓ α) (schedule : List (ℕ × ε)) : Prop :=
  Runs.Along Pool.turn (Pool.Allowed cond) pool schedule

/-- Whether the next step of a task meets a decidable condition can be checked. -/
instance Pool.decidableAllowed {cond : World σ ε ℓ → ℕ → ℓ → ε → Prop}
    [∀ w i label e, Decidable (cond w i label e)] (pool : Pool σ ε ℓ α) (choice : ℕ × ε) :
    Decidable (pool.Allowed cond choice) :=
  match htask : pool.tasks[choice.1]? with
  | none => .isTrue fun _ _ _ _ h => by simp [htask] at h
  | some (.done _) => .isTrue fun _ _ _ _ h => by simp [htask] at h
  | some (.step label ready _ _) =>
    decidable_of_iff (ready pool.world.state = true → cond pool.world choice.1 label choice.2)
      ⟨fun h _ _ _ _ hstep hready => by cases htask.symm.trans hstep; exact h hready,
        fun h hready => h _ _ _ _ htask hready⟩

/-- Whether a decidable condition holds along a run can be checked. -/
instance Pool.decidableAlong {cond : World σ ε ℓ → ℕ → ℓ → ε → Prop}
    [∀ w i label e, Decidable (cond w i label e)] (pool : Pool σ ε ℓ α)
    (schedule : List (ℕ × ε)) : Decidable (pool.Along cond schedule) :=
  inferInstanceAs (Decidable (Runs.Along Pool.turn (Pool.Allowed cond) pool schedule))

lemma Pool.turn_cases (pool : Pool σ ε ℓ α) (choice : ℕ × ε) :
    pool.turn choice = pool ∨ ∃ label ready act next, pool.tasks[choice.1]? = some (.step label ready act next) ∧
        ready pool.world.state = true ∧ pool.turn choice =
          { world := pool.world.after choice.1 label act choice.2
            tasks := pool.tasks.set choice.1 (next choice.2 pool.world.state) } := by
  cases htask : pool.tasks[choice.1]? with
  | none => exact Or.inl (by simp [turn, htask])
  | some task =>
    cases task with
    | done a => exact Or.inl (by simp [turn, htask])
    | step label ready act next =>
      by_cases hready : ready pool.world.state = true
      · exact Or.inr ⟨label, ready, act, next, rfl, hready, by simp [turn, htask, hready]⟩
      · exact Or.inl (by simp [turn, htask, hready])

/-! ## Rely and guarantee -/

section RelyGuarantee

variable (moves : ℕ → World σ ε ℓ → World σ ε ℓ → Prop) (cond : World σ ε ℓ → ℕ → ℓ → ε → Prop) (i : ℕ)

/-- What the other tasks may do between two steps of task `i`. -/
def Others : World σ ε ℓ → World σ ε ℓ → Prop :=
  ReflTransGen fun w w' => ∃ j, j ≠ i ∧ moves j w w'

/-- A property of the world that no step of another task destroys. -/
def Stable (P : World σ ε ℓ → Prop) : Prop := ∀ j, j ≠ i → ∀ w w', moves j w w' → P w → P w'

/-- Run among tasks that make only their moves, the task ends in `Q`. -/
def Task.Meets : Task σ ε ℓ α → (α → World σ ε ℓ → Prop) → World σ ε ℓ → Prop
  | .done a, Q, w => ∀ w', Others moves i w w' → Q a w'
  | .step label ready act next, Q, w => ∀ w', Others moves i w w' → ready w'.state = true →
      ∀ e, cond w' i label e → moves i w' (w'.after i label act e) ∧
          (next e w'.state).Meets Q (w'.after i label act e)

variable {moves cond i} {P : World σ ε ℓ → Prop} {Q Q' : α → World σ ε ℓ → Prop}
  {w w' : World σ ε ℓ} {task : Task σ ε ℓ α}

lemma Stable.others (h : Stable moves i P) (hw : P w) (hothers : Others moves i w w') : P w' := by
  induction hothers with
  | refl => exact hw
  | tail _ hstep ih =>
    obtain ⟨j, hj, hmove⟩ := hstep
    exact h j hj _ _ hmove ih

lemma Task.Meets.others (h : task.Meets moves cond i Q w) (hothers : Others moves i w w') :
    task.Meets moves cond i Q w' := by
  cases task with
  | done a => exact fun w'' hw'' => h w'' (hothers.trans hw'')
  | step label ready act next => exact fun w'' hw'' => h w'' (hothers.trans hw'')

lemma Task.Meets.bind {f : α → Task σ ε ℓ β} {Q : β → World σ ε ℓ → Prop}
    (h : task.Meets moves cond i (fun a w => (f a).Meets moves cond i Q w) w) :
    (task >>= f).Meets moves cond i Q w := by
  induction task generalizing w with
  | done a => exact h w .refl
  | step label ready act next ih =>
    intro w' hothers hready e hcond
    obtain ⟨hmove, hnext⟩ := h w' hothers hready e hcond
    exact ⟨hmove, ih e w'.state hnext⟩

lemma Task.Meets.mono (h : task.Meets moves cond i Q w) (hQ : ∀ a w, Q a w → Q' a w) :
    task.Meets moves cond i Q' w := by
  induction task generalizing w with
  | done a => exact fun w' hothers => hQ a w' (h w' hothers)
  | step label ready act next ih =>
    intro w' hothers hready e hcond
    obtain ⟨hmove, hnext⟩ := h w' hothers hready e hcond
    exact ⟨hmove, ih e w'.state hnext⟩

lemma Task.meets_step {label : ℓ} {ready : σ → Bool} {act : ε → σ → σ}
    {next : ε → σ → Task σ ε ℓ α} (hstable : Stable moves i P) (hw : P w)
    (h : ∀ w', P w' → ready w'.state = true → ∀ e, cond w' i label e → moves i w' (w'.after i label act e) ∧
        (next e w'.state).Meets moves cond i Q (w'.after i label act e)) :
    (Task.step label ready act next).Meets moves cond i Q w :=
  fun w' hothers hready e hcond => h w' (hstable.others hw hothers) hready e hcond

/-- Every task of the pool meets its moves and ends as it should. -/
def Pool.Meet (moves : ℕ → World σ ε ℓ → World σ ε ℓ → Prop)
    (cond : World σ ε ℓ → ℕ → ℓ → ε → Prop) (Q : ℕ → α → World σ ε ℓ → Prop) (pool : Pool σ ε ℓ α) : Prop :=
  ∀ i, ∀ task : Task σ ε ℓ α, pool.tasks[i]? = some task → task.Meets moves cond i (Q i) pool.world

variable {pool : Pool σ ε ℓ α} {Q : ℕ → α → World σ ε ℓ → Prop} {schedule : List (ℕ × ε)}

lemma Pool.meets_turn {choice : ℕ × ε} (h : pool.Meet moves cond Q) (hcond : pool.Allowed cond choice) :
    (pool.turn choice).Meet moves cond Q ∧ ((pool.turn choice).world = pool.world ∨
      moves choice.1 pool.world (pool.turn choice).world) := by
  rcases pool.turn_cases choice with heq | ⟨label, ready, act, next, htask, hready, heq⟩
  · rw [heq]
    exact ⟨h, Or.inl rfl⟩
  · obtain ⟨hmove, hnext⟩ := h _ _ htask pool.world .refl hready choice.2
      (hcond label ready act next htask hready)
    rw [heq]
    refine ⟨fun i t ht => ?_, Or.inr hmove⟩
    by_cases hi : i = choice.1
    · subst hi
      have hlt : choice.1 < pool.tasks.length := (List.getElem?_eq_some_iff.mp htask).1
      rw [List.getElem?_set_self hlt] at ht
      obtain rfl := Option.some.inj ht
      exact hnext
    · rw [List.getElem?_set_ne (Ne.symm hi)] at ht
      exact (h i t ht).others (.single ⟨choice.1, Ne.symm hi, hmove⟩)

/-- Tasks that meet their moves alone do so under every schedule. -/
theorem Pool.meets_run (h : pool.Meet moves cond Q) (hcond : pool.Along cond schedule) :
    (pool.run schedule).Meet moves cond Q ∧
      ReflTransGen (fun w w' => ∃ j, moves j w w') pool.world (pool.run schedule).world := by
  induction schedule generalizing pool with
  | nil => exact ⟨h, .refl⟩
  | cons choice schedule ih =>
    obtain ⟨hturn, hstep⟩ := Pool.meets_turn h hcond.1
    obtain ⟨hrest, hmoves⟩ := ih hturn hcond.2
    refine ⟨hrest, ?_⟩
    rcases hstep with heq | hmove
    · rw [heq] at hmoves
      exact hmoves
    · exact .head ⟨choice.1, hmove⟩ hmoves

lemma Pool.result_run (h : pool.Meet moves cond Q) (hcond : pool.Along cond schedule) {i : ℕ} {a : α}
    (ha : (pool.run schedule).tasks[i]? = some (.done a)) : Q i a (pool.run schedule).world :=
  (Pool.meets_run h hcond).1 i _ ha _ .refl

lemma Pool.invariant_run {I : World σ ε ℓ → Prop}
    (h : pool.Meet moves cond Q) (hcond : pool.Along cond schedule) (hI : I pool.world)
    (hmove : ∀ j w w', moves j w w' → I w → I w') : I (pool.run schedule).world := by
  have hmoves := (Pool.meets_run h hcond).2
  generalize (pool.run schedule).world = w at hmoves
  induction hmoves with
  | refl => exact hI
  | tail _ hstep ih =>
    obtain ⟨j, hj⟩ := hstep
    exact hmove j _ _ hj ih

end RelyGuarantee

/-! ## A task on its own -/

section Solo

variable (I : World σ ε ℓ → Prop)

/-- The only task makes steps that keep `I`. -/
def Solo : ℕ → World σ ε ℓ → World σ ε ℓ → Prop := fun j _ w' => j = 0 ∧ I w'

/-- Run on its own, the task keeps `I` at every step and ends in `Q`. -/
def Task.Ensures (task : Task σ ε ℓ α) (Q : α → World σ ε ℓ → Prop) (w : World σ ε ℓ) : Prop :=
  task.Meets (Solo I) (fun _ _ _ _ => True) 0 Q w

variable {I} {Q Q' : α → World σ ε ℓ → Prop} {w w' : World σ ε ℓ} {task : Task σ ε ℓ α}

lemma eq_of_others_solo (h : Others (Solo I) 0 w w') : w' = w := by
  induction h with
  | refl => rfl
  | tail _ hstep _ =>
    obtain ⟨j, hj, hmove⟩ := hstep
    exact absurd hmove.1 hj

lemma Task.ensures_done {a : α} (h : Q a w) : (Task.done a).Ensures I Q w :=
  fun _ hothers => (eq_of_others_solo hothers).symm ▸ h

variable {label : ℓ}

lemma Task.ensures_step {ready : σ → Bool} {act : ε → σ → σ} {next : ε → σ → Task σ ε ℓ α}
    (h : ready w.state = true → ∀ e, I (w.after 0 label act e) ∧
      (next e w.state).Ensures I Q (w.after 0 label act e)) : (Task.step label ready act next).Ensures I Q w := by
  intro w' hothers hready e _
  obtain rfl := eq_of_others_solo hothers
  exact ⟨⟨rfl, (h hready e).1⟩, (h hready e).2⟩

lemma Task.ensures_look {value : ε → σ → α}
    (h : ∀ e, I (w.after 0 label (fun _ s => s) e) ∧ Q (value e w.state) (w.after 0 label (fun _ s => s) e)) :
    (Task.look label value).Ensures I Q w :=
  Task.ensures_step fun _ e => ⟨(h e).1, Task.ensures_done (h e).2⟩

lemma Task.ensures_modify {act : ε → σ → σ} {Q : Unit → World σ ε ℓ → Prop}
    (h : ∀ e, I (w.after 0 label act e) ∧ Q () (w.after 0 label act e)) : (Task.modify label act).Ensures I Q w :=
  Task.ensures_step fun _ e => ⟨(h e).1, Task.ensures_done (h e).2⟩

lemma Task.Ensures.bind {f : α → Task σ ε ℓ β} {Q : β → World σ ε ℓ → Prop}
    (h : task.Ensures I (fun a w => (f a).Ensures I Q w) w) : (task >>= f).Ensures I Q w :=
  Task.Meets.bind h

lemma Task.Ensures.mono (h : task.Ensures I Q w) (hQ : ∀ a w, Q a w → Q' a w) : task.Ensures I Q' w :=
  Task.Meets.mono h hQ

/-- What a task ensures holds in every run of it. -/
theorem Pool.ensures_run {s : σ} {schedule : List (ℕ × ε)} (h : task.Ensures I Q ⟨s, []⟩)
    (hI : I ⟨s, []⟩) : I ((Pool.start s [task]).run schedule).world ∧
      ∀ a, ((Pool.start s [task]).run schedule).tasks[0]? = some (.done a) →
        Q a ((Pool.start s [task]).run schedule).world := by
  have hmeet : (Pool.start s [task]).Meet (Solo I) (fun _ _ _ _ => True) fun _ => Q := by
    intro i t ht
    cases i with
    | zero =>
      obtain rfl := Option.some.inj ht
      exact h
    | succ i => simp [Pool.start] at ht
  have halong : (Pool.start s [task]).Along (fun _ _ _ _ => True) schedule :=
    Runs.along_of_forall fun _ _ _ _ _ _ _ _ => trivial
  exact ⟨Pool.invariant_run hmeet halong hI fun _ _ _ hmove _ => hmove.2,
    fun a ha => Pool.result_run hmeet halong ha⟩

end Solo

end Tasks
