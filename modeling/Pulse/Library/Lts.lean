import Mathlib.Logic.Basic

/-! Machines given by a partial step function. Runs may be restricted to steps
which meet a condition on the state before the step and the action taken. -/
namespace Library.Lts
universe u v
variable {State : Type u} {Action : Type v}

/-- A machine starts in any state of `init`; `step` is `none` where the action
is not enabled. -/
structure Machine (State : Type u) (Action : Type v) where
  init : State → Prop
  step : State → Action → Option State

variable {machine : Machine State Action} {allowed : State → Action → Prop}

/-- No step is excluded. -/
def anyStep (_ : State) (_ : Action) : Prop := True

/-- States joined by steps which all meet `allowed`. -/
inductive Machine.Path (machine : Machine State Action) (allowed : State → Action → Prop)
    (origin : State) : State → Prop where
  | refl : Path machine allowed origin origin
  | step {state next : State} {action : Action} (earlier : Path machine allowed origin state)
      (permitted : allowed state action) (taken : machine.step state action = some next) :
      Path machine allowed origin next

/-- States joined to an initial state by steps which all meet `allowed`. -/
def Machine.Reachable (machine : Machine State Action) (allowed : State → Action → Prop)
    (state : State) : Prop :=
  ∃ origin, machine.init origin ∧ machine.Path allowed origin state

theorem Machine.Reachable.start {state : State} (initial : machine.init state) :
    machine.Reachable allowed state :=
  ⟨state, initial, .refl⟩

theorem Machine.Reachable.extend {state next : State} {action : Action}
    (earlier : machine.Reachable allowed state) (permitted : allowed state action)
    (taken : machine.step state action = some next) : machine.Reachable allowed next := by
  obtain ⟨origin, initial, path⟩ := earlier
  exact ⟨origin, initial, .step path permitted taken⟩

/-- What one step preserves, a whole run preserves. -/
theorem Machine.Path.preserves {property : State → Prop}
    (stable : ∀ state action next, property state → allowed state action →
      machine.step state action = some next → property next)
    {origin state : State} (path : machine.Path allowed origin state)
    (holds : property origin) : property state := by
  induction path with
  | refl => exact holds
  | step earlier permitted taken ih => exact stable _ _ _ ih permitted taken

/-- The invariant rule: it holds at the start and every permitted step keeps it. -/
theorem Machine.Reachable.invariant {property : State → Prop}
    (initially : ∀ state, machine.init state → property state)
    (stable : ∀ state action next, property state → allowed state action →
      machine.step state action = some next → property next)
    {state : State} (reachable : machine.Reachable allowed state) : property state := by
  obtain ⟨origin, initial, path⟩ := reachable
  exact path.preserves stable (initially origin initial)

/-- A run under a stronger condition is a run under a weaker one, where an
invariant of the run may be used to weaken it. -/
theorem Machine.Reachable.weaken {wider : State → Action → Prop} {property : State → Prop}
    (holds : ∀ state, machine.Reachable allowed state → property state)
    (included : ∀ state action, property state → allowed state action → wider state action)
    {state : State} (reachable : machine.Reachable allowed state) :
    machine.Reachable wider state := by
  obtain ⟨origin, initial, path⟩ := reachable
  induction path with
  | refl => exact .start initial
  | step earlier permitted taken ih =>
    exact ih.extend (included _ _ (holds _ ⟨origin, initial, earlier⟩) permitted) taken

/-- The rest of a run from a reachable state stays among the reachable states. -/
theorem Machine.Reachable.path {origin state : State}
    (reachable : machine.Reachable allowed origin) (path : machine.Path allowed origin state) :
    machine.Reachable allowed state := by
  induction path with
  | refl => exact reachable
  | step earlier permitted taken ih => exact ih.extend permitted taken

/-- Perform a list of actions, stopping at the first which is not enabled or
does not meet the condition. -/
def Machine.run (machine : Machine State Action) (allowed : State → Action → Prop)
    [∀ state action, Decidable (allowed state action)] : State → List Action → Option State
  | state, [] => some state
  | state, action :: rest =>
    if allowed state action then
      (machine.step state action).bind fun next => machine.run allowed next rest
    else none

instance (state : State) (action : Action) : Decidable (anyStep state action) :=
  inferInstanceAs (Decidable True)

theorem Machine.run_cons [∀ state action, Decidable (allowed state action)] {origin state : State}
    {action : Action} {rest : List Action} :
    machine.run allowed origin (action :: rest) = some state ↔
      allowed origin action ∧ ∃ next, machine.step origin action = some next ∧
        machine.run allowed next rest = some state := by
  rw [Machine.run]
  split
  · rename_i permitted
    rw [Option.bind_eq_some_iff]
    exact ⟨fun ran => ⟨permitted, ran⟩, And.right⟩
  · rename_i refused
    exact ⟨fun ran => (nomatch ran), fun ran => absurd ran.1 refused⟩

theorem Machine.path_of_run [∀ state action, Decidable (allowed state action)]
    (actions : List Action) {origin state : State}
    (ran : machine.run allowed origin actions = some state) :
    machine.Path allowed origin state := by
  have general : ∀ (actions : List Action) (middle : State),
      machine.Path allowed origin middle → machine.run allowed middle actions = some state →
      machine.Path allowed origin state := by
    intro actions
    induction actions with
    | nil =>
      intro middle path ran
      cases Option.some.inj ran
      exact path
    | cons action rest ih =>
      intro middle path ran
      obtain ⟨permitted, next, taken, remaining⟩ := Machine.run_cons.mp ran
      exact ih next (.step path permitted taken) remaining
  exact general actions origin .refl ran

/-- The rule for an exact condition: where a step keeps the property if and only if it
meets the condition, and nothing restores the property, the runs which keep it are
those whose steps all meet the condition. -/
theorem Machine.run_exact {condition : State → Action → Prop} {invariant property : State → Prop}
    [∀ state action, Decidable (allowed state action)]
    [∀ state action, Decidable (condition state action)]
    (stable : ∀ state action next, invariant state → allowed state action →
      machine.step state action = some next → invariant next)
    (exact' : ∀ state action next, invariant state → property state → allowed state action →
      machine.step state action = some next → (property next ↔ condition state action))
    (persists : ∀ state action next, invariant state → allowed state action →
      machine.step state action = some next → property next → property state)
    (actions : List Action) {origin state : State} (start : invariant origin)
    (holds : property origin) (ran : machine.run allowed origin actions = some state) :
    property state ↔ machine.run (fun state action => allowed state action ∧ condition state action)
      origin actions = some state := by
  have backwards : ∀ (actions : List Action) (origin : State), invariant origin →
      machine.run allowed origin actions = some state → property state → property origin := by
    intro actions
    induction actions with
    | nil =>
      intro origin _ ran holds
      cases Option.some.inj ran
      exact holds
    | cons action rest ih =>
      intro origin start ran holds
      obtain ⟨permitted, next, taken, remaining⟩ := Machine.run_cons.mp ran
      have later := stable _ _ _ start permitted taken
      exact persists _ _ _ start permitted taken (ih next later remaining holds)
  induction actions generalizing origin with
  | nil =>
    cases Option.some.inj ran
    exact ⟨fun _ => rfl, fun _ => holds⟩
  | cons action rest ih =>
    obtain ⟨permitted, next, taken, remaining⟩ := Machine.run_cons.mp ran
    have later := stable _ _ _ start permitted taken
    have kept := exact' _ _ _ start holds permitted taken
    rw [Machine.run_cons]
    constructor
    · intro final
      have meets := backwards rest next later remaining final
      exact ⟨⟨permitted, kept.mp meets⟩, next, taken, (ih later meets remaining).mp final⟩
    · rintro ⟨⟨_, meets⟩, other, same, finished⟩
      cases Option.some.inj (same.symm.trans taken)
      exact (ih later (kept.mpr meets) remaining).mpr finished

/-- A run whose last state passes a check. -/
theorem Machine.path_of_check [∀ state action, Decidable (allowed state action)]
    {origin : State} (actions : List Action) {check : State → Bool}
    (passes : (machine.run allowed origin actions).any check = true) :
    ∃ state, machine.Path allowed origin state ∧ check state = true := by
  cases ran : machine.run allowed origin actions with
  | none => simp [ran] at passes
  | some state =>
    exact ⟨state, Machine.path_of_run actions ran, by simpa [ran] using passes⟩

theorem Machine.reachable_of_check [∀ state action, Decidable (allowed state action)]
    {origin : State} (initial : machine.init origin) (actions : List Action)
    {check : State → Bool} (passes : (machine.run allowed origin actions).any check = true) :
    ∃ state, machine.Reachable allowed state ∧ check state = true := by
  obtain ⟨state, path, checked⟩ := Machine.path_of_check actions passes
  exact ⟨state, ⟨origin, initial, path⟩, checked⟩

/-! Records of a run. -/

section Recorded
variable {Record : Type*} {start : Record → Prop} {note : State → Action → Record → Record}
  {watched : State × Record → Action → Prop}

/-- The machine with a record of its run beside each state. No step looks at it. -/
def Machine.recorded (machine : Machine State Action) (start : Record → Prop)
    (note : State → Action → Record → Record) : Machine (State × Record) Action where
  init := fun pair => machine.init pair.1 ∧ start pair.2
  step := fun pair action =>
    (machine.step pair.1 action).map fun next => (next, note pair.1 action pair.2)

theorem Machine.recorded_step {pair next : State × Record} {action : Action}
    (taken : (machine.recorded start note).step pair action = some next) :
    machine.step pair.1 action = some next.1 ∧ next.2 = note pair.1 action pair.2 := by
  obtain ⟨state, made, rfl⟩ := Option.map_eq_some_iff.mp taken
  exact ⟨made, rfl⟩

/-- A recorded run is a run. -/
theorem Machine.Reachable.forget {pair : State × Record}
    (reachable : (machine.recorded start note).Reachable watched pair) :
    machine.Reachable anyStep pair.1 := by
  obtain ⟨origin, initial, path⟩ := reachable
  induction path with
  | refl => exact .start initial.1
  | step earlier permitted taken ih => exact ih.extend trivial (Machine.recorded_step taken).1

end Recorded

end Library.Lts
