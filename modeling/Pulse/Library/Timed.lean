import Mathlib.Order.Defs.PartialOrder
import Pulse.Library.Lts

/-! A machine beside one clock which never goes back. A step uses readings of the clock
which were taken before it or as it is made. -/
namespace Library.Lts
universe u v w
variable {State : Type u} {Action : Type v} {Time : Type w}

/-- The clock goes on, or the machine takes a step. -/
inductive Timed (Time : Type w) (Action : Type v) where
  | pass (later : Time)
  | act (action : Action)
deriving Repr

/-- A condition on the steps of the machine alone. -/
def Timed.lift (allowed : State → Action → Prop) (pair : State × Time) :
    Timed Time Action → Prop
  | .pass _ => True
  | .act action => allowed pair.1 action

instance (allowed : State → Action → Prop) [∀ state action, Decidable (allowed state action)]
    (pair : State × Time) : (move : Timed Time Action) → Decidable (Timed.lift allowed pair move)
  | .pass _ => isTrue trivial
  | .act action => inferInstanceAs (Decidable (allowed pair.1 action))

section Clock
variable [Preorder Time] [DecidableLE Time] {machine : Machine State Action}
  {readings : Action → List Time} {allowed : State → Action → Prop} {state : State} {now : Time}

/-- The machine beside its clock; no reading is later than the clock. -/
def Machine.timed (machine : Machine State Action) (readings : Action → List Time) :
    Machine (State × Time) (Timed Time Action) where
  init := fun pair => machine.init pair.1
  step := fun pair move => match move with
    | .pass later => if pair.2 ≤ later then some (pair.1, later) else none
    | .act action =>
      if ∀ reading ∈ readings action, reading ≤ pair.2 then
        (machine.step pair.1 action).map fun next => (next, pair.2)
      else none

/-- The step function inverted. -/
theorem Machine.timed_step {pair next : State × Time} {move : Timed Time Action}
    (taken : (machine.timed readings).step pair move = some next) :
    (next.1 = pair.1 ∧ pair.2 ≤ next.2 ∧ ∃ later, move = .pass later) ∨
      ∃ action, move = .act action ∧ (∀ reading ∈ readings action, reading ≤ pair.2) ∧
        machine.step pair.1 action = some next.1 ∧ next.2 = pair.2 := by
  cases move with
  | pass later =>
    simp only [Machine.timed] at taken
    split at taken
    · rename_i forward
      cases Option.some.inj taken
      exact .inl ⟨rfl, forward, later, rfl⟩
    · cases taken
  | act action =>
    simp only [Machine.timed] at taken
    split at taken
    · rename_i past
      obtain ⟨state, made, rfl⟩ := Option.map_eq_some_iff.mp taken
      exact .inr ⟨action, rfl, past, made, rfl⟩
    · cases taken

/-- A run beside the clock is a run. -/
theorem Machine.Reachable.untimed {pair : State × Time}
    (reachable : (machine.timed readings).Reachable (Timed.lift allowed) pair) :
    machine.Reachable allowed pair.1 := by
  obtain ⟨origin, initial, path⟩ := reachable
  induction path with
  | refl => exact .start initial
  | step earlier permitted taken ih =>
    rcases Machine.timed_step taken with ⟨same, _⟩ | ⟨action, rfl, _, made, _⟩
    · rwa [same]
    · exact ih.extend permitted made

/-- The invariant rule beside the clock: it holds at the start, stays as the clock goes on,
and a step keeps it whose readings are no later than the clock. -/
theorem Machine.Reachable.timed_invariant {property : State → Time → Prop}
    (initially : ∀ state now, machine.init state → property state now)
    (later : ∀ state now later, now ≤ later → property state now → property state later)
    (stable : ∀ state action next now, machine.Reachable allowed state → property state now →
      allowed state action → (∀ reading ∈ readings action, reading ≤ now) →
      machine.step state action = some next → property next now)
    (reachable : (machine.timed readings).Reachable (Timed.lift allowed) (state, now)) :
    property state now := by
  have all : ∀ pair, (machine.timed readings).Reachable (Timed.lift allowed) pair →
      machine.Reachable allowed pair.1 ∧ property pair.1 pair.2 := by
    intro pair reached
    refine @Machine.Reachable.invariant _ _ (machine.timed readings) (Timed.lift allowed)
      (fun pair => machine.Reachable allowed pair.1 ∧ property pair.1 pair.2) ?_ ?_ pair reached
    · exact fun pair initial => ⟨.start initial, initially pair.1 pair.2 initial⟩
    · rintro earlier move next ⟨before, holds⟩ permitted taken
      rcases Machine.timed_step taken with ⟨same, forward, _⟩ | ⟨action, rfl, past, made, still⟩
      · rw [same]
        exact ⟨before, later _ _ _ forward holds⟩
      · rw [still]
        exact ⟨before.extend permitted made, stable _ action _ _ before holds permitted past made⟩
  exact (all (state, now) reachable).2

end Clock

end Library.Lts
