import Pulse.Library.Lts

/-! A machine refines another where, through a view of its states, each of its steps is one step of
the other or none. -/
namespace Library.Lts
universe u v w x
variable {State : Type u} {Action : Type v} {Abstract : Type w} {Label : Type x}

structure Machine.Refines (concrete : Machine State Action) (allowed : State → Action → Prop)
    (abstract : Machine Abstract Label) (view : State → Abstract) : Prop where
  start : ∀ state, concrete.init state → abstract.init (view state)
  step : ∀ state action next, concrete.Reachable allowed state → allowed state action →
    concrete.step state action = some next →
    view next = view state ∨ ∃ label, abstract.step (view state) label = some (view next)

namespace Machine.Refines
variable {concrete : Machine State Action} {allowed : State → Action → Prop}
  {abstract : Machine Abstract Label} {view : State → Abstract} {origin state : State}

/-- The rest of a run is seen as a run. -/
theorem path (refines : concrete.Refines allowed abstract view)
    (reachable : concrete.Reachable allowed origin) (path : concrete.Path allowed origin state) :
    abstract.Path anyStep (view origin) (view state) := by
  induction path with
  | refl => exact .refl
  | step earlier permitted taken ih =>
    rcases refines.step _ _ _ (reachable.path earlier) permitted taken with same | ⟨label, made⟩
    · rwa [same]
    · exact ih.step trivial made

theorem reachable (refines : concrete.Refines allowed abstract view)
    (reachable : concrete.Reachable allowed state) : abstract.Reachable anyStep (view state) := by
  obtain ⟨origin, initial, path⟩ := reachable
  exact ⟨view origin, refines.start origin initial, refines.path (.start initial) path⟩

end Machine.Refines
end Library.Lts
