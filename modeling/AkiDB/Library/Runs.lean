import Mathlib.Data.List.Basic

/-! Runs of a machine as the list of its actions; choices of the environment are part of them. -/

namespace Runs

variable {State Action : Type*} {step : State → Action → State}
variable {permitted : State → Action → Prop}

/-- Every action of the run is permitted in the state that it is taken in. -/
def Along (step : State → Action → State) (permitted : State → Action → Prop)
    : State → List Action → Prop
  | _, [] => True
  | state, action :: rest =>
    permitted state action ∧ Along step permitted (step state action) rest

instance decidableAlong [∀ state action, Decidable (permitted state action)]
    : ∀ state actions, Decidable (Along step permitted state actions)
  | _, [] => .isTrue trivial
  | state, action :: rest =>
    have := decidableAlong (step state action) rest
    inferInstanceAs (Decidable (_ ∧ _))

/-- What permitted actions preserve holds after every run of them.
Witness: induction over the actions.
-/
theorem Along.invariant {holds : State → Prop}
    (kept : ∀ state action, holds state → permitted state action → holds (step state action))
    {state : State} {actions : List Action} (along : Along step permitted state actions)
    (initially : holds state)
    : holds (actions.foldl step state) := by
  induction actions generalizing state with
  | nil => exact initially
  | cons action rest ih => exact ih along.2 (kept state action initially along.1)

end Runs
