import Mathlib.Order.Basic
import Mathlib.Data.Nat.Notation

/-! Transition systems: a step is taken by an action and may be disabled. Properties of runs are
proved from what one step keeps, and a run can be given by the list of its actions. -/

set_option autoImplicit false

namespace Transition

variable {State Action : Type} {step : State → Action → Option State}

/-- The states that runs from a start reach, when every step of the run is allowed. -/
inductive Reach (step : State → Action → Option State) (allowed : State → Action → Prop)
    (start : State) : State → Prop where
  | refl : Reach step allowed start start
  | next {state state' : State} {action : Action} (earlier : Reach step allowed start state)
      (meets : allowed state action) (moved : step state action = some state') :
      Reach step allowed start state'

namespace Reach

variable {allowed : State → Action → Prop} {start state : State}

/-- What holds at the start and is kept by every allowed step holds in every reached state. -/
theorem invariant {holds : State → Prop} (reach : Reach step allowed start state)
    (initial : holds start)
    (kept : ∀ state action state', holds state → allowed state action →
      step state action = some state' → holds state') : holds state := by
  induction reach with
  | refl => exact initial
  | next earlier meets moved ih => exact kept _ _ _ ih meets moved

theorem trans {last : State} (reach : Reach step allowed start state)
    (rest : Reach step allowed state last) : Reach step allowed start last := by
  induction rest with
  | refl => exact reach
  | next earlier meets moved ih => exact .next ih meets moved

theorem mono {weaker : State → Action → Prop} (reach : Reach step allowed start state)
    (weaken : ∀ state action, allowed state action → weaker state action) :
    Reach step weaker start state := by
  induction reach with
  | refl => exact .refl
  | next earlier meets moved ih => exact .next ih (weaken _ _ meets) moved

/-- If every step from a state that is not finished makes some measure smaller and one is always
possible, then a finished state is reached. -/
theorem exists_finished {holds finished : State → Prop} (measure : State → ℕ)
    (kept : ∀ state action state', holds state → allowed state action →
      step state action = some state' → holds state')
    (progress : ∀ state, holds state → ¬ finished state → ∃ action state',
      allowed state action ∧ step state action = some state' ∧ measure state' < measure state)
    (initial : holds start) : ∃ last, Reach step allowed start last ∧ finished last := by
  generalize size : measure start = bound
  induction bound using Nat.strongRecOn generalizing start with
  | ind bound ih =>
      by_cases done : finished start
      · exact ⟨start, .refl, done⟩
      · obtain ⟨action, next, meets, moved, smaller⟩ := progress start initial done
        obtain ⟨last, reach, ended⟩ := ih (measure next) (size ▸ smaller)
          (kept _ _ _ initial meets moved) rfl
        exact ⟨last, Reach.trans (.next .refl meets moved) reach, ended⟩

end Reach

/-- Take the steps of a list of actions, as long as they are enabled and allowed. -/
def runActions (step : State → Action → Option State) (allowed : State → Action → Bool) :
    State → List Action → Option State
  | state, [] => some state
  | state, action :: actions =>
      if allowed state action then
        match step state action with
        | some state => runActions step allowed state actions
        | none => none
      else none

theorem Reach.of_runActions {allowed : State → Action → Bool} {start state : State}
    {actions : List Action} (run : runActions step allowed start actions = some state) :
    Reach step (fun state action => allowed state action = true) start state := by
  induction actions generalizing start with
  | nil =>
      cases run
      exact .refl
  | cons action actions ih =>
      unfold runActions at run
      split at run
      · rename_i meets
        split at run
        · rename_i moved
          exact Reach.trans (.next .refl meets moved) (ih run)
        · cases run
      · cases run

end Transition
