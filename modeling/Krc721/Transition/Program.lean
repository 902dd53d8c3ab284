import Mathlib.Tactic.TypeStar

/-! Programs that make calls and go on with the answers. Two machines that answer every call alike
from related states cannot be told apart by any program. -/

set_option autoImplicit false

namespace Transition

variable {Call Result State State' : Type} {Answer : Call → Type}

inductive Program (Call : Type) (Answer : Call → Type) (Result : Type) : Type where
  | done (result : Result)
  | ask (call : Call) (next : Answer call → Program Call Answer Result)

/-- How a machine answers a call, and the state it is left in. -/
abbrev Machine (State Call : Type) (Answer : Call → Type) : Type :=
  State → (call : Call) → Answer call × State

/-- Every call gets the same answer, and leaves related states related. -/
def Simulates (related : State → State' → Prop) (step : Machine State Call Answer)
    (step' : Machine State' Call Answer) : Prop :=
  ∀ state state' call, related state state' →
    (step state call).1 = (step' state' call).1 ∧
      related (step state call).2 (step' state' call).2

namespace Program

def run (step : Machine State Call Answer) : Program Call Answer Result → State → Result × State
  | done result, state => (result, state)
  | ask call next, state => (next (step state call).1).run step (step state call).2

theorem run_simulates {related : State → State' → Prop} {step : Machine State Call Answer}
    {step' : Machine State' Call Answer} (simulates : Simulates related step step')
    (program : Program Call Answer Result) {state : State} {state' : State'}
    (start : related state state') :
    (program.run step state).1 = (program.run step' state').1 ∧
      related (program.run step state).2 (program.run step' state').2 := by
  induction program generalizing state state' with
  | done result => exact ⟨rfl, start⟩
  | ask call next ih =>
      obtain ⟨same, after⟩ := simulates state state' call start
      rw [run, run, same]
      exact ih _ after

end Program

end Transition
