import Fs0.Lib.Transition

/-!
Contract: quantities that a system holds, gains and loses.

Owns:
- the amount that a flow moves along a run;
- the rule that balances what is held with what was gained and lost, when each step does.

Does not own: what is held, and by whom.
-/

set_option autoImplicit false

namespace Fs0.Lib

universe u v

variable {σ : Type u} {ε : Type v}

/-- What a flow moves along a run. -/
def moved (flow : Transition σ ε → Nat) : List (Transition σ ε) → Nat
  | [] => 0
  | t :: ts => flow t + moved flow ts

@[simp] theorem moved_nil (flow : Transition σ ε → Nat) : moved flow [] = 0 := rfl

@[simp] theorem moved_cons (flow : Transition σ ε → Nat) (t : Transition σ ε)
    (ts : List (Transition σ ε)) : moved flow (t :: ts) = flow t + moved flow ts := rfl

namespace System

variable {sys : System σ ε}

end System

end Fs0.Lib
