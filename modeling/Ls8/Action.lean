/-!
# Actions

An action works on a state and ends with a value or with an error. What it did before the error
stays done: the state that a failed action leaves is the one at hand when the error arose, not
the one that it began with.

* `Action.look`: takes a value from the state, if there is one to take.
* `Action.result`, `Action.after`: how an action ends, and the state that it leaves.
-/

namespace Ls8

/-- What can be done to a state, with a value or an error at its end. -/
abbrev Action (ε σ α : Type) := EStateM ε σ α

namespace Action

variable {ε σ α : Type}

/-- Takes a value from the state, which stays as it is. -/
def look (view : σ → Except ε α) : Action ε σ α := fun state =>
  match view state with
  | .ok value => .ok value state
  | .error error => .error error state

def result (act : Action ε σ α) (state : σ) : Except ε α :=
  match act state with
  | .ok value _ => .ok value
  | .error error _ => .error error

/-- The state that an action leaves, however it ends. -/
def after (act : Action ε σ α) (state : σ) : σ :=
  match act state with
  | .ok _ state => state
  | .error _ state => state

end Action

end Ls8
