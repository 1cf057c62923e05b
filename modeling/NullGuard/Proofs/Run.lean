/-! # Running an action from a state

Evaluations, insertions of guards and conversions of data are actions that keep a state and may
fail, and a failure leaves the state that it was met in. What two actions in a row do is the same
for all of them. -/

namespace NullGuard

variable {σ ε α β : Type}

/-- The outcome of an action that starts in a state, and the state that it leaves. -/
def runFrom (action : ExceptT ε (StateM σ) α) (start : σ) : Except ε α × σ :=
  action.run start

theorem runFrom_bind (action : ExceptT ε (StateM σ) α) (next : α → ExceptT ε (StateM σ) β)
    (start : σ) :
    runFrom (action >>= next) start =
      match runFrom action start with
      | (.ok a, middle) => runFrom (next a) middle
      | (.error error, middle) => (.error error, middle) := by
  change (match runFrom action start with
    | (outcome, middle) => ExceptT.bindCont next outcome middle) = _
  rcases runFrom action start with ⟨_ | a, middle⟩ <;> rfl

variable {action : ExceptT ε (StateM σ) α} {next : α → ExceptT ε (StateM σ) β}
  {start middle after : σ} {a : α} {b : β} {error : ε}

theorem runFrom_bind_of_ok (h : runFrom action start = (.ok a, middle)) :
    runFrom (action >>= next) start = runFrom (next a) middle := by
  rw [runFrom_bind, h]

theorem runFrom_bind_of_error (h : runFrom action start = (.error error, middle)) :
    runFrom (action >>= next) start = (.error error, middle) := by
  rw [runFrom_bind, h]

theorem runFrom_bind_eq_ok :
    runFrom (action >>= next) start = (.ok b, after) ↔
      ∃ a middle, runFrom action start = (.ok a, middle) ∧
        runFrom (next a) middle = (.ok b, after) := by
  rw [runFrom_bind]
  rcases runFrom action start with ⟨_ | a, middle⟩ <;> simp [and_assoc]

end NullGuard
