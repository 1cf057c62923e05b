import NullGuard.Eval.Trace
import NullGuard.Proofs.Run

/-! # Running an evaluation from a trace -/

namespace NullGuard

/-- The outcome of an evaluation that starts with a trace, and the trace that it leaves. -/
def EvalM.runAt {α : Type} (action : EvalM α) (trace : Trace) : Except Stop α × Trace :=
  action.run trace

namespace EvalM

variable {α β : Type} {trace middle : Trace}

@[simp] theorem runAt_pure (a : α) (trace : Trace) :
    (pure a : EvalM α).runAt trace = (.ok a, trace) :=
  rfl

@[simp] theorem runAt_throw (stop : Stop) (trace : Trace) :
    (throw stop : EvalM α).runAt trace = (.error stop, trace) :=
  rfl

@[simp] theorem runAt_fail (error : EvalError) (trace : Trace) :
    (fail error : EvalM α).runAt trace = (.error (.fault error), trace) :=
  rfl

@[simp] theorem runAt_record (access : Access) (trace : Trace) :
    (record access).runAt trace = (.ok (), { trace with accesses := access :: trace.accesses }) :=
  rfl

@[simp] theorem runAt_recordLookup (ty : Ty) (name : String) (trace : Trace) :
    (recordLookup ty name).runAt trace =
      (.ok (), { trace with lookups := (ty, name) :: trace.lookups }) :=
  rfl

theorem runAt_bind (action : EvalM α) (next : α → EvalM β) (trace : Trace) :
    (action >>= next).runAt trace =
      match action.runAt trace with
      | (.ok a, middle) => (next a).runAt middle
      | (.error stop, middle) => (.error stop, middle) := by
  rcases haction : action.runAt trace with ⟨stop | a, middle⟩
  · exact runFrom_bind_of_error haction
  · exact runFrom_bind_of_ok haction

theorem runAt_bind_of_ok {action : EvalM α} {next : α → EvalM β} {a : α}
    (h : action.runAt trace = (.ok a, middle)) :
    (action >>= next).runAt trace = (next a).runAt middle :=
  runFrom_bind_of_ok h

theorem runAt_bind_of_error {action : EvalM α} {next : α → EvalM β} {stop : Stop}
    (h : action.runAt trace = (.error stop, middle)) :
    (action >>= next).runAt trace = (.error stop, middle) :=
  runFrom_bind_of_error h

theorem runAt_bind_eq_ok {action : EvalM α} {next : α → EvalM β} {b : β} {after : Trace} :
    (action >>= next).runAt trace = (.ok b, after) ↔
      ∃ a middle, action.runAt trace = (.ok a, middle) ∧
        (next a).runAt middle = (.ok b, after) :=
  runFrom_bind_eq_ok

end EvalM

end NullGuard
