import NullGuard.Proofs.Eval.Congruence

/-! # More fuel changes nothing

An evaluation that does not run out of fuel has the same end, and leaves the same trace, with any
more of it. -/

namespace NullGuard

namespace Value

mutual

theorem everyClosure_true : ∀ value : Value, EveryClosure (fun _ _ _ => True) value
  | null | bool _ | int _ | double _ | string _ => .scalar rfl
  | object _ fields => .object (everyClosure_true_of_mem_fields fields)
  | collection _ items => .collection (everyClosure_true_of_mem_items items)
  | closure _ _ env => .closure trivial (everyClosure_true_of_mem_fields env)

theorem everyClosure_true_of_mem_fields :
    ∀ (fields : List (String × Value)), ∀ field ∈ fields, EveryClosure (fun _ _ _ => True) field.2
  | [] => nofun
  | (_, value) :: fields =>
    List.forall_mem_cons.mpr ⟨everyClosure_true value, everyClosure_true_of_mem_fields fields⟩

theorem everyClosure_true_of_mem_items :
    ∀ (items : List Value), ∀ item ∈ items, EveryClosure (fun _ _ _ => True) item
  | [] => nofun
  | item :: items =>
    List.forall_mem_cons.mpr ⟨everyClosure_true item, everyClosure_true_of_mem_items items⟩

end

end Value

/-- The first evaluation may run out of fuel, and else both do the same. -/
def Comparison.moreFuel : Comparison :=
  inStep (· = .outOfFuel) (· ≠ .outOfFuel) (fun _ _ _ => True) fun _ => .inr nofun

namespace Context

open Comparison

variable (context : Context)

theorem eval_agree_of_le {fuel fuel' : Nat} (h : fuel ≤ fuel') (e : Expr) (env : Env) :
    moreFuel.Agree moreFuel.Same (context.eval fuel e env) (context.eval fuel' e env) := by
  induction fuel generalizing fuel' e env with
  | zero => exact .of_waived rfl _
  | succ fuel ih =>
    obtain ⟨fuel', rfl⟩ : ∃ less, fuel' = less + 1 := ⟨fuel' - 1, by omega⟩
    replace ih := @ih fuel' (by omega)
    have hinvoke : ∀ callee callee' item, moreFuel.Argument callee callee' → moreFuel.Data item →
        moreFuel.Agree moreFuel.Same (invoke (context.eval fuel) callee [item])
          (invoke (context.eval fuel') callee' [item]) := by
      intro callee callee' item hcallee _
      cases hcallee with
      | same => exact invoke_agree fun params body env _ _ => ih body _
      | callee h => cases h
    cases hpasses : e.passesNames with
    | true =>
      exact context.evalNode_agree_of_passesNames hpasses hinvoke (fun part _ => ih part env)
        (fun arg _ => (ih arg env).argument) fun _ _ _ _ => .inr nofun
    | false =>
      cases e with
      | param ty name =>
        exact context.param_agree ty rfl (fun value _ => Value.everyClosure_true value)
          fun _ => .inr nofun
      | lambda ty params body => exact .pure ⟨rfl, Value.everyClosure_true _⟩
      | bind ty var value body =>
        refine (ih value env).bind fun value _ hvalue => ?_
        obtain ⟨rfl, _⟩ := hvalue
        exact ih body _
      | _ => cases hpasses

theorem eval_eq_of_le {fuel fuel' : Nat} (h : fuel ≤ fuel') {e : Expr} {env : Env}
    {trace after : Trace} {outcome : Except Stop Value}
    (hrun : (context.eval fuel e env).runAt trace = (outcome, after))
    (hstop : outcome ≠ .error .outOfFuel) :
    (context.eval fuel' e env).runAt trace = (outcome, after) := by
  obtain ⟨hok, herror⟩ := context.eval_agree_of_le h e env trace trace rfl
  cases outcome with
  | ok value =>
    obtain ⟨_, _, hrun', ⟨rfl, _⟩, rfl⟩ := hok value after hrun
    exact hrun'
  | error stop =>
    rcases herror stop after hrun with rfl | ⟨_, _, hrun', rfl⟩
    · exact absurd rfl hstop
    · exact hrun'

/-! ## Ends of evaluations -/

/-- The evaluation of an expression ends with a value or an error, given enough fuel. -/
def Ends (e : Expr) (env : Env) (trace : Trace) (outcome : Except EvalError Value)
    (after : Trace) : Prop :=
  ∃ fuel, (context.eval fuel e env).runAt trace = (outcome.mapError .fault, after)

variable {context} {e : Expr} {env : Env} {trace after after' : Trace}
  {outcome outcome' : Except EvalError Value}

theorem mapError_fault_ne (outcome : Except EvalError Value) :
    outcome.mapError Stop.fault ≠ .error .outOfFuel := by
  cases outcome <;> nofun

theorem mapError_fault_injective
    (h : outcome.mapError Stop.fault = outcome'.mapError Stop.fault) : outcome = outcome' := by
  cases outcome <;> cases outcome' <;> simp_all [Except.mapError]

/-- An evaluation has at most one end. -/
theorem Ends.unique (h : context.Ends e env trace outcome after)
    (h' : context.Ends e env trace outcome' after') : outcome = outcome' ∧ after = after' := by
  obtain ⟨fuel, hrun⟩ := h
  obtain ⟨fuel', hrun'⟩ := h'
  have hmax := context.eval_eq_of_le (Nat.le_max_left fuel fuel') hrun (mapError_fault_ne _)
  have hmax' := context.eval_eq_of_le (Nat.le_max_right fuel fuel') hrun' (mapError_fault_ne _)
  obtain ⟨houtcome, rfl⟩ := Prod.mk.inj (hmax.symm.trans hmax')
  exact ⟨mapError_fault_injective houtcome, rfl⟩

theorem ends_of_evaluate
    (h : context.evaluate e env trace = (outcome.mapError .fault, after)) :
    context.Ends e env trace outcome after :=
  ⟨plenty, h⟩

/-- Only the limit on fuel keeps `evaluate` from the end of an evaluation. -/
theorem evaluate_eq_of_ends (h : context.Ends e env trace outcome after)
    (hfuel : (context.evaluate e env trace).1 ≠ .error .outOfFuel) :
    context.evaluate e env trace = (outcome.mapError .fault, after) := by
  obtain ⟨fuel, hrun⟩ := h
  rcases Nat.le_total fuel plenty with hle | hle
  · exact context.eval_eq_of_le hle hrun (mapError_fault_ne _)
  · have hrun' := context.eval_eq_of_le hle (Prod.eta (context.evaluate e env trace)).symm hfuel
    rw [hrun] at hrun'
    exact hrun'.symm

end Context

end NullGuard
