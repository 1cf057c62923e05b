import NullGuard.Proofs.Eval.Node
import NullGuard.Proofs.Guard.Insertion

/-! # What guards evaluate to -/

namespace NullGuard

theorem Expr.changesScope_of_isStrict {e : Expr} (h : e.isStrict = true) :
    e.changesScope = false := by
  cases e with
  | cond | lambda | bind => cases h
  | _ => rfl

namespace Context

variable (context : Context) (fuel : Nat) {env : Env}

theorem eval_cond_of_test {test : Expr} {outcome : Bool}
    (h : context.eval fuel test env = pure (.bool outcome)) (ty : Ty) (ifTrue ifFalse : Expr) :
    context.eval (fuel + 1) (.cond ty test ifTrue ifFalse) env =
      context.eval fuel (if outcome then ifTrue else ifFalse) env := by
  rw [eval, evalNode, h, pure_bind]
  cases outcome <;> rfl

/-- A test of a parameter against null takes the branch that the parameter's value calls for. -/
theorem eval_nullCheck {name : String} {value : Value} (h : List.lookup name env = some value)
    (ty resultTy : Ty) (whenNull node : Expr) :
    context.eval (fuel + 3) (nullCheck (.param ty name) whenNull node resultTy) env =
      context.eval (fuel + 2) (if value.isNull then whenNull else node) env := by
  have htest : context.eval (fuel + 2) (.binaryOf .eq (.param ty name) (.null ty)) env =
      pure (.bool value.isNull) := by
    simp [eval, evalNode, h, Expr.binaryOf, Expr.null, BinaryOp.apply, Value.ofLiteral,
      Value.looselyEquals_null, ofExcept]
  exact context.eval_cond_of_test (fuel + 2) htest resultTy whenNull node

theorem eval_nullCheck_of_unbound {name : String} (h : List.lookup name env = none)
    (ty resultTy : Ty) (whenNull node : Expr) :
    context.eval (fuel + 3) (nullCheck (.param ty name) whenNull node resultTy) env =
      EvalM.fail (.unboundParameter name) := by
  simp [eval, evalNode, nullCheck, Expr.binaryOf, h]
  rfl

theorem eval_bindTo (name : String) (value body : Expr) :
    context.eval (fuel + 1) (.bindTo name value body) env =
      context.eval fuel value env >>= fun bound => context.eval fuel body (env.insert name bound) :=
  rfl

theorem eval_coalesceOf (left right : Expr) :
    context.eval (fuel + 1) (.coalesceOf left right) env =
      context.eval fuel left env >>= fun value =>
        if value.isNull then context.eval fuel right env else pure value :=
  rfl

/-! ## Short circuits -/

theorem eval_missingValue (ty : Ty) :
    context.eval (fuel + 1) (missingValue context.defs ty) env =
      pure (.default context.defs ty) := by
  unfold missingValue
  split
  · simp [eval, evalNode, Expr.null, Value.ofLiteral, Value.default, *]
  · rfl

theorem eval_emptyInstance {ty : Ty} {recipe : Expr} (h : EmptyInstance ty recipe) :
    ∃ kind, ∀ fuel env, context.eval (fuel + 2) recipe env = pure (.collection kind []) := by
  cases h with
  | array => exact ⟨.array, fun _ _ => rfl⟩
  | collection _ hd =>
    rcases hd with rfl | rfl
    · exact ⟨.list, fun _ _ => by simp [eval, evalNode, Value.construct, Value.list, Value.convert]⟩
    · exact ⟨.set, fun _ _ => by simp [eval, evalNode, Value.construct, Value.convert]⟩

theorem eval_shortCircuit_of_none {rules : GuardRules} (hdefs : rules.defs = context.defs) {ty : Ty}
    (h : (if rules.emptyCollections then rules.fallback ty else none) = none) :
    context.eval (fuel + 2) (rules.shortCircuit ty) env = pure (.default context.defs ty) := by
  unfold GuardRules.shortCircuit
  rw [h, hdefs]
  exact context.eval_missingValue (fuel + 1) ty

theorem eval_shortCircuit {rules : GuardRules} (hdefs : rules.defs = context.defs) (ty : Ty) :
    ∃ value, ∀ fuel env, context.eval (fuel + 2) (rules.shortCircuit ty) env = pure value := by
  cases hanswer : if rules.emptyCollections then rules.fallback ty else none with
  | none => exact ⟨_, fun fuel _ => context.eval_shortCircuit_of_none fuel hdefs hanswer⟩
  | some recipe =>
    have hrecipe : rules.fallback ty = some recipe := by
      split at hanswer
      · exact hanswer
      · cases hanswer
    obtain ⟨kind, hkind⟩ := context.eval_emptyInstance (rules.emptyInstance hrecipe)
    refine ⟨.collection kind [], fun fuel env => ?_⟩
    unfold GuardRules.shortCircuit
    rw [hanswer]
    exact hkind fuel env

end Context

end NullGuard
