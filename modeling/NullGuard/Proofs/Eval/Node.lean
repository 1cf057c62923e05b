import NullGuard.Eval.Evaluate
import NullGuard.Proofs.Eval.Trace
import NullGuard.Proofs.Eval.Value
import NullGuard.Proofs.Expr.Parts

/-! # Evaluation of one node

Most nodes evaluate all their parts and then combine the values. The other ones choose among their
parts, bind a name or are left as they are. -/

namespace NullGuard

/-- The nodes that evaluate all their parts in order before they look at any of the values. -/
def Expr.isStrict : Expr → Bool
  | param .. | lambda .. | coalesce .. | cond .. | bind .. => false
  | binary _ op _ _ => op ≠ .and && op ≠ .or
  | _ => true

theorem Expr.isStrict_of_receiver? {node receiver : Expr} (h : node.receiver? = some receiver) :
    node.isStrict = true := by
  obtain ⟨_, _, _, rfl⟩ | ⟨_, _, _, rfl⟩ | ⟨_, _, _, _, rfl⟩ := exists_of_receiver? h <;> rfl

namespace Context

variable (context : Context) (run : Run)

/-- The value of a strict node from the values of its plain parts and its arguments. -/
def combine : Expr → List Value → List Value → EvalM Value
  | .literal _ value, _, _ => pure (.ofLiteral value)
  | .default ty, _, _ => pure (.default context.defs ty)
  | .member ty target name _, [value], _ => context.readMember value target.ty name ty
  | .staticMember ty name declaring, _, _ => context.readStatic declaring name ty
  | .call ty _ method _, [object], args => context.callOn run method ty object args
  | .freeCall ty method _, [], args =>
    context.callFree run method ty (if method.isExtension then [] else args)
  | .freeCall ty method _, receiver :: _, args => context.callFree run method ty (receiver :: args)
  | .binary _ op _ _, [first, second], _ => ofExcept (op.apply first second)
  | .unary _ op _, [value], _ => ofExcept (op.apply value)
  | .convert ty _, [value], _ => pure (value.convert ty)
  | .construct ty _, _, _ => pure (.construct context.defs ty)
  | .newArray _ _, elements, _ => pure (.array elements)
  | .index _ _ _, [target, position], _ => ofExcept (target.elementAt position)
  | _, _, _ => pure .null

theorem evalNode_of_isStrict {e : Expr} (h : e.isStrict = true) (env : Env) :
    context.evalNode run e env = (do
      let plain ← e.plainParts.mapM fun part => run part env
      let args ← e.methodArgs.mapM fun arg => run arg env
      context.combine run e plain args) := by
  cases e with
  | param | lambda | coalesce | cond | bind => cases h
  | binary ty op left right =>
    have hop : ¬ (op = .and ∨ op = .or) := by
      simpa [Expr.isStrict] using h
    simp [evalNode, hop, Expr.plainParts, Expr.methodArgs, Expr.plainCount, Expr.children, combine]
  | freeCall ty method args =>
    by_cases hext : method.isExtension = true
    · cases args <;>
        simp [evalNode, Expr.plainParts, Expr.methodArgs, Expr.plainCount, Expr.children, combine,
          hext]
    · rw [Bool.not_eq_true] at hext
      simp [evalNode, Expr.plainParts, Expr.methodArgs, Expr.plainCount, Expr.children, combine,
        hext]
  | _ =>
    simp [evalNode, Expr.plainParts, Expr.methodArgs, Expr.plainCount, Expr.children, combine]

/-- Evaluation of a node with a receiver whose value is there already. -/
def proceed (e : Expr) (env : Env) (value : Value) : EvalM Value := do
  let args ← e.methodArgs.mapM fun arg => run arg env
  context.combine run e [value] args

theorem evalNode_of_receiver? {node receiver : Expr} (h : node.receiver? = some receiver)
    (env : Env) :
    context.evalNode run node env = run receiver env >>= context.proceed run node env := by
  rw [evalNode_of_isStrict context run (Expr.isStrict_of_receiver? h),
    Expr.plainParts_of_receiver? h]
  simp
  rfl

end Context

/-! ## Null at a node -/

/-- Whether the node fails because one of these values of its plain parts is null. An extension
call without a receiver fails like one whose receiver is null. -/
def Expr.faultsAtNull : Expr → List Value → Bool
  | member _ target name _, [value] =>
    value.isNull && !(name = "HasValue" && target.ty.underlying?.isSome)
  | call .., [object] => object.isNull
  | freeCall _ method _, [] => method.isExtension
  | freeCall _ method _, receiver :: _ => method.isExtension && receiver.isNull
  | index .., [target, _] => target.isNull
  | _, _ => false

theorem Context.readMember_null_of_hasValue (context : Context) {targetTy : Ty} {name : String}
    (h : name = "HasValue" ∧ targetTy.underlying?.isSome = true) (ty : Ty) :
    context.readMember .null targetTy name ty = (do
      EvalM.record (.member name)
      return .bool false) := by
  simp [Context.readMember, Value.isNull, h]

theorem Context.readMember_null (context : Context) {targetTy : Ty} {name : String}
    (h : ¬ (name = "HasValue" ∧ targetTy.underlying?.isSome = true)) (ty : Ty) :
    context.readMember .null targetTy name ty = EvalM.fail (.nullReference name) := by
  simp [Context.readMember, Value.isNull, h]
  rfl

section Receiver

variable {context : Context} {node receiver : Expr} (h : node.receiver? = some receiver)

include h

/-- Only the question whether a nullable has a value may be put to null. -/
theorem Expr.faultsAtNull_null :
    node.faultsAtNull [.null] = true ∨
      ∃ ty declaring, node = member ty receiver "HasValue" declaring ∧
        receiver.ty.underlying?.isSome = true := by
  obtain ⟨ty, name, declaring, rfl⟩ | ⟨_, _, _, rfl⟩ | ⟨_, _, _, hext, rfl⟩ := exists_of_receiver? h
  · by_cases hvalue : name = "HasValue" ∧ receiver.ty.underlying?.isSome = true
    · obtain ⟨rfl, hnullable⟩ := hvalue
      exact .inr ⟨ty, declaring, rfl, hnullable⟩
    · refine .inl ?_
      simpa [faultsAtNull, Value.isNull, imp_iff_not_or] using hvalue
  · exact .inl rfl
  · exact .inl (by simp [faultsAtNull, Value.isNull, hext])

theorem Context.combine_null (run : Run) (hfault : node.faultsAtNull [.null] = true)
    (args : List Value) :
    ∃ error : EvalError, error.isNullFault = true ∧
      context.combine run node [.null] args = EvalM.fail error := by
  obtain ⟨ty, name, declaring, rfl⟩ | ⟨_, method, _, rfl⟩ | ⟨_, method, _, hext, rfl⟩ :=
    Expr.exists_of_receiver? h
  · refine ⟨.nullReference name, rfl, Context.readMember_null context ?_ ty⟩
    simpa [Expr.faultsAtNull, Value.isNull, imp_iff_not_or] using hfault
  · exact ⟨.nullReference method.name, rfl, rfl⟩
  · refine ⟨.nullReceiver method.name, rfl, ?_⟩
    simp [combine, callFree, hext, Value.isNull]

theorem Context.proceed_null_ne_ok (run : Run) (hfault : node.faultsAtNull [.null] = true)
    (env : Env) {trace after : Trace} {value : Value} :
    (context.proceed run node env .null).runAt trace ≠ (.ok value, after) := by
  intro hrun
  obtain ⟨args, middle, _, hcombine⟩ := EvalM.runAt_bind_eq_ok.mp hrun
  obtain ⟨error, _, hfail⟩ := combine_null h run hfault args
  rw [hfail] at hcombine
  cases hcombine

end Receiver

/-! ## Nodes with other parts -/

namespace Expr

theorem isStrict_withChildren (e : Expr) (parts : List Expr) :
    (e.withChildren parts).isStrict = e.isStrict := by
  unfold withChildren
  split <;> rfl

end Expr

/-- A strict node looks at the type of its target, and else only at values. -/
theorem Context.combine_withChildren (context : Context) (run : Run) {e : Expr} {parts : List Expr}
    (h : parts.map Expr.ty = e.children.map Expr.ty) :
    context.combine run (e.withChildren parts) = context.combine run e := by
  funext plain args
  unfold Expr.withChildren
  split
  case h_1 ty target name declaring target' =>
    have hty : target'.ty = target.ty := (List.cons.inj h).1
    rcases plain with _ | ⟨value, _ | _⟩
    · rfl
    · simp [combine, hty]
    · rfl
  all_goals rcases plain with _ | ⟨_, _ | ⟨_, _ | _⟩⟩ <;> rfl

theorem Context.combine_withReceiver (context : Context) (run : Run) {node receiver other : Expr}
    (h : node.receiver? = some receiver) (hty : other.ty = receiver.ty) :
    context.combine run (node.withReceiver other) = context.combine run node := by
  funext plain args
  obtain ⟨_, _, _, rfl⟩ | ⟨_, _, _, rfl⟩ | ⟨_, _, _, _, rfl⟩ := Expr.exists_of_receiver? h
  · rcases plain with _ | ⟨value, _ | _⟩
    · rfl
    · simp [Expr.withReceiver, combine, hty]
    · rfl
  · rcases plain with _ | ⟨_, _ | _⟩ <;> rfl
  · rcases plain with _ | ⟨_, _⟩ <;> rfl

/-! ## Parameters -/

namespace Context

variable {context : Context} {fuel : Nat} {name : String} {env : Env} {value : Value}

theorem eval_param_of_lookup (context : Context) (fuel : Nat)
    (h : List.lookup name env = some value) (ty : Ty) :
    context.eval (fuel + 1) (.param ty name) env = pure value := by
  simp [eval, evalNode, h]

theorem eval_param_of_unbound (context : Context) (fuel : Nat) (h : List.lookup name env = none)
    (ty : Ty) :
    context.eval (fuel + 1) (.param ty name) env = EvalM.fail (.unboundParameter name) := by
  simp [eval, evalNode, h]

theorem lookup_of_eval_param {ty : Ty} {trace after : Trace}
    (hrun : (context.eval fuel (.param ty name) env).runAt trace = (.ok value, after)) :
    List.lookup name env = some value := by
  cases fuel with
  | zero => cases hrun
  | succ fuel =>
    cases hlookup : List.lookup name env with
    | none =>
      rw [context.eval_param_of_unbound fuel hlookup] at hrun
      cases hrun
    | some found =>
      rw [context.eval_param_of_lookup fuel hlookup] at hrun
      cases hrun
      rfl

end Context

end NullGuard
