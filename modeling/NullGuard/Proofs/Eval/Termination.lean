import NullGuard.Proofs.Eval.Fuel
import NullGuard.Proofs.Guard.FirstOrder

/-! # Evaluations that come to an end

Where lambdas are only passed to methods, a method never gets a closure but from a lambda that is
written in its own call, and no closure finds its way into data. The calls of closures then nest no
deeper than the lambdas are written, so that the depth of a query bounds how deep its evaluation
goes. -/

namespace NullGuard

/-- A closure over data of a body that has at most so many levels and passes its lambdas on. -/
inductive ShallowClosure (levels : Nat) : Value → Prop where
  | closure {params : List Param} {body : Expr} {env : Env} (hbody : body.PassesLambdas)
      (hdepth : body.depth ≤ levels) (henv : env.All Value.IsData) :
      ShallowClosure levels (.closure params body env)

theorem ShallowClosure.exists_closure {levels : Nat} {value : Value}
    (h : ShallowClosure levels value) : ∃ params body env, value = .closure params body env := by
  cases h with
  | closure => exact ⟨_, _, _, rfl⟩

/-- An evaluation is compared with itself, and must end with data or an error. Methods may be passed
shallow closures. -/
def Comparison.ending (levels : Nat) : Comparison :=
  { inStep (· ≠ .outOfFuel) (fun _ => False) (fun _ _ _ => False) fun _ => .inl nofun with
    callees := fun callee callee' => callee = callee' ∧ ShallowClosure levels callee
    callees_closure := fun h => ⟨h.2.exists_closure, (h.1 ▸ h.2).exists_closure⟩
    callees_equals := fun h _ => congrArg _ h.1 }

namespace Context

open Comparison

/-- With this much fuel, a query of at most so many levels ends over data. -/
def EndsWith (context : Context) (fuel : Nat) : Prop :=
  ∀ {e env}, e.PassesLambdas → e.depth ≤ fuel → Env.All Value.IsData env →
    (ending fuel).Agree (ending fuel).Same (context.eval fuel e env) (context.eval fuel e env)

section EndsWith

variable {context : Context} {fuel : Nat} (ih : context.EndsWith fuel)

include ih

theorem EndsWith.invoke (callee callee' item : Value)
    (hcallee : (ending fuel).Argument callee callee') (hitem : (ending fuel).Data item) :
    (ending fuel).Agree (ending fuel).Same (invoke (context.eval fuel) callee [item])
      (invoke (context.eval fuel) callee' [item]) := by
  cases hcallee with
  | same hdata => exact invoke_agree_of_isData hdata [item]
  | callee hcallee =>
    obtain ⟨rfl, hclosure⟩ := hcallee
    cases hclosure with
    | closure hbody hdepth henv =>
      refine invoke_agree fun params body env heq _ => ?_
      cases heq
      exact ih hbody hdepth (henv.insertAll _ (List.forall_mem_singleton.mpr hitem))

variable {e : Expr} {env : Env} (h : e.PassesLambdas) (hdepth : e.depth ≤ fuel + 1)
  (hdata : env.All Value.IsData)

include h hdepth hdata

theorem EndsWith.of_mem_children {part : Expr} (hpart : part ∈ e.children)
    (hlambda : part.isLambda = false) :
    (ending fuel).Agree (ending fuel).Same (context.eval fuel part env)
      (context.eval fuel part env) := by
  have hlt := Expr.depth_lt_of_mem_children hpart
  exact ih (h.of_mem_children hpart hlambda) (by omega) hdata

/-- What is passed to a method is data or the closure of a lambda that is written there. -/
theorem EndsWith.methodArg {arg : Expr} (harg : arg ∈ e.methodArgs) :
    (ending fuel).Agree (ending fuel).Argument (context.eval fuel arg env)
      (context.eval fuel arg env) := by
  have hmem := List.mem_of_mem_drop harg
  cases hlambda : arg.isLambda with
  | false => exact (ih.of_mem_children h hdepth hdata hmem hlambda).argument
  | true =>
    cases arg with
    | lambda ty params body =>
      have hlt := Expr.depth_lt_of_mem_children hmem
      have hbody : body.depth < (Expr.lambda ty params body).depth :=
        Expr.depth_lt_of_mem_children List.mem_cons_self
      cases fuel with
      | zero => omega
      | succ fuel =>
        exact .pure (.callee ⟨rfl, .closure (h.of_lambda hmem) (by omega) hdata⟩)
    | _ => cases hlambda

theorem EndsWith.node :
    (ending fuel).Agree (ending fuel).Same (context.eval (fuel + 1) e env)
      (context.eval (fuel + 1) e env) := by
  have hplain : ∀ part ∈ e.plainParts, (ending fuel).Agree (ending fuel).Same
      (context.eval fuel part env) (context.eval fuel part env) := fun part hpart =>
    ih.of_mem_children h hdepth hdata (List.mem_of_mem_take hpart) (h.every.here part hpart)
  cases hpasses : e.passesNames with
  | true =>
    exact context.evalNode_agree_of_passesNames hpasses ih.invoke hplain
      (fun arg harg => ih.methodArg h hdepth hdata harg) fun _ _ _ _ => .inl nofun
  | false =>
    cases e with
    | param ty name =>
      exact context.param_agree ty rfl (fun value hvalue => hdata.of_lookup hvalue)
        fun _ => .inl nofun
    | lambda => cases h.not_isLambda
    | bind ty var value body =>
      refine (hplain value List.mem_cons_self).bind fun held _ hheld => ?_
      obtain ⟨rfl, hheld⟩ := hheld
      have hmem : body ∈ (Expr.bind ty var value body).plainParts := by
        simp [Expr.plainParts, Expr.plainCount, Expr.children]
      have hlt := Expr.depth_lt_of_mem_children (List.mem_of_mem_take hmem)
      exact ih (h.of_mem_plainParts hmem) (by omega) (hdata.insert var.name hheld)
    | _ => cases hpasses

end EndsWith

theorem endsWith (context : Context) (fuel : Nat) : context.EndsWith fuel := by
  induction fuel with
  | zero =>
    intro e _ _ hdepth
    have := e.depth_pos
    omega
  | succ fuel ih =>
    intro e env h hdepth hdata
    exact ih.node h hdepth hdata

/-- Over data, a query whose lambdas are only passed to methods is evaluated to data or an error by
at most as many levels as it has. -/
theorem exists_eval_depth (context : Context) {e : Expr} (h : e.PassesLambdas) {env : Env}
    (hdata : env.All Value.IsData) (trace : Trace) :
    ∃ (outcome : Except EvalError Value) (after : Trace),
      (∀ fuel, e.depth ≤ fuel →
        (context.eval fuel e env).runAt trace = (outcome.mapError .fault, after)) ∧
      ∀ value, outcome = .ok value → value.IsData := by
  obtain ⟨hok, herror⟩ := context.endsWith e.depth h le_rfl hdata trace trace rfl
  rcases hrun : (context.eval e.depth e env).runAt trace with ⟨stop | value, after⟩
  · cases stop with
    | outOfFuel =>
      rcases herror _ _ hrun with hne | ⟨hshared, _⟩
      · exact absurd rfl hne
      · cases hshared
    | fault error =>
      refine ⟨.error error, after, fun fuel hfuel => ?_, nofun⟩
      exact context.eval_eq_of_le hfuel hrun nofun
  · obtain ⟨_, _, _, ⟨_, hvalue⟩, _⟩ := hok value after hrun
    refine ⟨.ok value, after, fun fuel hfuel => context.eval_eq_of_le hfuel hrun nofun, ?_⟩
    rintro _ ⟨⟩
    exact hvalue

end Context

/-- `rows.Where(row => row.Any(n => 1 < n))` -/
def rowsAboveOne : Expr :=
  .call (.listOf (.listOf .int)) (.param (.listOf (.listOf .int)) "rows") ⟨"Where", none, false⟩
    [.lambda .object [⟨"row", .listOf .int⟩]
      (.call .bool (.param (.listOf .int) "row") ⟨"Any", none, false⟩
        [.lambda .object [⟨"n", .int⟩]
          (.binary .bool .lt (.literal .int (.int 1)) (.param .int "n"))])]

/-- The inner lambda is called anew for each row, and six levels are enough all the same. -/
theorem exists_eval_rowsAboveOne :
    ∃ value after, (∀ fuel, 6 ≤ fuel →
      (Context.eval ⟨Collection.definitions, .builtin⟩ fuel rowsAboveOne
        [("rows", .list [.list [.int 1], .list [.int 1, .int 2]])]).runAt .empty =
          (.ok value, after)) ∧
      value = .list [.list [.int 1, .int 2]] ∧ value.IsData := by
  have hint (i : Int64) : (Value.int i).IsData := .scalar rfl
  have hrow (numbers : List Int64) : (Value.list (numbers.map .int)).IsData :=
    .collection (List.forall_mem_map.mpr fun i _ => hint i)
  have hdata : Env.All Value.IsData
      [("rows", .list [.list [.int 1], .list [.int 1, .int 2]])] :=
    List.forall_mem_singleton.mpr <| .collection <|
      List.forall_mem_cons.mpr ⟨hrow [1], List.forall_mem_singleton.mpr (hrow [1, 2])⟩
  have hpasses : rowsAboveOne.PassesLambdas := ⟨rfl, by decide +kernel⟩
  have hdepth : rowsAboveOne.depth = 6 := by decide +kernel
  obtain ⟨outcome, after, hends, hvalue⟩ :=
    Context.exists_eval_depth ⟨Collection.definitions, .builtin⟩ hpasses hdata .empty
  rw [hdepth] at hends
  have hrun := hends 6 le_rfl
  cases outcome with
  | error => cases hrun
  | ok value =>
    cases hrun
    exact ⟨_, _, hends, rfl, hvalue _ rfl⟩

end NullGuard
