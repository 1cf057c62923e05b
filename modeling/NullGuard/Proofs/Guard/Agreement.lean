import NullGuard.Proofs.Eval.Fuel
import NullGuard.Proofs.Guard.FirstOrder
import NullGuard.Proofs.Guard.Insert
import NullGuard.Proofs.Guard.Meaning

/-! # Guards keep the value of a query

Where a query has a value, the guarded query has the same one. Both evaluations run side by side;
the second one has further names in its environments and needs up to four levels where the first
one needs one. -/

namespace NullGuard

open List (Forall₂)

/-! ## The comparison -/

/-- Closures that a query and its guarded form make of the same lambda. -/
inductive GuardedCallee (rules : GuardRules) (exact : Prop) : Value → Value → Prop where
  | closure {known params body body' env env'} (hguards : Guards rules known body body')
      (hbody : body.IsComparable exact) (hdata : Env.All Value.IsData env)
      (hagree : Env.AgreeOn body'.names env env') :
      GuardedCallee rules exact (.closure params body env) (.closure params body' env')

/-- Only the values are compared, and the traces where these are of interest. -/
def Comparison.guarding (rules : GuardRules) (exact : Prop) : Comparison where
  traces trace trace' := exact → trace = trace'
  waived _ := True
  shared _ := False
  closures _ _ _ := False
  callees := GuardedCallee rules exact
  traces_record access h hexact := by rw [h hexact]
  traces_recordLookup ty name h hexact := by rw [h hexact]
  ordinary _ := .inl trivial
  callees_closure := by
    rintro _ _ ⟨_, _, _, _⟩
    exact ⟨⟨_, _, _, rfl⟩, _, _, _, rfl⟩
  callees_equals := by
    rintro _ _ item ⟨_, _, _, _⟩ hitem
    have hne := Value.IsData.ne_closure hitem
    rw [Value.looselyEquals_closure hne, Value.looselyEquals_closure hne]

theorem GuardsParts.of_isStrict {rules : GuardRules} {known : List String} {e : Expr}
    {parts : List Expr} (h : GuardsParts rules known e parts) (hstrict : e.isStrict = true) :
    Forall₂ (Guards rules known) e.children parts :=
  h.of_not_changesScope (Expr.changesScope_of_isStrict hstrict)

theorem Seals.eq_of_not_isStrict {known : List String} {rules : GuardRules} {node r : Expr}
    (hseal : Seals rules known node r) (h : node.isStrict = false) : r = node := by
  refine hseal.eq_of_receiver?_eq_none ?_
  cases hreceiver : node.receiver? with
  | none => rfl
  | some receiver => cases h.symm.trans (Expr.isStrict_of_receiver? hreceiver)

namespace Context

open Comparison

/-- With this much fuel for it, a query agrees with its guarded form. -/
def GuardsAgree (context : Context) (rules : GuardRules) (exact : Prop) (fuel : Nat) : Prop :=
  ∀ fuel' known e r env env', 4 * fuel ≤ fuel' → Guards rules known e r → e.IsComparable exact →
    Env.All Value.IsData env → Env.AgreeOn r.names env env' →
    (guarding rules exact).Agree (guarding rules exact).Same (context.eval fuel e env)
      (context.eval fuel' r env')

section GuardsAgree

variable {context : Context} {rules : GuardRules} {exact : Prop} {fuel fuel' : Nat}
  {known : List String} {e : Expr} {parts : List Expr} {env env' : Env}
  (h : context.GuardsAgree rules exact fuel) (hfuel : 4 * fuel ≤ fuel')

include h hfuel

theorem GuardsAgree.callee (callee callee' item : Value)
    (hcallee : (guarding rules exact).Argument callee callee')
    (hitem : (guarding rules exact).Data item) :
    (guarding rules exact).Agree (guarding rules exact).Same
      (invoke (context.eval fuel) callee [item]) (invoke (context.eval fuel') callee' [item]) := by
  cases hcallee with
  | same hdata => exact invoke_agree_of_isData hdata [item]
  | callee hcallee =>
    obtain @⟨known, params, body, body', env, env', hguards, hbody, hdata, hagree⟩ := hcallee
    have hitems : ∀ arg ∈ [item], Value.IsData arg := List.forall_mem_singleton.mpr hitem
    unfold invoke
    dsimp only
    split
    · exact .fail rfl
    · exact h fuel' known body body' _ _ hfuel hguards hbody (hdata.insertAll params hitems)
        (hagree.insertAll params [item])

theorem GuardsAgree.arg (he : e.IsComparable exact) {arg arg' : Expr} (harg : arg ∈ e.children)
    (hguards : Guards rules known arg arg') (hdata : Env.All Value.IsData env)
    (hagree : Env.AgreeOn arg'.names env env') :
    (guarding rules exact).Agree (guarding rules exact).Argument (context.eval fuel arg env)
      (context.eval fuel' arg' env') := by
  by_cases hlambda : arg.isLambda = true
  · cases arg with
    | lambda ty params body =>
      cases fuel with
      | zero => exact .of_waived trivial _
      | succ fuel =>
        obtain ⟨fuel', rfl⟩ : ∃ less, fuel' = less + 1 := ⟨fuel' - 1, by omega⟩
        cases hguards with
        | node _ hparts hseal =>
          rcases hparts with _ | ⟨hbody, _ | _⟩
          cases hseal with
          | free =>
            refine .pure (.callee (.closure hbody (he.of_lambda harg) hdata ?_))
            exact hagree.mono (Expr.names_subset_of_mem_children List.mem_cons_self)
          | kept hnone | coalesced hnone | tested hnone | held hnone => cases hnone
    | _ => cases hlambda
  · rw [Bool.not_eq_true] at hlambda
    exact (h fuel' known arg arg' env env' hfuel hguards (he.of_mem_children harg hlambda) hdata
      hagree).argument

variable (he : e.IsComparable exact) (hparts : Forall₂ (Guards rules known) e.children parts)
  (hdata : Env.All Value.IsData env) (hagree : ∀ part ∈ parts, Env.AgreeOn part.names env env')

include he hparts hdata hagree

theorem GuardsAgree.plainParts :
    Forall₂ (fun part part' => (guarding rules exact).Agree (guarding rules exact).Same
      (context.eval fuel part env) (context.eval fuel' part' env'))
      e.plainParts (e.withChildren parts).plainParts := by
  rw [Expr.plainParts_withChildren hparts.length_eq.symm]
  refine forall₂_imp_of_mem (List.forall₂_take _ hparts) fun part hpart part' hpart' hguards => ?_
  exact h fuel' known part part' env env' hfuel hguards (he.of_mem_plainParts hpart) hdata
    (hagree part' (List.mem_of_mem_take hpart'))

theorem GuardsAgree.methodArgs :
    Forall₂ (fun arg arg' => (guarding rules exact).Agree (guarding rules exact).Argument
      (context.eval fuel arg env) (context.eval fuel' arg' env'))
      e.methodArgs (e.withChildren parts).methodArgs := by
  rw [Expr.methodArgs_withChildren hparts.length_eq.symm]
  refine forall₂_imp_of_mem (List.forall₂_drop _ hparts) fun arg harg arg' harg' hguards => ?_
  exact h.arg hfuel he (List.mem_of_mem_drop harg) hguards hdata
    (hagree arg' (List.mem_of_mem_drop harg'))

end GuardsAgree

section Checked

variable {context : Context} {rules : GuardRules} {exact : Prop} {fuel fuel' : Nat}
  {known : List String} {e receiver other : Expr} {parts : List Expr} {env env' : Env}

/-- Nothing is asked of the guarded query where the query has no value. -/
theorem guarding_agree_of_ne_ok {R : Value → Value → Prop} {first second : EvalM Value}
    (h : ∀ trace value after, first.runAt trace ≠ (.ok value, after)) :
    (guarding rules exact).Agree R first second :=
  fun trace _ _ => ⟨fun value after hrun => absurd hrun (h trace value after),
    fun _ _ _ => .inl trivial⟩

theorem eval_shortCircuit_bool (hdefs : rules.defs = context.defs) :
    context.eval (fuel + 2) (rules.shortCircuit .bool) env = pure (.bool false) := by
  have hfallback : rules.fallback .bool = none := by
    cases hrecipe : rules.fallback .bool with
    | none => rfl
    | some recipe => exact absurd rfl ((rules.emptyInstance hrecipe).ty_ne_intrinsic .bool)
  rw [context.eval_shortCircuit_of_none fuel hdefs (by simp [hfallback])]
  simp [Value.default, Ty.canBeNull, Ty.isValueType, Intrinsic.isValueType]

/-- Where the receiver is null, the query has no value unless it asks whether the receiver has
one; a guard gives the answer to that. -/
theorem guarding_agree_null (hdefs : rules.defs = context.defs) (he : e.IsComparable exact)
    (hreceiver : e.receiver? = some receiver) :
    (guarding rules exact).Agree (guarding rules exact).Same
      (context.proceed (context.eval fuel) e env .null)
      (context.eval (fuel' + 2) (rules.shortCircuit e.ty) env') := by
  rcases Expr.faultsAtNull_null hreceiver with hfault | ⟨ty, declaring, rfl, hnullable⟩
  · exact guarding_agree_of_ne_ok fun _ _ _ => proceed_null_ne_ok hreceiver _ hfault env
  · obtain rfl : ty = .bool := by
      simpa [Expr.typesHasValue, hnullable] using he.typesHasValue.here
    have hleft : context.proceed (context.eval fuel) (.member .bool receiver "HasValue" declaring)
        env .null = (do
          EvalM.record (.member "HasValue")
          return .bool false) :=
      readMember_null_of_hasValue context ⟨rfl, hnullable⟩ .bool
    rw [hleft, Expr.ty, eval_shortCircuit_bool hdefs]
    intro trace trace' htraces
    refine ⟨fun value after hrun => ?_, fun _ _ _ => .inl trivial⟩
    cases hrun
    refine ⟨.bool false, trace', rfl, ⟨rfl, .scalar rfl⟩, fun hexact => ?_⟩
    have hreads := (he.reads hexact).here
    simp [Expr.readsHasValue] at hreads

/-- Behind a test of the receiver's value, the node and its guarded form agree. -/
theorem GuardsAgree.checked (h : context.GuardsAgree rules exact fuel)
    (hdefs : rules.defs = context.defs) (hfuel : 4 * fuel ≤ fuel' + 1)
    (he : e.IsComparable exact) (hparts : Forall₂ (Guards rules known) e.children parts)
    (hdata : Env.All Value.IsData env) (hagree : ∀ part ∈ parts, Env.AgreeOn part.names env env')
    (hreceiver : (e.withChildren parts).receiver? = some receiver) (hty : other.ty = receiver.ty)
    {value : Value} (hvalue : value.IsData)
    (hother : context.eval (fuel' + 1) other env' = pure value) :
    (guarding rules exact).Agree (guarding rules exact).Same
      (context.proceed (context.eval fuel) e env value)
      (context.eval (fuel' + 2)
        (if value.isNull then rules.shortCircuit e.ty
          else (e.withChildren parts).withReceiver other)
        env') := by
  by_cases hnull : value.isNull = true
  · obtain rfl := Value.eq_null_of_isNull hnull
    obtain ⟨_, original, horiginal, _⟩ := exists_receiver_of_withChildren hparts hreceiver
    exact guarding_agree_null hdefs he horiginal
  · have hnode := Expr.receiver?_withReceiver hreceiver other
    have hright : context.eval (fuel' + 2) ((e.withChildren parts).withReceiver other) env' =
        context.proceed (context.eval (fuel' + 1)) ((e.withChildren parts).withReceiver other) env'
          value := by
      rw [eval, evalNode_of_receiver? context _ hnode, hother, pure_bind]
    simp only [hnull, Bool.false_eq_true, if_false]
    rw [hright]
    refine context.proceed_agree (h.callee hfuel) hvalue ?_ ?_ fun _ _ _ => .inl trivial
    · rw [combine_withReceiver context _ hreceiver hty,
        combine_withChildren context _ (map_ty_eq hparts)]
    · rw [Expr.methodArgs_withReceiver hreceiver]
      exact h.methodArgs hfuel he hparts hdata hagree

end Checked

section Seals

variable {context : Context} {rules : GuardRules} {exact : Prop} {fuel fuel' : Nat}
  {known : List String} {e receiver : Expr} {parts : List Expr} {env env' : Env}
  (h : context.GuardsAgree rules exact fuel) (hdefs : rules.defs = context.defs)
  (hfuel : 4 * fuel ≤ fuel') (he : e.IsComparable exact)
  (hparts : Forall₂ (Guards rules known) e.children parts) (hdata : Env.All Value.IsData env)
  (hagree : ∀ part ∈ parts, Env.AgreeOn part.names env env')

include h hfuel he hparts hdata hagree

theorem GuardsAgree.kept (hstrict : e.isStrict = true) :
    (guarding rules exact).Agree (guarding rules exact).Same (context.eval (fuel + 1) e env)
      (context.eval (fuel' + 1) (e.withChildren parts) env') :=
  context.evalNode_agree_of_isStrict (h.callee hfuel) hstrict
    ((Expr.isStrict_withChildren e parts).trans hstrict)
    (combine_withChildren context _ (map_ty_eq hparts))
    (h.plainParts hfuel he hparts hdata hagree) (h.methodArgs hfuel he hparts hdata hagree)
    fun _ _ _ _ => .inl trivial

variable (hreceiver : (e.withChildren parts).receiver? = some receiver)

include hreceiver

omit hfuel in
theorem GuardsAgree.exists_original :
    ∃ original, e.receiver? = some original ∧ Guards rules known original receiver ∧
      ∀ fuel'', 4 * fuel ≤ fuel'' →
        (guarding rules exact).Agree (guarding rules exact).Same (context.eval fuel original env)
          (context.eval fuel'' receiver env') := by
  obtain ⟨hmem, original, horiginal, hguards⟩ := exists_receiver_of_withChildren hparts hreceiver
  have hplain : original ∈ e.plainParts := by
    rw [Expr.plainParts_of_receiver? horiginal]
    exact List.mem_cons_self
  exact ⟨original, horiginal, hguards, fun fuel'' hfuel'' =>
    h fuel'' known original receiver env env' hfuel'' hguards (he.of_mem_plainParts hplain) hdata
      (hagree receiver hmem)⟩

theorem GuardsAgree.coalesced {recipe : Expr}
    (hfallback : rules.fallback receiver.ty = some recipe) :
    (guarding rules exact).Agree (guarding rules exact).Same (context.eval (fuel + 1) e env)
      (context.eval (fuel' + 4)
        ((e.withChildren parts).withReceiver (.coalesceOf receiver recipe)) env') := by
  obtain ⟨original, horiginal, hguards, hagrees⟩ :=
    h.exists_original he hparts hdata hagree hreceiver
  have hnode := Expr.receiver?_withReceiver hreceiver (.coalesceOf receiver recipe)
  rw [eval, evalNode_of_receiver? context _ horiginal, eval, evalNode_of_receiver? context _ hnode,
    eval_coalesceOf, bind_assoc]
  refine (hagrees (fuel' + 2) (by omega)).bind fun value _ hvalue => ?_
  obtain ⟨rfl, hvalue⟩ := hvalue
  by_cases hnull : value.isNull = true
  · obtain rfl := Value.eq_null_of_isNull hnull
    rcases Expr.faultsAtNull_null horiginal with hfault | ⟨_, _, _, hnullable⟩
    · exact guarding_agree_of_ne_ok fun _ _ _ => proceed_null_ne_ok horiginal _ hfault env
    · rw [← hguards.ty_eq, (rules.emptyInstance hfallback).underlying?_eq_none] at hnullable
      cases hnullable
  · simp only [hnull, Bool.false_eq_true, if_false, pure_bind]
    refine context.proceed_agree (h.callee (by omega)) hvalue ?_ ?_ fun _ _ _ => .inl trivial
    · have hty : (Expr.coalesceOf receiver recipe).ty = receiver.ty := rfl
      rw [combine_withReceiver context _ hreceiver hty,
        combine_withChildren context _ (map_ty_eq hparts)]
    · rw [Expr.methodArgs_withReceiver hreceiver]
      exact h.methodArgs (by omega) he hparts hdata hagree

include hdefs

theorem GuardsAgree.tested {ty : Ty} {name : String} (hparam : receiver = .param ty name) :
    (guarding rules exact).Agree (guarding rules exact).Same (context.eval (fuel + 1) e env)
      (context.eval (fuel' + 4)
        (nullCheck receiver (rules.shortCircuit e.ty) (e.withChildren parts) e.ty) env') := by
  subst hparam
  obtain ⟨hmem, original, horiginal, hguards⟩ := exists_receiver_of_withChildren hparts hreceiver
  obtain rfl : Expr.param ty name = original :=
    hguards.eq_of_isAtom (hguards.isAtom_eq.symm.trans rfl)
  have hlookup : List.lookup name env' = List.lookup name env := hagree _ hmem name (by simp)
  rw [eval, evalNode_of_receiver? context _ horiginal]
  cases fuel with
  | zero => exact .of_waived trivial _
  | succ fuel =>
    cases hvalue : List.lookup name env with
    | none =>
      rw [context.eval_param_of_unbound fuel hvalue]
      exact .of_waived trivial _
    | some value =>
      rw [hvalue] at hlookup
      have hother := eval_param_of_lookup context (fuel' + 1) hlookup ty
      rw [eval_param_of_lookup context fuel hvalue, pure_bind, eval_nullCheck context _ hlookup]
      have hfuel' : 4 * (fuel + 1) ≤ fuel' + 1 + 1 := by omega
      have hchecked := h.checked hdefs hfuel' he hparts hdata hagree hreceiver rfl
        (hdata.of_lookup hvalue) hother
      rw [Expr.withReceiver_self hreceiver] at hchecked
      exact hchecked

theorem GuardsAgree.held {name : String} (hfresh : ∀ part ∈ parts, name ∉ part.names) :
    (guarding rules exact).Agree (guarding rules exact).Same (context.eval (fuel + 1) e env)
      (context.eval (fuel' + 4) (.bindTo name receiver
        (nullCheck (.param receiver.ty name) (rules.shortCircuit e.ty)
          ((e.withChildren parts).withReceiver (.param receiver.ty name)) e.ty)) env') := by
  obtain ⟨original, horiginal, hguards, hagrees⟩ :=
    h.exists_original he hparts hdata hagree hreceiver
  rw [eval, evalNode_of_receiver? context _ horiginal, eval_bindTo]
  refine (hagrees (fuel' + 3) (by omega)).bind fun value _ hvalue => ?_
  obtain ⟨rfl, hvalue⟩ := hvalue
  have hfuel' : 4 * fuel ≤ fuel' + 1 := by omega
  have hlookup := Env.lookup_insert_self env' name value
  have hty : (Expr.param receiver.ty name).ty = receiver.ty := rfl
  rw [eval_nullCheck context _ hlookup]
  refine h.checked hdefs hfuel' he hparts hdata (fun part hpart => ?_) hreceiver hty hvalue
    (eval_param_of_lookup context _ hlookup _)
  exact (hagree part hpart).insert_of_not_mem (hfresh part hpart) value

end Seals

/-- The nodes that are not strict choose among their parts as before. -/
theorem GuardsAgree.free {context : Context} {rules : GuardRules} {exact : Prop}
    {fuel fuel' : Nat} {known : List String} {e : Expr} {parts : List Expr} {env env' : Env}
    (h : context.GuardsAgree rules exact fuel) (hfuel : 4 * fuel ≤ fuel')
    (he : e.IsComparable exact) (hstrict : e.isStrict = false)
    (hparts : GuardsParts rules known e parts) (hdata : Env.All Value.IsData env)
    (hagree : Env.AgreeOn (e.withChildren parts).names env env') :
    (guarding rules exact).Agree (guarding rules exact).Same (context.eval (fuel + 1) e env)
      (context.eval (fuel' + 1) (e.withChildren parts) env') := by
  have hpart : ∀ {known part part' env env'}, part ∈ e.plainParts →
      part' ∈ (e.withChildren parts).children → Guards rules known part part' →
      Env.All Value.IsData env → Env.AgreeOn (e.withChildren parts).names env env' →
      (guarding rules exact).Agree (guarding rules exact).Same (context.eval fuel part env)
        (context.eval fuel' part' env') :=
    fun hmem hmem' hguards hdata hagree => h _ _ _ _ _ _ hfuel hguards (he.of_mem_plainParts hmem)
      hdata (hagree.mono (Expr.names_subset_of_mem_children hmem'))
  cases e with
  | param ty name =>
    refine context.param_agree ty (hagree name ?_) (fun value hvalue => hdata.of_lookup hvalue)
      fun _ => .inl trivial
    simp [Expr.withChildren]
  | lambda => cases he.not_isLambda
  | binary ty op left right =>
    rcases hparts with _ | ⟨hleft, _ | ⟨hright, _ | _⟩⟩
    have hop : op = .and ∨ op = .or := by
      simpa [Expr.isStrict, imp_iff_not_or] using hstrict
    refine context.logical_agree hop ty (hpart ?_ ?_ hleft hdata hagree)
      (hpart ?_ ?_ hright hdata hagree)
    all_goals simp [Expr.plainParts, Expr.plainCount, Expr.withChildren, Expr.children]
  | coalesce ty left right =>
    rcases hparts with _ | ⟨hleft, _ | ⟨hright, _ | _⟩⟩
    refine context.coalesce_agree ty (hpart ?_ ?_ hleft hdata hagree)
      (hpart ?_ ?_ hright hdata hagree)
    all_goals simp [Expr.plainParts, Expr.plainCount, Expr.withChildren, Expr.children]
  | cond ty test ifTrue ifFalse =>
    rcases hparts with _ | ⟨htest, _ | ⟨htrue, _ | ⟨hfalse, _ | _⟩⟩⟩
    refine context.cond_agree ty ((hpart ?_ ?_ htest hdata hagree).mono fun _ _ h => ⟨h, trivial⟩)
      (fun _ => hpart ?_ ?_ htrue hdata hagree) (fun _ => hpart ?_ ?_ hfalse hdata hagree)
    all_goals simp [Expr.plainParts, Expr.plainCount, Expr.withChildren, Expr.children]
  | bind ty var value body =>
    rcases hparts with _ | ⟨hvalue, _ | ⟨hbody, _ | _⟩⟩
    refine (hpart ?_ ?_ hvalue hdata hagree).bind fun bound _ hbound => ?_
    · simp [Expr.plainParts, Expr.plainCount, Expr.children]
    · simp [Expr.withChildren, Expr.children]
    · obtain ⟨rfl, hbound⟩ := hbound
      refine hpart ?_ ?_ hbody (hdata.insert var.name hbound) (hagree.insert var.name bound)
      all_goals simp [Expr.plainParts, Expr.plainCount, Expr.withChildren, Expr.children]
  | _ => cases hstrict

theorem guardsAgree {context : Context} {rules : GuardRules} (exact : Prop)
    (hdefs : rules.defs = context.defs) (fuel : Nat) : context.GuardsAgree rules exact fuel := by
  induction fuel with
  | zero => exact fun _ _ _ _ _ _ _ _ _ _ _ => .of_waived trivial _
  | succ fuel ih =>
    intro fuel' known e r env env' hfuel hguards he hdata hagree
    obtain ⟨fuel', rfl⟩ : ∃ less, fuel' = less + 4 := ⟨fuel' - 4, by omega⟩
    cases hguards with
    | @node _ _ parts _ complete hparts hseal =>
      cases hstrict : e.isStrict with
      | false =>
        obtain rfl := hseal.eq_of_not_isStrict ((Expr.isStrict_withChildren e parts).trans hstrict)
        exact ih.free (by omega) he hstrict hparts hdata hagree
      | true =>
        have hparts' := GuardsParts.of_isStrict hparts hstrict
        have hagree' : ∀ part ∈ parts, Env.AgreeOn part.names env env' := by
          intro part hpart
          rw [← Expr.children_withChildren hparts'.length_eq.symm] at hpart
          exact hagree.mono (hseal.names_subset hpart)
        cases hseal with
        | free | kept => exact ih.kept (by omega) he hparts' hdata hagree' hstrict
        | coalesced hreceiver _ hfallback =>
          exact ih.coalesced (by omega) he hparts' hdata hagree' hreceiver hfallback
        | tested hreceiver =>
          rw [Expr.ty_withChildren]
          exact ih.tested hdefs (by omega) he hparts' hdata hagree' hreceiver rfl
        | held hreceiver _ _ _ hfresh =>
          rw [Expr.ty_withChildren]
          refine ih.held hdefs (by omega) he hparts' hdata hagree' hreceiver ?_
          intro part hpart hname
          rw [← Expr.children_withChildren hparts'.length_eq.symm] at hpart
          exact hfresh (Expr.names_subset_of_mem_children hpart hname)

end Context

/-- Where a first-order query has a value over data, its guarded form has the same value, and leaves
the same trace unless the query asks whether values are there. -/
theorem Context.ends_insertGuards {context : Context} {options : GuardOptions}
    {cache left : FallbackCache} {e : Expr} {guarded : Guarded} {env : Env} {trace after : Trace}
    {value : Value} (hcache : cache.Computed)
    (hinsert : e.insertGuards context.defs options cache = (.ok guarded, left))
    (he : e.IsFirstOrder) (hdata : Env.All Value.IsData env)
    (hends : context.Ends e env trace (.ok value) after) :
    ∃ after', context.Ends guarded.expr env trace (.ok value) after' ∧
      ((e.Every fun node => node.readsHasValue = false) → after' = after) := by
  obtain ⟨fuel, hrun⟩ := hends
  have hguards := Expr.insertGuards_guards hcache hinsert
  have hagree := guardsAgree (e.Every fun node => node.readsHasValue = false) rfl fuel (4 * fuel)
    _ e guarded.expr env env (Nat.le_refl _) hguards ⟨he, id⟩ hdata (.refl _ _)
  obtain ⟨_, after', hrun', ⟨rfl, _⟩, htraces⟩ :=
    (hagree trace trace fun _ => rfl).1 value after hrun
  exact ⟨after', ⟨4 * fuel, hrun'⟩, fun hreads => (htraces hreads).symm⟩

/-- `xs.Select(x => x.Name)` over objects. -/
def selectNames : Expr :=
  .call .object (.param .object "xs") ⟨"Select", none, false⟩
    [.lambda .object [⟨"x", .object⟩] (.member .object (.param .object "x") "Name" .object)]

theorem ends_insertGuards_selectNames :
    ∃ guarded left, selectNames.insertGuards .empty {} .empty = (.ok guarded, left) ∧
      guarded.stats.guards = 2 ∧
      Context.Ends ⟨.empty, .builtin⟩ guarded.expr
        [("xs", .list [.object .object [("Name", .string "a")]])] .empty
        (.ok (.list [.string "a"])) ⟨[.member "Name", .call "Select"], []⟩ := by
  have hinsert : ∃ guarded left, selectNames.insertGuards .empty {} .empty = (.ok guarded, left) ∧
      guarded.stats.guards = 2 := ⟨_, _, by cbv, by cbv⟩
  obtain ⟨guarded, left, hinsert, hguards⟩ := hinsert
  have hends : Context.Ends ⟨.empty, .builtin⟩ selectNames
      [("xs", .list [.object .object [("Name", .string "a")]])] .empty
      (.ok (.list [.string "a"])) ⟨[.member "Name", .call "Select"], []⟩ := ⟨4, by cbv⟩
  have hfirst : selectNames.IsFirstOrder :=
    ⟨⟨by decide +kernel, by decide +kernel⟩, by decide +kernel⟩
  have hdata : Env.All Value.IsData [("xs", .list [.object .object [("Name", .string "a")]])] := by
    refine List.forall_mem_singleton.mpr (.collection (List.forall_mem_singleton.mpr ?_))
    exact .object (List.forall_mem_singleton.mpr (.scalar rfl))
  obtain ⟨after, hguarded, hafter⟩ :=
    Context.ends_insertGuards FallbackCache.empty_computed hinsert hfirst hdata hends
  have hreads : selectNames.Every fun node => node.readsHasValue = false := by
    decide +kernel
  exact ⟨guarded, left, hinsert, hguards, hafter hreads ▸ hguarded⟩

end NullGuard
