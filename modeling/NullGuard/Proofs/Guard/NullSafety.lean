import NullGuard.Proofs.Eval.Fuel
import NullGuard.Proofs.Guard.Insert
import NullGuard.Proofs.Guard.Meaning
import NullGuard.Proofs.Guard.Trust

/-! # A guarded query never fails at null

What is known about parameters at each part of a query is true of their values whenever the part
is evaluated, in the body of a closure as well, which runs under the bindings that it holds. -/

namespace NullGuard

/-! ## Values of solid expressions -/

namespace Value

theorem isNull_convert (value : Value) (ty : Ty) : (value.convert ty).isNull = value.isNull := by
  unfold convert
  split <;> rfl

theorem isNull_construct (defs : Definitions) {ty : Ty} (h : ty.named?.isSome = true) :
    (construct defs ty).isNull = false := by
  cases ty with
  | named definition args =>
    simp only [construct]
    split
    · rfl
    · split
      · rfl
      · split
        · rfl
        · rename_i hnull
          simpa using hnull
  | _ => cases h

theorem isNull_ofLiteral {literal : Literal} (h : literal ≠ .null) :
    (ofLiteral literal).isNull = false := by
  cases literal with
  | null => exact absurd rfl h
  | _ => rfl

end Value

namespace Context

variable {context : Context} {fuel : Nat} {e : Expr} {env : Env} {trace after : Trace}
  {value : Value}

theorem isNull_of_isSolid (h : e.isSolid = true)
    (hrun : (context.eval fuel e env).runAt trace = (.ok value, after)) :
    value.isNull = false := by
  induction fuel generalizing e env trace after value with
  | zero => cases hrun
  | succ fuel ih =>
    cases e with
    | literal ty literal =>
      cases hrun
      refine Value.isNull_ofLiteral ?_
      rintro rfl
      cases h
    | construct ty args =>
      obtain ⟨_, _, _, hpure⟩ := EvalM.runAt_bind_eq_ok.mp hrun
      cases hpure
      exact Value.isNull_construct _ h
    | newArray ty elements =>
      obtain ⟨_, _, _, hpure⟩ := EvalM.runAt_bind_eq_ok.mp hrun
      cases hpure
      rfl
    | convert ty operand =>
      obtain ⟨_, _, hoperand, hpure⟩ := EvalM.runAt_bind_eq_ok.mp hrun
      cases hpure
      have hoperand' : operand.isSolid = true := h
      exact (Value.isNull_convert _ ty).trans (ih hoperand' hoperand)
    | coalesce ty left right =>
      obtain ⟨first, middle, _, hrest⟩ := EvalM.runAt_bind_eq_ok.mp hrun
      by_cases hnull : first.isNull = true
      · rw [if_pos hnull] at hrest
        have hright : right.isSolid = true := h
        exact ih hright hrest
      · rw [if_neg hnull] at hrest
        cases hrest
        simpa using hnull
    | _ => cases h

/-! ## Values of tests against null -/

theorem eq_null_of_eval {ty : Ty}
    (hrun : (context.eval fuel (.literal ty .null) env).runAt trace = (.ok value, after)) :
    value = .null := by
  cases fuel with
  | zero => cases hrun
  | succ fuel =>
    cases hrun
    rfl

theorem eval_nullTest {name : String} {whenNull : Bool}
    (h : e.nullTest? = some (name, whenNull))
    (hrun : (context.eval fuel e env).runAt trace = (.ok value, after)) :
    ∃ tested, List.lookup name env = some tested ∧
      value = .bool (tested.isNull == whenNull) := by
  obtain ⟨ty, paramTy, nullTy, left, right, rfl, hoperands⟩ := Expr.nullTest?_eq_some h
  cases fuel with
  | zero => cases hrun
  | succ fuel =>
    have hop : (decide ((if whenNull then BinaryOp.eq else .ne) = .and) ||
        decide ((if whenNull then BinaryOp.eq else .ne) = .or)) = false := by
      cases whenNull <;> rfl
    simp only [eval, evalNode, hop] at hrun
    obtain ⟨first, middle, hfirst, hrest⟩ := EvalM.runAt_bind_eq_ok.mp hrun
    obtain ⟨second, middle', hsecond, happly⟩ := EvalM.runAt_bind_eq_ok.mp hrest
    rcases hoperands with ⟨rfl, rfl⟩ | ⟨rfl, rfl⟩
    · obtain rfl := eq_null_of_eval hsecond
      have htest : (if whenNull then BinaryOp.eq else .ne).apply first .null =
          .ok (.bool (first.isNull == whenNull)) := by
        cases whenNull <;> simp [BinaryOp.apply, Value.looselyEquals_null]
      rw [htest] at happly
      cases happly
      exact ⟨first, lookup_of_eval_param hfirst, rfl⟩
    · obtain rfl := eq_null_of_eval hfirst
      have htest : (if whenNull then BinaryOp.eq else .ne).apply .null second =
          .ok (.bool (second.isNull == whenNull)) := by
        cases whenNull <;> simp [BinaryOp.apply, Value.null_looselyEquals]
      rw [htest] at happly
      cases happly
      exact ⟨second, lookup_of_eval_param hsecond, rfl⟩

end Context

/-! ## What is known about values -/

namespace Env

/-- The names that are bound among these are not bound to null. -/
def NonNull (known : List String) (env : Env) : Prop :=
  ∀ name ∈ known, ∀ value, List.lookup name env = some value → value.isNull = false

variable {known : List String} {env : Env}

theorem nonNull_nil (env : Env) : NonNull [] env :=
  nofun

theorem NonNull.append (h : NonNull known env) {other : List String} (hother : NonNull other env) :
    NonNull (other ++ known) env := by
  intro name hname
  rcases List.mem_append.mp hname with hname | hname
  · exact hother name hname
  · exact h name hname

theorem NonNull.unbound (h : NonNull known env) (params : List Param) (args : List Value) :
    NonNull (Expr.unbound known (params.map (·.name))) (env.insertAll params args) := by
  intro name hname value hvalue
  simp only [Expr.unbound, List.mem_filter, Bool.not_eq_true', List.contains_eq_mem,
    decide_eq_false_iff_not] at hname
  rw [lookup_insertAll_of_not_mem env args hname.2] at hvalue
  exact h name hname.1 value hvalue

end Env

/-- Nothing that is learned from a test is wrong in the branch that is taken. -/
theorem Context.nonNull_learned {context : Context} {fuel : Nat} {test : Expr} {env : Env}
    {trace after : Trace} {outcome : Bool}
    (hrun : (context.eval fuel test env).runAt trace = (.ok (.bool outcome), after)) :
    env.NonNull (test.learned outcome) := by
  intro name hname value hvalue
  obtain ⟨tested, htested, houtcome⟩ := eval_nullTest (Expr.mem_learned.mp hname) hrun
  obtain rfl : tested = value := Option.some.inj (htested.symm.trans hvalue)
  cases outcome <;> simpa using houtcome

theorem Context.isNull_of_secure {context : Context} {fuel : Nat} {known : List String}
    {node receiver : Expr} {env : Env} {trace after : Trace} {value : Value}
    (h : node.Secure known) (hreceiver : node.receiver? = some receiver)
    (hknown : env.NonNull known)
    (hrun : (context.eval fuel receiver env).runAt trace = (.ok value, after)) :
    value.isNull = false := by
  rcases h.2.2 receiver hreceiver with hsolid | ⟨ty, name, rfl, hname⟩
  · exact isNull_of_isSolid hsolid hrun
  · exact hknown name hname value (lookup_of_eval_param hrun)

/-! ## Secure queries -/

/-- A closure whose body is secure with what is known about the bindings that it holds. -/
def SecureClosure (params : List Param) (body : Expr) (env : Env) : Prop :=
  ∃ known, body.Throughout Expr.Secure (Expr.unbound known (params.map (·.name))) ∧
    env.NonNull known

/-- An evaluation is compared with itself, and must not fail at null. -/
def Comparison.nullSafe : Comparison :=
  inStep (fun stop => ∀ error, stop = .fault error → error.isNullFault = false) (fun _ => False)
    SecureClosure fun h => .inl fun _ heq =>
      Stop.fault.inj heq ▸ EvalError.isNullFault_of_isOrdinary h

theorem Expr.faultsAtNull_of_receiver? {node receiver : Expr} (h : node.receiver? = some receiver)
    {value : Value} (hvalue : value.isNull = false) : node.faultsAtNull [value] = false := by
  obtain ⟨_, _, _, rfl⟩ | ⟨_, _, _, rfl⟩ | ⟨_, _, _, _, rfl⟩ := exists_of_receiver? h <;>
    simp [faultsAtNull, hvalue]

theorem Expr.Secure.faultsAtNull_eq {known : List String} {node : Expr} (h : node.Secure known)
    (hnone : node.receiver? = none) (plain : List Value) : node.faultsAtNull plain = false := by
  cases node with
  | index => cases h.1
  | member | call => cases hnone
  | freeCall ty method args =>
    have hmethod : method.isExtension = false := by
      by_contra hext
      rw [Bool.not_eq_false] at hext
      cases args with
      | nil =>
        have hlacks := h.2.1
        simp [lacksReceiver, hext] at hlacks
      | cons => simp [receiver?, hext] at hnone
    cases plain <;> simp [faultsAtNull, hmethod]
  | _ => rfl

namespace Context

open Comparison

/-- With this much fuel, secure queries do not fail at null. -/
def SafeWith (context : Context) (fuel : Nat) : Prop :=
  ∀ {known e env}, Expr.Throughout Expr.Secure known e → Env.All nullSafe.Data env →
    Env.NonNull known env →
    nullSafe.Agree nullSafe.Same (context.eval fuel e env) (context.eval fuel e env)

section SafeWith

variable {context : Context} {fuel : Nat} (ih : context.SafeWith fuel)

include ih

theorem SafeWith.invoke (callee callee' item : Value) (hcallee : nullSafe.Argument callee callee')
    (hitem : nullSafe.Data item) :
    nullSafe.Agree nullSafe.Same (invoke (context.eval fuel) callee [item])
      (invoke (context.eval fuel) callee' [item]) := by
  cases hcallee with
  | callee hcallee => cases hcallee
  | same hcallee =>
    refine invoke_agree fun params body env heq _ => ?_
    subst heq
    obtain ⟨⟨known, hbody, hknown⟩, henv⟩ := hcallee.of_closure
    exact ih hbody (Env.All.insertAll henv params (List.forall_mem_singleton.mpr hitem))
      (hknown.unbound params [item])

variable {known : List String} {e : Expr} {env : Env} (h : e.Throughout Expr.Secure known)
  (hdata : env.All nullSafe.Data) (hknown : env.NonNull known)

include h hdata hknown

theorem SafeWith.of_mem_children (hscope : e.changesScope = false) {part : Expr}
    (hpart : part ∈ e.children) :
    nullSafe.Agree nullSafe.Same (context.eval fuel part env) (context.eval fuel part env) := by
  have hmem : (known, part) ∈ e.scopes known := by
    rw [Expr.scopes_of_not_changesScope hscope]
    exact List.mem_map_of_mem hpart
  exact ih (h.of_mem_scopes hmem) hdata hknown

theorem SafeWith.methodArg (hscope : e.changesScope = false) {arg : Expr}
    (harg : arg ∈ e.methodArgs) :
    nullSafe.Agree nullSafe.Argument (context.eval fuel arg env) (context.eval fuel arg env) :=
  (ih.of_mem_children h hdata hknown hscope (List.mem_of_mem_drop harg)).argument

theorem SafeWith.receiver {receiver : Expr} (hreceiver : e.receiver? = some receiver) :
    nullSafe.Agree nullSafe.Same (context.eval (fuel + 1) e env)
      (context.eval (fuel + 1) e env) := by
  have hscope := Expr.changesScope_of_receiver? hreceiver
  have hmem : receiver ∈ e.children := Expr.children_of_receiver? hreceiver ▸ List.mem_cons_self
  rw [eval, evalNode_of_receiver? context _ hreceiver]
  have hvalue := (ih.of_mem_children h hdata hknown hscope hmem).and_of_ok
    fun trace value after hrun => isNull_of_secure h.here hreceiver hknown hrun
  refine hvalue.bind fun value _ hvalue => ?_
  obtain ⟨⟨rfl, hvalue⟩, hnull⟩ := hvalue
  refine context.proceed_agree ih.invoke hvalue rfl
    (List.forall₂_same.mpr fun arg harg => ih.methodArg h hdata hknown hscope harg) ?_
  intro hfault
  rw [Expr.faultsAtNull_of_receiver? hreceiver hnull] at hfault
  cases hfault

theorem SafeWith.sameScope (hscope : e.changesScope = false) (hnone : e.receiver? = none) :
    nullSafe.Agree nullSafe.Same (context.eval (fuel + 1) e env)
      (context.eval (fuel + 1) e env) := by
  cases hpasses : e.passesNames with
  | true =>
    refine context.evalNode_agree_of_passesNames hpasses ih.invoke (fun part hpart => ?_)
      (fun arg harg => ih.methodArg h hdata hknown hscope harg) fun plain hfault => ?_
    · exact ih.of_mem_children h hdata hknown hscope (List.mem_of_mem_take hpart)
    · rw [h.here.faultsAtNull_eq hnone] at hfault
      cases hfault
  | false =>
    cases e with
    | param ty name =>
      exact context.param_agree ty rfl (fun value hvalue => hdata.of_lookup hvalue)
        fun _ => .inl fun _ heq => Stop.fault.inj heq ▸ rfl
    | lambda | bind => cases hscope
    | _ => cases hpasses

theorem SafeWith.otherScope (hscope : e.changesScope = true) :
    nullSafe.Agree nullSafe.Same (context.eval (fuel + 1) e env)
      (context.eval (fuel + 1) e env) := by
  cases e with
  | lambda ty params body =>
    have hbody := h.of_mem_scopes List.mem_cons_self
    exact .pure ⟨rfl, .closure ⟨known, hbody, hknown⟩ hdata⟩
  | cond ty test ifTrue ifFalse =>
    have hparts : ∀ part ∈ (Expr.cond ty test ifTrue ifFalse).scopes known,
        part.2.Throughout Expr.Secure part.1 := fun _ => h.of_mem_scopes
    simp only [Expr.scopes, List.forall_mem_cons] at hparts
    obtain ⟨htest, htrue, hfalse, _⟩ := hparts
    have hlearned := (ih htest hdata hknown).and_of_ok fun trace value after hrun =>
      show ∀ outcome, value = .bool outcome → env.NonNull (test.learned outcome) from
        fun outcome heq => nonNull_learned (heq ▸ hrun)
    refine context.cond_agree ty hlearned (fun hlearned => ?_) fun hlearned => ?_
    · exact ih htrue hdata (hknown.append (hlearned true rfl))
    · exact ih hfalse hdata (hknown.append (hlearned false rfl))
  | bind ty var value body =>
    have hparts : ∀ part ∈ (Expr.bind ty var value body).scopes known,
        part.2.Throughout Expr.Secure part.1 := fun _ => h.of_mem_scopes
    simp only [Expr.scopes, List.forall_mem_cons] at hparts
    obtain ⟨hvalue, hbody, _⟩ := hparts
    refine (ih hvalue hdata hknown).bind fun bound _ hbound => ?_
    obtain ⟨rfl, hbound⟩ := hbound
    exact ih hbody (hdata.insert var.name hbound) (hknown.unbound [var] [bound])
  | _ => cases hscope

end SafeWith

theorem safeWith (context : Context) (fuel : Nat) : context.SafeWith fuel := by
  induction fuel with
  | zero => exact fun _ _ _ => .of_waived (fun _ hstop => nomatch hstop) _
  | succ fuel ih =>
    intro known e env h hdata hknown
    cases hreceiver : e.receiver? with
    | some receiver => exact ih.receiver h hdata hknown hreceiver
    | none =>
      cases hscope : e.changesScope with
      | false => exact ih.sameScope h hdata hknown hscope hreceiver
      | true => exact ih.otherScope h hdata hknown hscope

end Context

/-- A guarded query over data does not fail at null, if its receivers deserve their trust. -/
theorem Context.not_ends_insertGuards_of_isNullFault {context : Context} {options : GuardOptions}
    {cache left : FallbackCache} {e : Expr} {guarded : Guarded} {env : Env} {trace after : Trace}
    {error : EvalError} (hcache : cache.Computed)
    (hinsert : e.insertGuards context.defs options cache = (.ok guarded, left))
    (he : e.IsTrustworthy context.defs) (hdata : Env.All Value.IsData env)
    (hfault : error.isNullFault = true) :
    ¬ context.Ends guarded.expr env trace (.error error) after := by
  rintro ⟨fuel, hrun⟩
  have hsecure := (Expr.insertGuards_guards hcache hinsert).secure he
  have hdata' : env.All Comparison.nullSafe.Data := fun binding hbinding =>
    (hdata binding hbinding).mono fun _ _ _ => False.elim
  have hagree := context.safeWith fuel hsecure hdata' (env.nonNull_nil)
  rcases (hagree trace trace rfl).2 _ _ hrun with hwaived | ⟨hshared, _⟩
  · rw [hwaived error rfl] at hfault
    cases hfault
  · cases hshared

/-- `xs.Select(x => x.Name.Length)` over objects. -/
def selectLengths : Expr :=
  .call .object (.param .object "xs") ⟨"Select", none, false⟩
    [.lambda .object [⟨"x", .object⟩]
      (.member .int (.member .string (.param .object "x") "Name" .object) "Length" .string)]

/-- No name and no object. -/
def missingNames : Env :=
  [("xs", .list [.object .object [("Name", .null)], .null])]

/-- The query fails at the missing name, and its guarded form does not fail at any null. -/
theorem not_ends_insertGuards_selectLengths :
    ∃ guarded left, selectLengths.insertGuards .empty {} .empty = (.ok guarded, left) ∧
      Context.Ends ⟨.empty, .builtin⟩ selectLengths missingNames .empty
        (.error (.nullReference "Length")) ⟨[.member "Name", .call "Select"], []⟩ ∧
      ∀ error after, error.isNullFault = true →
        ¬ Context.Ends ⟨.empty, .builtin⟩ guarded.expr missingNames .empty (.error error)
          after := by
  have hinsert : ∃ guarded left,
      selectLengths.insertGuards .empty {} .empty = (.ok guarded, left) := ⟨_, _, by cbv⟩
  obtain ⟨guarded, left, hinsert⟩ := hinsert
  have hends : Context.Ends ⟨.empty, .builtin⟩ selectLengths missingNames .empty
      (.error (.nullReference "Length")) ⟨[.member "Name", .call "Select"], []⟩ := ⟨5, by cbv⟩
  have htrust : selectLengths.IsTrustworthy .empty := by
    unfold Expr.IsTrustworthy
    decide +kernel
  have hdata : Env.All Value.IsData missingNames := by
    refine List.forall_mem_singleton.mpr (.collection (List.forall_mem_cons.mpr ⟨?_, ?_⟩))
    · exact .object (List.forall_mem_singleton.mpr (.scalar rfl))
    · exact List.forall_mem_singleton.mpr (.scalar rfl)
  exact ⟨guarded, left, hinsert, hends, fun error after =>
    Context.not_ends_insertGuards_of_isNullFault FallbackCache.empty_computed hinsert htrust hdata⟩

end NullGuard
