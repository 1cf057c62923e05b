import NullGuard.Proofs.Eval.Fuel
import NullGuard.Proofs.Expr.FreeNames

/-! # Evaluation with all names bound

A closure takes its bindings along, so a query whose free names are bound finds every parameter
bound, also those in the bodies of lambdas that are called later. -/

namespace NullGuard

namespace Env

/-- All free names of the expression are bound. -/
def Covers (env : Env) (e : Expr) : Prop :=
  ∀ name, e.FreeIn name → (List.lookup name env).isSome

theorem isSome_lookup_insert {env : Env} {name other : String} (value : Value)
    (h : other ≠ name → (List.lookup other env).isSome) :
    (List.lookup other (env.insert name value)).isSome := by
  by_cases hname : other = name
  · rw [hname, lookup_insert_self]
    rfl
  · rw [lookup_insert_of_ne env hname]
    exact h hname

theorem isSome_lookup_insertAll {env : Env} {params : List Param} {args : List Value}
    (hlength : params.length = args.length) {name : String}
    (h : name ∉ params.map Param.name → (List.lookup name env).isSome) :
    (List.lookup name (env.insertAll params args)).isSome := by
  induction params generalizing env args with
  | nil => exact h List.not_mem_nil
  | cons param params ih =>
    obtain ⟨arg, args, rfl⟩ := List.exists_cons_of_length_eq_add_one hlength.symm
    rw [insertAll_cons]
    refine ih (Nat.succ.inj hlength) fun hparams => isSome_lookup_insert arg fun hparam => h ?_
    exact List.not_mem_cons_of_ne_of_not_mem hparam hparams

end Env

/-! ## Queries that find their names bound -/

/-- All free names of the body are parameters of the closure or among the bindings that it holds. -/
def BoundClosure (params : List Param) (body : Expr) (env : Env) : Prop :=
  ∀ name, body.FreeIn name → name ∉ params.map Param.name → (List.lookup name env).isSome

/-- An evaluation is compared with itself, and must not fail at an unbound name. -/
def Comparison.bound : Comparison :=
  inStep (fun stop => ∀ name, stop ≠ .fault (.unboundParameter name)) (fun _ => False) BoundClosure
    fun h => .inl fun _ heq => by
      cases heq
      cases h

theorem Comparison.bound_admitsNull : bound.AdmitsNull := by
  rintro error hfault
  refine .inl fun name heq => ?_
  cases heq
  cases hfault

namespace Context

open Comparison

/-- With this much fuel, queries with all free names bound find them bound. -/
def BoundWith (context : Context) (fuel : Nat) : Prop :=
  ∀ {e env}, Env.Covers env e → Env.All bound.Data env →
    bound.Agree bound.Same (context.eval fuel e env) (context.eval fuel e env)

section BoundWith

variable {context : Context} {fuel : Nat} (ih : context.BoundWith fuel)

include ih

theorem BoundWith.invoke (callee callee' item : Value) (hcallee : bound.Argument callee callee')
    (hitem : bound.Data item) :
    bound.Agree bound.Same (invoke (context.eval fuel) callee [item])
      (invoke (context.eval fuel) callee' [item]) := by
  cases hcallee with
  | callee hcallee => cases hcallee
  | same hcallee =>
    refine invoke_agree fun params body env heq hlength => ?_
    subst heq
    obtain ⟨hbody, henv⟩ := hcallee.of_closure
    refine ih (fun name hfree => ?_)
      (Env.All.insertAll henv params (List.forall_mem_singleton.mpr hitem))
    exact Env.isSome_lookup_insertAll hlength (hbody name hfree)

variable {e : Expr} {env : Env} (h : env.Covers e) (hdata : env.All bound.Data)

include h hdata

theorem BoundWith.of_mem_children (hpasses : e.passesNames = true) {part : Expr}
    (hpart : part ∈ e.children) :
    bound.Agree bound.Same (context.eval fuel part env) (context.eval fuel part env) :=
  ih (fun name hfree => h name <|
    (Expr.freeIn_of_passesNames hpasses).mpr ⟨part, hpart, hfree⟩) hdata

theorem BoundWith.passesNames (hpasses : e.passesNames = true) :
    bound.Agree bound.Same (context.eval (fuel + 1) e env) (context.eval (fuel + 1) e env) := by
  refine context.evalNode_agree_of_passesNames hpasses ih.invoke (fun part hpart => ?_)
    (fun arg harg => ?_) fun _ _ => bound_admitsNull
  · exact ih.of_mem_children h hdata hpasses (List.mem_of_mem_take hpart)
  · exact (ih.of_mem_children h hdata hpasses (List.mem_of_mem_drop harg)).argument

theorem BoundWith.binder (hpasses : e.passesNames = false) :
    bound.Agree bound.Same (context.eval (fuel + 1) e env) (context.eval (fuel + 1) e env) := by
  cases e with
  | param ty name =>
    refine context.param_agree ty rfl (fun value hvalue => hdata.of_lookup hvalue) fun hnone => ?_
    have hsome := h name .param
    rw [hnone] at hsome
    cases hsome
  | lambda ty params body =>
    refine .pure ⟨rfl, .closure (fun name hfree hparams => ?_) hdata⟩
    exact h name (Expr.freeIn_lambda.mpr ⟨hparams, hfree⟩)
  | bind ty var value body =>
    have hvalue : env.Covers value := fun name hfree => h name (Expr.freeIn_bind.mpr (.inl hfree))
    refine (ih hvalue hdata).bind fun held _ hheld => ?_
    obtain ⟨rfl, hheld⟩ := hheld
    refine ih (fun name hfree => ?_) (hdata.insert var.name hheld)
    exact Env.isSome_lookup_insert held fun hname =>
      h name (Expr.freeIn_bind.mpr (.inr ⟨hname, hfree⟩))
  | _ => cases hpasses

end BoundWith

theorem boundWith (context : Context) (fuel : Nat) : context.BoundWith fuel := by
  induction fuel with
  | zero => exact fun _ _ => .of_waived (fun _ hstop => nomatch hstop) _
  | succ fuel ih =>
    intro e env h hdata
    cases hpasses : e.passesNames with
    | true => exact ih.passesNames h hdata hpasses
    | false => exact ih.binder h hdata hpasses

/-- Over data, a query whose free names are bound never meets an unbound one. -/
theorem not_ends_of_covers {context : Context} {e : Expr} {env : Env} (h : env.Covers e)
    (hdata : Env.All Value.IsData env) (trace : Trace) (name : String) (after : Trace) :
    ¬ context.Ends e env trace (.error (.unboundParameter name)) after := by
  rintro ⟨fuel, hrun⟩
  have hdata' : env.All bound.Data := fun binding hbinding =>
    (hdata binding hbinding).mono fun _ _ _ => False.elim
  rcases (context.boundWith fuel h hdata' trace trace rfl).2 _ _ hrun with hwaived | ⟨hshared, _⟩
  · exact hwaived name rfl
  · cases hshared

end Context

end NullGuard
