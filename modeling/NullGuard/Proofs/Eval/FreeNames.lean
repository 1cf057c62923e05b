import NullGuard.Proofs.Eval.Termination
import NullGuard.Proofs.Expr.FreeNames

/-! # Evaluation sees only free names

A lambda takes along all bindings of the place where it is written, and a method applies it later.
What the body then finds under a name that is not free in the lambda is what the call has bound, so
that the other bindings make no difference. -/

namespace NullGuard

namespace Env

variable {env env' : Env} {names : List String}

theorem AgreeOn.of_mem_children {e part : Expr} (h : AgreeOn e.freeNames env env')
    (hpasses : e.passesNames = true) (hpart : part ∈ e.children) :
    AgreeOn part.freeNames env env' := by
  refine h.mono fun name hname => ?_
  rw [Expr.mem_freeNames] at hname ⊢
  exact (Expr.freeIn_of_passesNames hpasses).mpr ⟨part, hpart, hname⟩

/-- A name that is bound anew on both sides need not have been bound alike. -/
theorem AgreeOn.insert_of_filter {name : String} (h : AgreeOn (names.filter (· ≠ name)) env env')
    (value : Value) : AgreeOn names (env.insert name value) (env'.insert name value) := by
  intro other hother
  by_cases heq : other = name
  · rw [heq, lookup_insert_self, lookup_insert_self]
  · rw [lookup_insert_of_ne _ heq, lookup_insert_of_ne _ heq]
    exact h other (List.mem_filter.mpr ⟨hother, decide_eq_true heq⟩)

theorem AgreeOn.insertAll_of_filter {params : List Param} {args : List Value}
    (hlength : params.length = args.length)
    (h : AgreeOn (names.filter (· ∉ params.map Param.name)) env env') :
    AgreeOn names (env.insertAll params args) (env'.insertAll params args) := by
  induction params generalizing env env' args with
  | nil =>
    refine h.mono fun name hname => List.mem_filter.mpr ⟨hname, ?_⟩
    simp
  | cons param params ih =>
    obtain ⟨arg, args, rfl⟩ := List.exists_cons_of_length_eq_add_one hlength.symm
    rw [insertAll_cons, insertAll_cons]
    refine ih (Nat.succ.inj hlength) (AgreeOn.insert_of_filter (h.mono fun name hname => ?_) arg)
    simp only [List.mem_filter, decide_eq_true_eq, List.map_cons, List.mem_cons] at hname ⊢
    exact ⟨hname.1.1, not_or.mpr ⟨hname.2, hname.1.2⟩⟩

end Env

/-! ## The comparison -/

/-- Closures that one lambda makes over bindings that it cannot tell apart. -/
inductive SameLambda : Value → Value → Prop where
  | closure {params body env env'} (hbody : body.PassesLambdas)
      (hdata : Env.All Value.IsData env)
      (hagree : Env.AgreeOn (body.freeNames.filter (· ∉ params.map Param.name)) env env') :
      SameLambda (.closure params body env) (.closure params body env')

/-- Both evaluations end alike, and each one has added the same accesses to the log that it
started with. -/
def Comparison.sameEntries (start start' : Trace) : Comparison where
  traces trace trace' :=
    ∃ entries, trace.log = start.log ++ entries ∧ trace'.log = start'.log ++ entries
  waived _ := False
  shared _ := True
  closures _ _ _ := False
  callees := SameLambda
  traces_record access := by
    rintro ⟨entries, hlog, hlog'⟩
    refine ⟨entries ++ [access], ?_, ?_⟩
    · simp only [Trace.log, List.reverse_cons] at hlog ⊢
      rw [hlog, List.append_assoc]
    · simp only [Trace.log, List.reverse_cons] at hlog' ⊢
      rw [hlog', List.append_assoc]
  traces_recordLookup _ _ := id
  ordinary _ := .inr trivial
  callees_closure := by
    rintro _ _ ⟨_, _, _⟩
    exact ⟨⟨_, _, _, rfl⟩, _, _, _, rfl⟩
  callees_equals := by
    rintro _ _ item ⟨_, _, _⟩ hitem
    have hne := Value.IsData.ne_closure hitem
    rw [Value.looselyEquals_closure hne, Value.looselyEquals_closure hne]

namespace Context

open Comparison

/-- With this much fuel, an evaluation over data depends on the free names only. -/
def SeesFreeNames (context : Context) (start start' : Trace) (fuel : Nat) : Prop :=
  ∀ {e env env'}, e.PassesLambdas → Env.All Value.IsData env → Env.AgreeOn e.freeNames env env' →
    (sameEntries start start').Agree (sameEntries start start').Same (context.eval fuel e env)
      (context.eval fuel e env')

section SeesFreeNames

variable {context : Context} {start start' : Trace} {fuel : Nat}
  (ih : context.SeesFreeNames start start' fuel)

include ih

theorem SeesFreeNames.callee (callee callee' item : Value)
    (hcallee : (sameEntries start start').Argument callee callee')
    (hitem : (sameEntries start start').Data item) :
    (sameEntries start start').Agree (sameEntries start start').Same
      (invoke (context.eval fuel) callee [item]) (invoke (context.eval fuel) callee' [item]) := by
  cases hcallee with
  | same hdata => exact invoke_agree_of_isData hdata [item]
  | callee hcallee =>
    obtain @⟨params, body, env, env', hbody, hdata, hagree⟩ := hcallee
    unfold invoke
    dsimp only
    split
    · exact .fail rfl
    · rename_i hlength
      rw [not_ne_iff] at hlength
      exact ih hbody (hdata.insertAll params (List.forall_mem_singleton.mpr hitem))
        (hagree.insertAll_of_filter hlength)

variable {e : Expr} {env env' : Env} (h : e.PassesLambdas) (hdata : env.All Value.IsData)
  (hagree : Env.AgreeOn e.freeNames env env')

include h hdata hagree

theorem SeesFreeNames.of_mem_children (hpasses : e.passesNames = true) {part : Expr}
    (hpart : part ∈ e.children) (hlambda : part.isLambda = false) :
    (sameEntries start start').Agree (sameEntries start start').Same
      (context.eval fuel part env) (context.eval fuel part env') :=
  ih (h.of_mem_children hpart hlambda) hdata (hagree.of_mem_children hpasses hpart)

/-- What is passed to a method is data or the closure of a lambda that is written there. -/
theorem SeesFreeNames.methodArg (hpasses : e.passesNames = true) {arg : Expr}
    (harg : arg ∈ e.methodArgs) :
    (sameEntries start start').Agree (sameEntries start start').Argument
      (context.eval fuel arg env) (context.eval fuel arg env') := by
  have hmem := List.mem_of_mem_drop harg
  cases hlambda : arg.isLambda with
  | false => exact (ih.of_mem_children h hdata hagree hpasses hmem hlambda).argument
  | true =>
    cases arg with
    | lambda ty params body =>
      cases fuel with
      | zero => exact .throw (.inr trivial)
      | succ fuel =>
        have hfree := hagree.of_mem_children hpasses hmem
        rw [Expr.freeNames_lambda] at hfree
        exact .pure (.callee (.closure (h.of_lambda hmem) hdata hfree))
    | _ => cases hlambda

theorem SeesFreeNames.node :
    (sameEntries start start').Agree (sameEntries start start').Same
      (context.eval (fuel + 1) e env) (context.eval (fuel + 1) e env') := by
  cases hpasses : e.passesNames with
  | true =>
    refine context.evalNode_agree_of_passesNames hpasses ih.callee (fun part hpart => ?_)
      (fun arg harg => ih.methodArg h hdata hagree hpasses harg) fun _ _ _ _ => .inr trivial
    exact ih.of_mem_children h hdata hagree hpasses (List.mem_of_mem_take hpart)
      (h.every.here part hpart)
  | false =>
    cases e with
    | param ty name =>
      exact context.param_agree ty (hagree name (by simp))
        (fun value hvalue => hdata.of_lookup hvalue) fun _ => .inr trivial
    | lambda => cases h.not_isLambda
    | bind ty var value body =>
      have hvalue : value ∈ (Expr.bind ty var value body).plainParts := by
        simp [Expr.plainParts, Expr.plainCount, Expr.children]
      have hbody : body ∈ (Expr.bind ty var value body).plainParts := by
        simp [Expr.plainParts, Expr.plainCount, Expr.children]
      rw [Expr.freeNames_bind] at hagree
      refine (ih (h.of_mem_plainParts hvalue) hdata
        (hagree.mono (List.subset_append_left _ _))).bind fun held _ hheld => ?_
      obtain ⟨rfl, hheld⟩ := hheld
      exact ih (h.of_mem_plainParts hbody) (hdata.insert var.name hheld)
        ((hagree.mono (List.subset_append_right _ _)).insert_of_filter held)
    | _ => cases hpasses

end SeesFreeNames

theorem seesFreeNames (context : Context) (start start' : Trace) (fuel : Nat) :
    context.SeesFreeNames start start' fuel := by
  induction fuel with
  | zero => exact fun _ _ _ => .throw (.inr trivial)
  | succ fuel ih =>
    intro e env env' h hdata hagree
    exact ih.node h hdata hagree

/-- A query whose lambdas are only passed to methods ends in the same way, and with the same further
accesses, under any two environments over data that bind its free names alike, whatever has been
logged before. -/
theorem exists_ends_of_agreeOn (context : Context) {e : Expr} (h : e.PassesLambdas)
    {env env' : Env} (hdata : env.All Value.IsData) (hagree : Env.AgreeOn e.freeNames env env')
    (trace trace' : Trace) :
    ∃ (outcome : Except EvalError Value) (after after' : Trace) (entries : List Access),
      context.Ends e env trace outcome after ∧ context.Ends e env' trace' outcome after' ∧
      after.log = trace.log ++ entries ∧ after'.log = trace'.log ++ entries := by
  obtain ⟨outcome, after, hends, -⟩ := context.exists_eval_depth h hdata trace
  have hrun := hends e.depth le_rfl
  have hstart : (sameEntries trace trace').traces trace trace' :=
    ⟨[], (List.append_nil _).symm, (List.append_nil _).symm⟩
  obtain ⟨hok, herror⟩ :=
    context.seesFreeNames trace trace' e.depth h hdata hagree trace trace' hstart
  cases outcome with
  | ok value =>
    obtain ⟨_, after', hrun', ⟨rfl, -⟩, entries, hlog, hlog'⟩ := hok value after hrun
    exact ⟨.ok value, after, after', entries, ⟨e.depth, hrun⟩, ⟨e.depth, hrun'⟩, hlog, hlog'⟩
  | error error =>
    rcases herror (.fault error) after hrun with hwaived | ⟨-, after', hrun', entries, hlog, hlog'⟩
    · exact hwaived.elim
    · exact ⟨.error error, after, after', entries, ⟨e.depth, hrun⟩, ⟨e.depth, hrun'⟩, hlog, hlog'⟩

end Context

/-- `let least = n in xs.Where(x => least < x)` -/
def aboveLeast : Expr :=
  .bind (.listOf .int) ⟨"least", .int⟩ (.param .int "n")
    (.call (.listOf .int) (.param (.listOf .int) "xs") ⟨"Where", none, false⟩
      [.lambda .object [⟨"x", .int⟩]
        (.binary .bool .lt (.param .int "least") (.param .int "x"))])

/-- The variable and the parameter of the lambda may be bound outside to whatever data. -/
theorem exists_ends_aboveLeast :
    ∃ outcome after after' entries,
      Context.Ends ⟨.empty, .builtin⟩ aboveLeast
        [("n", .int 1), ("xs", .list [.int 1, .int 2])] .empty outcome after ∧
      Context.Ends ⟨.empty, .builtin⟩ aboveLeast
        [("x", .null), ("xs", .list [.int 1, .int 2]), ("least", .int 7), ("n", .int 1)]
        ⟨[.member "Name"], []⟩ outcome after' ∧
      outcome = .ok (.list [.int 2]) ∧ entries = [.call "Where"] ∧
      after.log = entries ∧ after'.log = .member "Name" :: entries := by
  have hpasses : aboveLeast.PassesLambdas := ⟨rfl, by decide +kernel⟩
  have hdata : Env.All Value.IsData [("n", .int 1), ("xs", .list [.int 1, .int 2])] := by
    refine List.forall_mem_cons.mpr ⟨.scalar rfl, List.forall_mem_singleton.mpr ?_⟩
    exact .collection <|
      List.forall_mem_cons.mpr ⟨.scalar rfl, List.forall_mem_singleton.mpr (.scalar rfl)⟩
  have hfree : aboveLeast.freeNames = ["n", "xs"] := by decide +kernel
  have hagree : Env.AgreeOn aboveLeast.freeNames [("n", .int 1), ("xs", .list [.int 1, .int 2])]
      [("x", .null), ("xs", .list [.int 1, .int 2]), ("least", .int 7), ("n", .int 1)] := by
    rw [hfree]
    exact List.forall_mem_cons.mpr ⟨rfl, List.forall_mem_singleton.mpr rfl⟩
  obtain ⟨outcome, after, after', entries, hends, hends', hlog, hlog'⟩ :=
    Context.exists_ends_of_agreeOn ⟨.empty, .builtin⟩ hpasses hdata hagree .empty
      ⟨[.member "Name"], []⟩
  have hcomputed : Context.Ends ⟨.empty, .builtin⟩ aboveLeast
      [("n", .int 1), ("xs", .list [.int 1, .int 2])] .empty (.ok (.list [.int 2]))
      ⟨[.call "Where"], []⟩ := ⟨5, by cbv⟩
  obtain ⟨rfl, rfl⟩ := hends.unique hcomputed
  obtain rfl : [Access.call "Where"] = entries := hlog
  exact ⟨_, _, _, _, hends, hends', rfl, rfl, rfl, hlog'⟩

end NullGuard
