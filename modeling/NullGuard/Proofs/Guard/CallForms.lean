import NullGuard.Proofs.Guard.NullSafety
import NullGuard.Proofs.Guard.Record

/-! # The two forms of a call

A method is called on an object or, as an extension method, on its first argument. Both forms
evaluate the same parts and go on with the same receiver. Only the error at null is another one,
and behind a guard the receiver is not null. -/

namespace NullGuard

/-! ## Evaluation of both forms -/

namespace Context

section Forms

variable (context : Context) (fuel : Nat) (ty : Ty) (o : Expr) (method : Method) (args : List Expr)
  (env : Env)

/-- The values of the receiver and of the arguments of a call. -/
def receiverAndArgs : EvalM (Value × List Value) := do
  let object ← context.eval fuel o env
  let values ← args.mapM fun arg => context.eval fuel arg env
  return (object, values)

theorem eval_call :
    context.eval (fuel + 1) (.call ty o method args) env =
      context.receiverAndArgs fuel o args env >>= fun read =>
        context.callOn (context.eval fuel) method ty read.1 read.2 := by
  simp [eval, evalNode, receiverAndArgs]

theorem eval_freeCall :
    context.eval (fuel + 1) (.freeCall ty method (o :: args)) env =
      context.receiverAndArgs fuel o args env >>= fun read =>
        context.callFree (context.eval fuel) method ty (read.1 :: read.2) := by
  simp [eval, evalNode, receiverAndArgs]

end Forms

variable {context : Context} {fuel : Nat} {ty : Ty} {o : Expr} {method extension : Method}
  {args : List Expr} {env : Env} {trace middle after : Trace} {values : List Value}

theorem runAt_receiverAndArgs_eq_ok {read : Value × List Value} :
    (context.receiverAndArgs fuel o args env).runAt trace = (.ok read, after) ↔
      ∃ middle, (context.eval fuel o env).runAt trace = (.ok read.1, middle) ∧
        (args.mapM fun arg => context.eval fuel arg env).runAt middle = (.ok read.2, after) := by
  obtain ⟨object, values⟩ := read
  simp only [receiverAndArgs, EvalM.runAt_bind_eq_ok]
  constructor
  · rintro ⟨_, middle, hobject, _, _, hvalues, hread⟩
    cases hread
    exact ⟨middle, hobject, hvalues⟩
  · rintro ⟨middle, hobject, hvalues⟩
    exact ⟨object, middle, hobject, values, after, hvalues, rfl⟩

variable (hname : extension.name = method.name) (hextension : extension.isExtension = true)

include hname hextension

theorem callFree_eq_callOn {object : Value} (hobject : object.isNull = false) (run : Run)
    (ty : Ty) (values : List Value) :
    context.callFree run extension ty (object :: values) =
      context.callOn run method ty object values := by
  simp [callFree, callOn, hextension, hobject, hname]

/-- Where the receiver is null and the arguments have values, each form reports its own error. -/
theorem runAt_callForms_null
    (hparts :
      (context.receiverAndArgs fuel o args env).runAt trace = (.ok (.null, values), after)) :
    (context.eval (fuel + 1) (.call ty o method args) env).runAt trace =
        (.error (.fault (.nullReference method.name)), after) ∧
      (context.eval (fuel + 1) (.freeCall ty extension (o :: args)) env).runAt trace =
        (.error (.fault (.nullReceiver method.name)), after) := by
  rw [eval_call, eval_freeCall, EvalM.runAt_bind_of_ok hparts, EvalM.runAt_bind_of_ok hparts]
  simp [callOn, callFree, hextension, hname, Value.isNull]

theorem runAt_callForms_eq
    (hparts : ∀ values after,
      (context.receiverAndArgs fuel o args env).runAt trace ≠ (.ok (.null, values), after)) :
    (context.eval (fuel + 1) (.freeCall ty extension (o :: args)) env).runAt trace =
      (context.eval (fuel + 1) (.call ty o method args) env).runAt trace := by
  rw [eval_call, eval_freeCall]
  rcases hrun : (context.receiverAndArgs fuel o args env).runAt trace with ⟨stop | read, after⟩
  · rw [EvalM.runAt_bind_of_error hrun, EvalM.runAt_bind_of_error hrun]
  · rw [EvalM.runAt_bind_of_ok hrun, EvalM.runAt_bind_of_ok hrun,
      callFree_eq_callOn hname hextension]
    by_contra hnull
    rw [Bool.not_eq_false] at hnull
    exact hparts read.2 after (by rw [hrun, ← Value.eq_null_of_isNull hnull])

end Context

/-! ## Evaluation behind a guard -/

namespace Context

/-- Nodes that evaluate alike around every receiver that is not null. -/
def AlikeOnValues (context : Context) (rebuild rebuild' : Expr → Expr) : Prop :=
  ∀ fuel receiver env,
    (∀ trace value after, (context.eval fuel receiver env).runAt trace = (.ok value, after) →
      value.isNull = false) →
    context.eval (fuel + 1) (rebuild' receiver) env = context.eval (fuel + 1) (rebuild receiver) env

variable {context : Context}

theorem alikeOnValues_callForms {method extension : Method} (hname : extension.name = method.name)
    (hextension : extension.isExtension = true) (ty : Ty) (args : List Expr) :
    context.AlikeOnValues (fun receiver => .call ty receiver method args)
      (fun receiver => .freeCall ty extension (receiver :: args)) := by
  intro fuel receiver env hvalue
  funext trace
  refine runAt_callForms_eq hname hextension fun values after hrun => ?_
  obtain ⟨middle, hnull, _⟩ := runAt_receiverAndArgs_eq_ok.mp hrun
  cases hvalue trace .null middle hnull

section AlikeOnValues

variable {rebuild rebuild' : Expr → Expr} (h : context.AlikeOnValues rebuild rebuild')

include h

/-- A null check leads to the node only with a receiver that is not null. -/
theorem AlikeOnValues.eval_nullCheck (ty resultTy : Ty) (name : String) (whenNull : Expr)
    (fuel : Nat) (env : Env) :
    context.eval fuel (nullCheck (.param ty name) whenNull (rebuild' (.param ty name)) resultTy)
        env =
      context.eval fuel (nullCheck (.param ty name) whenNull (rebuild (.param ty name)) resultTy)
        env := by
  match fuel with
  -- the test runs out of fuel before a branch is taken
  | 0 | 1 | 2 => rfl
  | fuel + 3 =>
    cases hlookup : List.lookup name env with
    | none =>
      rw [context.eval_nullCheck_of_unbound fuel hlookup,
        context.eval_nullCheck_of_unbound fuel hlookup]
    | some value =>
      rw [context.eval_nullCheck fuel hlookup, context.eval_nullCheck fuel hlookup]
      cases hnull : value.isNull with
      | true => rfl
      | false =>
        refine h (fuel + 1) (.param ty name) env fun trace found after hfound => ?_
        obtain rfl : value = found := Option.some.inj
          (hlookup.symm.trans (lookup_of_eval_param hfound))
        exact hnull

/-- Guards around such nodes are the same but for the node, and do away with the receiver that is
null. -/
theorem AlikeOnValues.exists_after_protect {supplies : Supplies}
    (hcomputed : supplies.cache.Computed) (defs : Definitions) (emptyCollections : Bool)
    (receiver : Expr) (ty : Ty) :
    ∃ r r' strategy left,
      Supplies.after (protect defs emptyCollections receiver ty rebuild) supplies =
        ((r, strategy), left) ∧
      Supplies.after (protect defs emptyCollections receiver ty rebuild') supplies =
        ((r', strategy), left) ∧
      ∀ fuel env, context.eval fuel r' env = context.eval fuel r env := by
  cases hanswer : (supplies.cache.fallback? defs receiver.ty).1 with
  | some recipe =>
    have hrecipe : EmptyInstance receiver.ty recipe := hcomputed.emptyInstance hanswer
    have hsolid : (Expr.coalesceOf receiver recipe).isSolid = true := hrecipe.isSolid
    refine ⟨_, _, _, _, after_protect_of_answer hanswer, after_protect_of_answer hanswer,
      fun fuel env => ?_⟩
    cases fuel with
    | zero => rfl
    | succ fuel => exact h fuel _ env fun trace value after => isNull_of_isSolid hsolid
  | none =>
    cases receiver with
    | param paramTy name =>
      exact ⟨_, _, _, _, after_protect_of_no_answer hanswer, after_protect_of_no_answer hanswer,
        h.eval_nullCheck paramTy ty name _⟩
    | _ =>
      refine ⟨_, _, _, _, after_protect_of_no_answer hanswer, after_protect_of_no_answer hanswer,
        fun fuel env => ?_⟩
      cases fuel with
      | zero => rfl
      | succ fuel =>
        rw [eval_bindTo, eval_bindTo]
        exact congrArg _ (funext fun bound => h.eval_nullCheck _ ty _ _ fuel _)

end AlikeOnValues

end Context

/-! ## Which receivers get a guard -/

section Safety

variable {rules : GuardRules} {known : List String} {e node r r' : Expr}

/-- A guard with a null check is safe by its type, and no other guard changes whether a node is
safe. -/
theorem Seals.isSafe_eq (h : Seals rules known node r) :
    r.isSafe rules.defs =
      if rules.strategy? known node = some .conditional then !node.ty.canBeNull rules.defs
      else node.isSafe rules.defs := by
  cases h with
  | free hnone => simp [GuardRules.strategy?_of_receiver?_eq_none hnone]
  | kept hreceiver hsafe => simp [GuardRules.strategy?_of_needsNoGuard hreceiver hsafe]
  | coalesced hreceiver hneeds hfallback =>
    simp only [GuardRules.strategy?_of_fallback hreceiver hneeds hfallback, Option.some.injEq,
      reduceCtorEq, if_false]
    obtain ⟨_, _, _, rfl⟩ | ⟨_, _, _, rfl⟩ | ⟨_, _, _, _, rfl⟩ :=
      Expr.exists_of_receiver? hreceiver <;> rfl
  | tested hreceiver hneeds hfallback | held hreceiver hneeds hfallback =>
    rw [GuardRules.strategy?_of_no_fallback hreceiver hneeds hfallback, if_pos rfl]
    rfl

theorem Guards.needsNoGuard_iff_of_isSafe_eq (h : Guards rules known e r)
    (h' : Guards rules known e r') (hsafe : r.isSafe rules.defs = r'.isSafe rules.defs) :
    r.NeedsNoGuard rules.defs known ↔ r'.NeedsNoGuard rules.defs known := by
  by_cases hatom : e.isAtom = true
  · rw [h.eq_of_isAtom hatom, h'.eq_of_isAtom hatom]
  · have hparam : ∀ r, Guards rules known e r → ∀ ty name, r ≠ .param ty name := by
      rintro _ h ty name rfl
      exact hatom (h.isAtom_eq.symm.trans rfl)
    simp [Expr.NeedsNoGuard, hsafe, hparam r h, hparam r' h']

/-- Safety of a node hangs on its parts only in conversions and alternatives. -/
theorem Expr.isSafe_withChildren {defs : Definitions} (h : e.trustPath = [e]) (parts : List Expr) :
    (e.withChildren parts).isSafe defs = e.isSafe defs := by
  have hne : ∀ part : Expr, part.trustPath ≠ [] :=
    fun part => List.ne_nil_of_mem part.mem_trustPath_self
  unfold withChildren
  split <;> first | rfl | simp [trustPath, hne] at h

/-- Insertions into the parts agree on which of them are safe. -/
def AgreesOnSafety (rules : GuardRules) (known : List String) (part : Expr) : Prop :=
  ∀ r r', Guards rules known part r → Guards rules known part r' →
    r.isSafe rules.defs = r'.isSafe rules.defs

section Parts

variable {parts parts' : List Expr} (hparts : GuardsParts rules known e parts)
  (hparts' : GuardsParts rules known e parts')
  (hagree : ∀ part ∈ e.children, AgreesOnSafety rules known part)

include hparts hparts' hagree

theorem GuardsParts.isSafe_eq :
    (e.withChildren parts).isSafe rules.defs = (e.withChildren parts').isSafe rules.defs := by
  cases e with
  | convert ty operand =>
    rcases hparts with _ | ⟨hoperand, _ | _⟩
    rcases hparts' with _ | ⟨hoperand', _ | _⟩
    simp only [Expr.withChildren, Expr.isSafe,
      hagree operand (by simp [Expr.children]) _ _ hoperand hoperand']
  | coalesce ty left right =>
    rcases hparts with _ | ⟨_, _ | ⟨hright, _ | _⟩⟩
    rcases hparts' with _ | ⟨_, _ | ⟨hright', _ | _⟩⟩
    simp only [Expr.withChildren, Expr.isSafe,
      hagree right (by simp [Expr.children]) _ _ hright hright']
  | _ => rw [Expr.isSafe_withChildren rfl, Expr.isSafe_withChildren rfl]

/-- Nodes around such parts get the same kind of guard. -/
theorem GuardsParts.strategy?_eq :
    rules.strategy? known (e.withChildren parts) =
      rules.strategy? known (e.withChildren parts') := by
  cases htakes : e.takesReceiver with
  | false =>
    rw [GuardRules.strategy?_of_receiver?_eq_none, GuardRules.strategy?_of_receiver?_eq_none]
    all_goals simp [Expr.receiver?_eq, Expr.takesReceiver_withChildren, htakes]
  | true =>
    have hscope : e.changesScope = false := by
      cases e with
      | cond | lambda | bind => cases htakes
      | _ => rfl
    have hguards := hparts.of_not_changesScope hscope
    have hguards' := hparts'.of_not_changesScope hscope
    rw [GuardRules.strategy?, GuardRules.strategy?, Expr.receiver?_withChildren hparts.length_eq,
      Expr.receiver?_withChildren hparts'.length_eq, if_pos htakes, if_pos htakes]
    cases hchildren : e.children with
    | nil =>
      rw [hchildren] at hguards hguards'
      cases hguards
      cases hguards'
      rfl
    | cons original others =>
      rw [hchildren] at hguards hguards'
      cases hguards with
      | cons hreceiver _ =>
        cases hguards' with
        | cons hreceiver' _ =>
          have hsafe := hagree original (by simp [hchildren]) _ _ hreceiver hreceiver'
          simp only [List.head?_cons, hreceiver.needsNoGuard_iff_of_isSafe_eq hreceiver' hsafe,
            hreceiver.ty_eq, hreceiver'.ty_eq]

end Parts

/-- Two insertions agree on which expressions are safe, whatever names they draw. -/
theorem agreesOnSafety (rules : GuardRules) (known : List String) (e : Expr) :
    AgreesOnSafety rules known e := by
  induction e using Expr.induction_children with
  | step e ih =>
    intro r r' h h'
    cases h with
    | node _ hparts hseal =>
      cases h' with
      | node _ hparts' hseal' =>
        rw [hseal.isSafe_eq, hseal'.isSafe_eq, Expr.ty_withChildren, Expr.ty_withChildren,
          GuardsParts.strategy?_eq hparts hparts' ih, GuardsParts.isSafe_eq hparts hparts' ih]

end Safety

/-! ## Insertion into both forms -/

section Insertion

open Walk

variable {defs : Definitions} {options : GuardOptions} {ty : Ty} {o : Expr}
  {method extension : Method} {args : List Expr}

theorem Expr.visit_call :
    (Expr.call ty o method args).visit defs options = enter options.maxDepth (do
      let parts ← (o :: args).mapM fun part => part.visit defs options
      sealNode defs options ((Expr.call ty o method args).withChildren parts)) := by
  rw [Expr.visit_eq]
  rfl

theorem Expr.visit_freeCall :
    (Expr.freeCall ty extension (o :: args)).visit defs options = enter options.maxDepth (do
      let parts ← (o :: args).mapM fun part => part.visit defs options
      sealNode defs options ((Expr.freeCall ty extension (o :: args)).withChildren parts)) := by
  rw [Expr.visit_eq]
  simp [checkReceiver, visitParts, Expr.children]

theorem Walk.start_freeCall (cache : FallbackCache) :
    Walk.start cache (.freeCall ty extension (o :: args)) =
      Walk.start cache (.call ty o method args) := by
  simp [Walk.start, FreshNames.reserving, Expr.names, Expr.fold_eq, Expr.children, Expr.ownNames]

/-- The guarded parts of a call from whose receiver a guard is needed. -/
theorem Walk.runAt_sealNode_callForms {context : Context} {walk : Walk} {receiver : Expr}
    (hname : extension.name = method.name) (hextension : extension.isExtension = true)
    (hcomputed : walk.supplies.cache.Computed)
    (hneeds : ¬ receiver.NeedsNoGuard defs walk.nonNull) (ty : Ty) (rest : List Expr) :
    ∃ r r' after,
      (sealNode defs options (.call ty receiver method rest)).runAt walk = (.ok r, after) ∧
      (sealNode defs options (.freeCall ty extension (receiver :: rest))).runAt walk =
        (.ok r', after) ∧
      ∀ fuel env, context.eval fuel r' env = context.eval fuel r env := by
  obtain ⟨r, r', strategy, left, hcall, hfree, heval⟩ :=
    (Context.alikeOnValues_callForms hname hextension ty rest).exists_after_protect hcomputed defs
      options.emptyCollections receiver ty
  have hsealed : sealNode defs options (.freeCall ty extension (receiver :: rest)) =
      attach defs options receiver ty fun receiver =>
        .freeCall ty extension (receiver :: rest) := by
    simp [sealNode, Expr.receiver?, hextension]
    rfl
  refine ⟨r, r', _, runAt_attach_of_protect _ _ hneeds hcall, ?_, heval⟩
  rw [hsealed]
  exact runAt_attach_of_protect _ _ hneeds hfree

variable {context : Context} {rules : GuardRules} {walk : Walk}

/-- Both forms are guarded alike where the receiver, as it is by then, needs a guard. -/
theorem Walk.runAt_visit_callForms (context : Context) (hname : extension.name = method.name)
    (hextension : extension.isExtension = true) (hready : walk.Ready rules options)
    (hnames : (Expr.call ty o method args).names ⊆ walk.taken)
    (hneeds : ∀ r, Guards rules walk.nonNull o r → ¬ r.NeedsNoGuard rules.defs walk.nonNull) :
    (∃ error after,
      ((Expr.call ty o method args).visit rules.defs options).runAt walk = (.error error, after) ∧
      ((Expr.freeCall ty extension (o :: args)).visit rules.defs options).runAt walk =
        (.error error, after)) ∨
    ∃ r r' after,
      ((Expr.call ty o method args).visit rules.defs options).runAt walk = (.ok r, after) ∧
      ((Expr.freeCall ty extension (o :: args)).visit rules.defs options).runAt walk =
        (.ok r', after) ∧
      ∀ fuel env, context.eval fuel r' env = context.eval fuel r env := by
  rw [Expr.visit_call, Expr.visit_freeCall]
  by_cases hdepth : walk.depth < options.maxDepth
  · rcases hparts : ((o :: args).mapM fun part : Expr =>
      part.visit rules.defs options).runAt walk.deeper with ⟨error | parts, middle⟩
    · refine .inl ⟨error, { middle with depth := walk.depth }, ?_, ?_⟩
      all_goals rw [runAt_enter_of_lt _ hdepth, GuardM.runAt_bind, hparts]
    · have hready' : walk.deeper.Ready rules options := ⟨hready.follow, hready.known_taken⟩
      have hnames' : ∀ part ∈ o :: args, part.names ⊆ walk.deeper.taken := fun part hpart =>
        List.Subset.trans
          (Expr.names_subset_of_mem_children (e := .call ty o method args) hpart) hnames
      have hvisited := mapM_guardsAllTo (fun part _ => part.visit_inserts rules options) hready'
        hnames' hparts
      rcases parts with _ | ⟨receiver, rest⟩
      · cases hvisited.guards
      · have hguards : Guards rules walk.nonNull o receiver := by
          cases hvisited.guards with
          | cons hhead _ => exact hhead
        have hneeds' : ¬ receiver.NeedsNoGuard rules.defs middle.nonNull := by
          rw [hvisited.leads.nonNull_eq]
          exact hneeds receiver hguards
        obtain ⟨r, r', after, hcall, hfree, heval⟩ := runAt_sealNode_callForms hname hextension
          hvisited.leads.follow.computed hneeds' ty rest
        exact .inr ⟨r, r', { after with depth := walk.depth },
          runAt_enter_eq_ok.mpr
            ⟨hdepth, after, (GuardM.runAt_bind_of_ok hparts).trans hcall, rfl⟩,
          runAt_enter_eq_ok.mpr
            ⟨hdepth, after, (GuardM.runAt_bind_of_ok hparts).trans hfree, rfl⟩, heval⟩
  · refine .inl ⟨_, walk, runAt_enter_of_le _ (Nat.not_lt.mp hdepth),
      runAt_enter_of_le _ (Nat.not_lt.mp hdepth)⟩

theorem Expr.insertGuards_of_error {cache : FallbackCache} {e : Expr} {error : GuardError}
    {after : Walk} (h : (e.visit defs options).runAt (.start cache e) = (.error error, after)) :
    e.insertGuards defs options cache = (.error error, after.supplies.cache) := by
  rw [Expr.insertGuards_eq, h]
  rfl

/-- The guarded forms of a call whose receiver needs a guard evaluate alike. -/
theorem Context.insertGuards_callForms {cache left : FallbackCache} {receiver : Guarded}
    (hname : extension.name = method.name) (hextension : extension.isExtension = true)
    (hcache : cache.Computed)
    (hreceiver : o.insertGuards context.defs options cache = (.ok receiver, left))
    (hnotSafe : receiver.expr.isSafe context.defs = false) (ty : Ty) (args : List Expr) :
    (∃ error left,
      (Expr.call ty o method args).insertGuards context.defs options cache =
        (.error error, left) ∧
      (Expr.freeCall ty extension (o :: args)).insertGuards context.defs options cache =
        (.error error, left)) ∨
    ∃ guarded guarded' left,
      (Expr.call ty o method args).insertGuards context.defs options cache =
        (.ok guarded, left) ∧
      (Expr.freeCall ty extension (o :: args)).insertGuards context.defs options cache =
        (.ok guarded', left) ∧
      ∀ fuel env, context.eval fuel guarded'.expr env = context.eval fuel guarded.expr env := by
  let rules := cache.rules context.defs options hcache
  let start := Walk.start cache (.call ty o method args)
  have hstart : Walk.start cache (.freeCall ty extension (o :: args)) = start :=
    start_freeCall cache
  have hready : start.Ready rules options := ⟨⟨hcache, rfl, rfl⟩, List.nil_subset _⟩
  have hneeds : ∀ r, Guards rules [] o r → ¬ r.NeedsNoGuard rules.defs [] := by
    intro r hguards
    have hsafe : r.isSafe rules.defs = false :=
      (agreesOnSafety rules [] o r _ hguards (Expr.insertGuards_guards hcache hreceiver)).trans
        hnotSafe
    simp [Expr.NeedsNoGuard, hsafe]
  obtain ⟨error, after, hcall, hfree⟩ | ⟨r, r', after, hcall, hfree, heval⟩ :=
    runAt_visit_callForms context hname hextension hready (List.Subset.refl _) hneeds
  · exact .inl ⟨error, after.supplies.cache, Expr.insertGuards_of_error hcall,
      Expr.insertGuards_of_error (hstart ▸ hfree)⟩
  · exact .inr ⟨⟨r, after.stats⟩, ⟨r', after.stats⟩, after.supplies.cache,
      Expr.insertGuards_eq_ok.mpr ⟨after, hcall, rfl, rfl⟩,
      Expr.insertGuards_eq_ok.mpr ⟨after, hstart ▸ hfree, rfl, rfl⟩, heval⟩

end Insertion

/-! ## The two forms -/

/-- The two forms of a call evaluate alike, but for the error that each of them reports where the
receiver is null and the arguments have values. With the guards that they get if the receiver needs
one, they evaluate alike throughout. -/
theorem Context.callForms_agree (context : Context) (ty : Ty) (o : Expr) (args : List Expr)
    {method extension : Method} (hname : extension.name = method.name)
    (hextension : extension.isExtension = true) :
    (∀ fuel env trace,
      (∀ middle values after,
        (context.eval fuel o env).runAt trace = (.ok .null, middle) →
        (args.mapM fun arg => context.eval fuel arg env).runAt middle = (.ok values, after) →
          (context.eval (fuel + 1) (.call ty o method args) env).runAt trace =
              (.error (.fault (.nullReference method.name)), after) ∧
            (context.eval (fuel + 1) (.freeCall ty extension (o :: args)) env).runAt trace =
              (.error (.fault (.nullReceiver method.name)), after)) ∧
      ((∀ middle values after,
        (context.eval fuel o env).runAt trace = (.ok .null, middle) →
        (args.mapM fun arg => context.eval fuel arg env).runAt middle ≠ (.ok values, after)) →
          (context.eval (fuel + 1) (.freeCall ty extension (o :: args)) env).runAt trace =
            (context.eval (fuel + 1) (.call ty o method args) env).runAt trace)) ∧
    ∀ (options : GuardOptions) (cache left : FallbackCache) (receiver : Guarded), cache.Computed →
      o.insertGuards context.defs options cache = (.ok receiver, left) →
      receiver.expr.isSafe context.defs = false →
        (∃ error left,
          (Expr.call ty o method args).insertGuards context.defs options cache =
            (.error error, left) ∧
          (Expr.freeCall ty extension (o :: args)).insertGuards context.defs options cache =
            (.error error, left)) ∨
        ∃ guarded guarded' left,
          (Expr.call ty o method args).insertGuards context.defs options cache =
            (.ok guarded, left) ∧
          (Expr.freeCall ty extension (o :: args)).insertGuards context.defs options cache =
            (.ok guarded', left) ∧
          ∀ fuel env, context.eval fuel guarded'.expr env =
            context.eval fuel guarded.expr env := by
  refine ⟨fun fuel env trace => ⟨fun middle values after hnull hargs => ?null, fun h => ?equal⟩,
    fun options cache left receiver hcache hreceiver hnotSafe => ?guarded⟩
  case null =>
    exact runAt_callForms_null hname hextension
      (runAt_receiverAndArgs_eq_ok.mpr ⟨middle, hnull, hargs⟩)
  case equal =>
    refine runAt_callForms_eq hname hextension fun values after hparts => ?_
    obtain ⟨middle, hnull, hargs⟩ := runAt_receiverAndArgs_eq_ok.mp hparts
    exact h middle values after hnull hargs
  case guarded =>
    exact insertGuards_callForms hname hextension hcache hreceiver hnotSafe ty args

/-- `s.ToUpper()` -/
def upperOfObject : Expr :=
  .call .string (.param .string "s") ⟨"ToUpper", none, false⟩ []

/-- `Texts.ToUpper(s)` -/
def upperOfArgument : Expr :=
  .freeCall .string ⟨"ToUpper", some "Texts", true⟩ [.param .string "s"]

/-- For a null `s` the errors are different. Each form gets a guard, and there is no error then. -/
theorem Context.callForms_agree_upper :
    let context : Context := ⟨Collection.definitions, .builtin⟩
    let missing : Env := [("s", .null)]
    let present : Env := [("s", .string "a")]
    (context.eval 2 upperOfObject missing).runAt .empty =
        (.error (.fault (.nullReference "ToUpper")), .empty) ∧
      (context.eval 2 upperOfArgument missing).runAt .empty =
        (.error (.fault (.nullReceiver "ToUpper")), .empty) ∧
      (context.eval 2 upperOfArgument present).runAt .empty =
        (context.eval 2 upperOfObject present).runAt .empty ∧
      ∃ guarded guarded' left,
        upperOfObject.insertGuards context.defs {} .empty = (.ok guarded, left) ∧
        upperOfArgument.insertGuards context.defs {} .empty = (.ok guarded', left) ∧
        guarded.stats.guards = 1 ∧
        ∀ fuel env, context.eval fuel guarded'.expr env = context.eval fuel guarded.expr env := by
  intro context missing present
  have hname : (⟨"ToUpper", some "Texts", true⟩ : Method).name =
      (⟨"ToUpper", none, false⟩ : Method).name := rfl
  obtain ⟨hplain, hguarded⟩ :=
    context.callForms_agree .string (.param .string "s") [] hname rfl
  have hnull := (hplain 1 missing .empty).1 .empty [] .empty rfl rfl
  have hequal := (hplain 1 present .empty).2 fun _ _ _ hnull => by cases hnull
  obtain ⟨receiver, left, hreceiver, hnotSafe⟩ : ∃ receiver left,
      (Expr.param .string "s").insertGuards context.defs {} .empty = (.ok receiver, left) ∧
        receiver.expr.isSafe context.defs = false := ⟨_, _, by cbv, by cbv⟩
  obtain ⟨guarded, left', hinsert, hcount⟩ : ∃ guarded left,
      upperOfObject.insertGuards context.defs {} .empty = (.ok guarded, left) ∧
        guarded.stats.guards = 1 := ⟨_, _, by cbv, by cbv⟩
  refine ⟨hnull.1, hnull.2, hequal, ?_⟩
  obtain ⟨error, _, hcall, _⟩ | ⟨guarded₁, guarded₂, left₁, hcall, hfree, heval⟩ :=
    hguarded {} .empty left receiver FallbackCache.empty_computed hreceiver hnotSafe
  · cases hinsert.symm.trans hcall
  · cases hinsert.symm.trans hcall
    exact ⟨_, _, _, hcall, hfree, hcount, heval⟩

end NullGuard
