import NullGuard.Proofs.Eval.Chain
import NullGuard.Proofs.Guard.Insert
import NullGuard.Proofs.Guard.Meaning

/-! # Guarded chains

Each link of a chain gets a guard of its own. The first null is passed on by all guards after it,
since the receivers of a chain have no empty instances, and the last guard gives the answer. -/

namespace NullGuard

/-! ## The guard of a link -/

section Guards

variable {rules : GuardRules} {known : List String} {link : Link} {receiver r : Expr}

theorem Link.exists_guards_on (h : Guards rules known (link.on receiver) r) :
    ∃ guarded, Guards rules known receiver guarded ∧ Seals rules known (link.on guarded) r := by
  cases h with
  | node _ hparts hseal =>
    cases link with
    | read | call =>
      rcases hparts with _ | ⟨hreceiver, _ | _⟩
      exact ⟨_, hreceiver, hseal⟩

/-- A link under a test of its receiver or of a name that holds it. -/
inductive Link.Tested (rules : GuardRules) (link : Link) (receiver : Expr) : Expr → Prop where
  | param {ty name} (hparam : receiver = .param ty name) :
      Tested rules link receiver
        (nullCheck receiver (rules.shortCircuit link.ty) (link.on receiver) link.ty)
  | held {name} :
      Tested rules link receiver
        (.bindTo name receiver (nullCheck (.param receiver.ty name) (rules.shortCircuit link.ty)
          (link.on (.param receiver.ty name)) link.ty))

/-- What becomes of a link when it is sealed. -/
inductive Link.Sealed (rules : GuardRules) (known : List String) (link : Link) (receiver : Expr) :
    Expr → Prop where
  | kept (hsafe : receiver.NeedsNoGuard rules.defs known) :
      Sealed rules known link receiver (link.on receiver)
  | coalesced {recipe} (hneeds : ¬ receiver.NeedsNoGuard rules.defs known)
      (hfallback : rules.fallback receiver.ty = some recipe) :
      Sealed rules known link receiver (link.on (.coalesceOf receiver recipe))
  | tested {guarded} (hneeds : ¬ receiver.NeedsNoGuard rules.defs known)
      (hfallback : rules.fallback receiver.ty = none) (h : link.Tested rules receiver guarded) :
      Sealed rules known link receiver guarded

theorem Seals.sealed (h : Seals rules known (link.on receiver) r) :
    link.Sealed rules known receiver r := by
  cases h with
  | free hnone =>
    rw [Link.receiver?_on] at hnone
    cases hnone
  | kept hsome hsafe =>
    rw [Link.receiver?_on] at hsome
    cases hsome
    exact .kept hsafe
  | coalesced hsome hneeds hfallback =>
    rw [Link.receiver?_on] at hsome
    cases hsome
    rw [Link.withReceiver_on]
    exact .coalesced hneeds hfallback
  | tested hsome hneeds hfallback =>
    rw [Link.receiver?_on] at hsome
    cases hsome
    rw [Link.ty_on]
    exact .tested hneeds hfallback (.param rfl)
  | held hsome hneeds hfallback =>
    rw [Link.receiver?_on] at hsome
    cases hsome
    rw [Link.ty_on, Link.withReceiver_on]
    exact .tested hneeds hfallback .held

theorem Seals.tested_on (h : Seals rules known (link.on receiver) r)
    (hneeds : ¬ receiver.NeedsNoGuard rules.defs known)
    (hfallback : rules.fallback receiver.ty = none) : link.Tested rules receiver r := by
  cases h.sealed with
  | kept hsafe => exact absurd hsafe hneeds
  | coalesced _ hrecipe => cases hfallback.symm.trans hrecipe
  | tested _ _ htested => exact htested

/-- A tested link needs a guard as the receiver of another one. -/
theorem Link.Tested.needsGuard (h : link.Tested rules receiver r)
    (hty : link.ty.canBeNull rules.defs = true) : ¬ r.NeedsNoGuard rules.defs known := by
  cases h with
  | param =>
    rintro (hsafe | ⟨_, _, heq, _⟩)
    · simp [nullCheck, Expr.isSafe, Expr.ty, hty] at hsafe
    · cases heq
  | held =>
    rintro (hsafe | ⟨_, _, heq, _⟩)
    · simp [Expr.bindTo, nullCheck, Expr.isSafe, Expr.ty, hty] at hsafe
    · cases heq

/-- A tested link gives the answer at null, and else the value of the link. -/
theorem Link.Tested.eval_eq (h : link.Tested rules receiver r) (context : Context) {answer : Value}
    (hanswer : ∀ fuel env, context.eval (fuel + 2) (rules.shortCircuit link.ty) env = pure answer)
    (fuel : Nat) (env : Env) :
    context.eval (fuel + 4) r env = context.eval (fuel + 3) receiver env >>= fun value =>
      if value.isNull then pure answer else link.follow context receiver.ty value := by
  cases h with
  | @param ty name hparam =>
    subst hparam
    cases hlookup : List.lookup name env with
    | none =>
      rw [context.eval_nullCheck_of_unbound (fuel + 1) hlookup,
        context.eval_param_of_unbound (fuel + 2) hlookup]
      rfl
    | some value =>
      rw [context.eval_nullCheck (fuel + 1) hlookup,
        context.eval_param_of_lookup (fuel + 2) hlookup, pure_bind]
      split
      · exact hanswer (fuel + 1) env
      · rw [Link.eval_on, context.eval_param_of_lookup (fuel + 1) hlookup, pure_bind]
  | @held name =>
    rw [context.eval_bindTo]
    refine bind_congr fun value => ?_
    have hlookup := Env.lookup_insert_self env name value
    rw [context.eval_nullCheck fuel hlookup]
    split
    · exact hanswer fuel _
    · rw [Link.eval_on, context.eval_param_of_lookup fuel hlookup, pure_bind]
      rfl

end Guards

/-! ## Chains -/

/-- What a guarded chain makes of the end of the chain. -/
def rescue (answer : Value) : Except Stop Value × Trace → Except Stop Value × Trace
  | (.error (.fault (.nullReference _)), after) => (.ok answer, after)
  | ending => ending

theorem rescue_fault {error : EvalError} (h : error.isNullFault = false) (answer : Value)
    (after : Trace) :
    rescue answer (.error (.fault error), after) = (.error (.fault error), after) := by
  cases error with
  | nullReference => cases h
  | _ => rfl

/-- Only at null does a link fail at null. -/
theorem Link.rescue_follow {context : Context} {ty : Ty} {link : Link} {value : Value}
    (h : value.isNull = false) (answer : Value) (trace : Trace) :
    rescue answer ((link.follow context ty value).runAt trace) =
      (link.follow context ty value).runAt trace := by
  rcases Link.follow_of_not_isNull h with ⟨rest, hrest, heq⟩ | ⟨error, herror, heq⟩
  · obtain ⟨outcome, after, hrun, _, hordinary⟩ :=
      hrest { trace with accesses := link.access :: trace.accesses }
    rw [heq, EvalM.runAt_bind_of_ok (EvalM.runAt_record _ _), hrun]
    cases outcome with
    | ok => rfl
    | error error => exact rescue_fault (hordinary error rfl) answer after
  · rw [heq]
    exact rescue_fault herror answer trace

/-- Where an evaluation fails at null it goes on with null when it is guarded, so that both go on
to the answer. -/
theorem runAt_bind_rescue {action action' : EvalM Value} {next : Value → EvalM Value}
    {answer : Value} {name : String} {trace : Trace}
    (h : action'.runAt trace = rescue .null (action.runAt trace))
    (hnull : next .null = EvalM.fail (.nullReference name))
    (hnext : ∀ value, value.isNull = false →
      ∀ trace, rescue answer ((next value).runAt trace) = (next value).runAt trace) :
    (action' >>= fun value => if value.isNull then pure answer else next value).runAt trace =
      rescue answer ((action >>= next).runAt trace) := by
  rcases hrun : action.runAt trace with ⟨stop | value, after⟩
  · rw [hrun] at h
    rw [EvalM.runAt_bind_of_error hrun]
    cases stop with
    | outOfFuel => exact EvalM.runAt_bind_of_error h
    | fault error =>
      cases error with
      | nullReference => rw [EvalM.runAt_bind_of_ok h]; rfl
      | _ => exact EvalM.runAt_bind_of_error h
  · rw [hrun] at h
    rw [EvalM.runAt_bind_of_ok hrun, EvalM.runAt_bind_of_ok h]
    cases hvalue : value.isNull with
    | true =>
      obtain rfl := Value.eq_null_of_isNull hvalue
      rw [hnull]
      rfl
    | false => exact (hnext value hvalue after).symm

section Chain

variable {rules : GuardRules} {ty : Ty} {name : String} {links : List Link} {r : Expr}

theorem ty_chain_mem (ty : Ty) (name : String) (links : List Link) :
    (chain (.param ty name) links).ty ∈ ty :: links.map Link.ty := by
  induction links using List.reverseRecOn with
  | nil => exact List.mem_cons_self
  | append_singleton links link _ => simp

/-- The receivers of a chain may be null and have no empty instances. -/
def GuardRules.TestsAll (rules : GuardRules) (types : List Ty) : Prop :=
  ∀ ty ∈ types, ty.canBeNull rules.defs = true ∧ rules.fallback ty = none

theorem GuardRules.TestsAll.mono {types types' : List Ty} (h : rules.TestsAll types)
    (htypes : types' ⊆ types) : rules.TestsAll types' :=
  fun ty hty => h ty (htypes hty)

theorem Guards.chain_needsGuard (hreceivers : rules.TestsAll (ty :: links.map Link.ty))
    (h : Guards rules [] (chain (.param ty name) links) r) : ¬ r.NeedsNoGuard rules.defs [] := by
  induction links using List.reverseRecOn generalizing r with
  | nil =>
    obtain rfl := h.eq_of_isAtom rfl
    rintro (hsafe | ⟨_, _, _, hknown⟩)
    · simp [Expr.isSafe, Expr.ty, (hreceivers ty List.mem_cons_self).1] at hsafe
    · cases hknown
  | append_singleton links link ih =>
    rw [chain_append_singleton] at h
    obtain ⟨guarded, hguarded, hseal⟩ := Link.exists_guards_on h
    have hreceivers' : rules.TestsAll (ty :: links.map Link.ty) :=
      hreceivers.mono (List.cons_subset_cons ty (by simp))
    have hfallback := (hreceivers' _ (ty_chain_mem ty name links)).2
    rw [← hguarded.ty_eq] at hfallback
    exact (hseal.tested_on (ih hreceivers' hguarded) hfallback).needsGuard
      (hreceivers link.ty (by simp)).1

/-- The guard of a receiver gives null, which the guard of the next link passes on. -/
theorem GuardRules.TestsAll.eval_shortCircuit {context : Context} {types : List Ty}
    (h : rules.TestsAll types) (hdefs : rules.defs = context.defs) (hty : ty ∈ types) (fuel : Nat)
    (env : Env) : context.eval (fuel + 2) (rules.shortCircuit ty) env = pure .null := by
  obtain ⟨hnull, hfallback⟩ := h ty hty
  rw [context.eval_shortCircuit_of_none fuel hdefs (by simp [hfallback]), ← hdefs,
    Value.default_of_canBeNull hnull]

theorem rescue_param (context : Context) (ty : Ty) (name : String) (answer : Value)
    (fuel fuel' : Nat) (env : Env) (trace : Trace) :
    rescue answer ((context.eval (fuel + 1) (.param ty name) env).runAt trace) =
      (context.eval (fuel' + 1) (.param ty name) env).runAt trace := by
  cases hlookup : List.lookup name env with
  | none =>
    rw [context.eval_param_of_unbound fuel hlookup, context.eval_param_of_unbound fuel' hlookup]
    rfl
  | some value =>
    rw [context.eval_param_of_lookup fuel hlookup, context.eval_param_of_lookup fuel' hlookup]
    rfl

/-- A guarded chain ends like the chain, but with the answer where the chain meets null. -/
theorem Guards.runAt_chain {context : Context} (hdefs : rules.defs = context.defs)
    (hlinks : ∀ link ∈ links, link.name ≠ "HasValue")
    (hreceivers : rules.TestsAll (ty :: links.dropLast.map Link.ty))
    (h : Guards rules [] (chain (.param ty name) links) r) {answer : Value}
    (hanswer : ∀ fuel env, context.eval (fuel + 2)
      (rules.shortCircuit (chain (.param ty name) links).ty) env = pure answer)
    (fuel fuel' : Nat) (env : Env) (trace : Trace) :
    (context.eval (fuel' + 4 * links.length + 1) r env).runAt trace =
      rescue answer ((context.eval (fuel + links.length + 1)
        (chain (.param ty name) links) env).runAt trace) := by
  induction links using List.reverseRecOn generalizing r answer fuel fuel' with
  | nil =>
    obtain rfl := h.eq_of_isAtom rfl
    exact (rescue_param context ty name answer fuel fuel' env trace).symm
  | append_singleton links link ih =>
    rw [List.dropLast_concat] at hreceivers
    obtain ⟨hlinks, hlink⟩ := List.forall_mem_append.mp hlinks
    replace hlink := hlink link (List.mem_singleton.mpr rfl)
    simp only [chain_append_singleton, Link.ty_on] at h hanswer ⊢
    obtain ⟨guarded, hguarded, hseal⟩ := Link.exists_guards_on h
    have hmem := ty_chain_mem ty name links
    have hfallback := (hreceivers _ hmem).2
    have hsubset : links.dropLast.map Link.ty ⊆ links.map Link.ty :=
      List.map_subset _ (List.dropLast_subset links)
    have hreceiver := ih hlinks (hreceivers.mono (List.cons_subset_cons ty hsubset)) hguarded
      (hreceivers.eval_shortCircuit hdefs hmem) fuel (fuel' + 3)
    rw [← hguarded.ty_eq] at hfallback
    have htested := hseal.tested_on (hguarded.chain_needsGuard hreceivers) hfallback
    have heval := htested.eval_eq context hanswer (fuel' + 4 * links.length + 1) env
    have hfuel : fuel' + 4 * links.length + 1 + 3 = fuel' + 3 + 4 * links.length + 1 := by omega
    have hmore : fuel' + 4 * (links ++ [link]).length + 1 = fuel' + 4 * links.length + 1 + 4 := by
      rw [List.length_append, List.length_singleton]
      omega
    have hmore' : fuel + (links ++ [link]).length + 1 = fuel + links.length + 1 + 1 := by
      rw [List.length_append, List.length_singleton]
      omega
    rw [hmore, hmore', heval, Link.eval_on, hfuel, hguarded.ty_eq]
    exact runAt_bind_rescue hreceiver (Link.follow_null hlink) fun value hvalue =>
      Link.rescue_follow hvalue answer

end Chain

/-- The value of a query of that type where it meets null: the empty instance of the type if these
are preferred and there is one, or else the default value. -/
def Context.Answers (context : Context) (options : GuardOptions) (ty : Ty) (answer : Value) :
    Prop :=
  match if options.emptyCollections then fallback? context.defs ty else none with
  | some recipe => ∀ env trace, context.Ends recipe env trace (.ok answer) trace
  | none => answer = .default context.defs ty

theorem Context.exists_answers {context : Context} (rules : GuardRules) (options : GuardOptions)
    (hdefs : rules.defs = context.defs) (hfallback : rules.fallback = fallback? context.defs)
    (hoptions : rules.emptyCollections = options.emptyCollections) (ty : Ty) :
    ∃ answer, context.Answers options ty answer ∧
      ∀ fuel env, context.eval (fuel + 2) (rules.shortCircuit ty) env = pure answer := by
  obtain ⟨answer, hanswer⟩ := context.eval_shortCircuit hdefs ty
  refine ⟨answer, ?_, hanswer⟩
  unfold Answers
  have hcircuit : rules.shortCircuit ty =
      (if options.emptyCollections then fallback? context.defs ty else none).getD
        (missingValue context.defs ty) := by
    rw [GuardRules.shortCircuit, hdefs, hfallback, hoptions]
  rw [hcircuit] at hanswer
  split
  · rename_i recipe hrecipe
    rw [hrecipe] at hanswer
    exact fun env trace => ⟨2, congrArg (·.runAt trace) (hanswer 0 env)⟩
  · rename_i hnone
    rw [hnone] at hanswer
    have hmissing := (context.eval_missingValue 1 ty).symm.trans (hanswer 0 [])
    have hrun := congrArg (·.runAt .empty) hmissing
    exact (Except.ok.inj (Prod.mk.inj hrun).1).symm

/-- If a chain meets null, its guarded form gives the answer for the type of the chain and leaves
the same trace, so that nothing after the null is accessed. Otherwise both end alike. -/
theorem Context.ends_insertGuards_chain {context : Context} {options : GuardOptions}
    {cache left : FallbackCache} {ty : Ty} {name : String} {links : List Link} {guarded : Guarded}
    (hcache : cache.Agrees context.defs) (hlinks : ∀ link ∈ links, link.name ≠ "HasValue")
    (hreceivers : ∀ receiverTy ∈ ty :: links.dropLast.map Link.ty,
      receiverTy.canBeNull context.defs = true ∧ fallback? context.defs receiverTy = none)
    (hinsert : (chain (.param ty name) links).insertGuards context.defs options cache =
      (.ok guarded, left))
    (env : Env) (trace : Trace) :
    ∃ outcome after, context.Ends (chain (.param ty name) links) env trace outcome after ∧
      ((∃ k, ∃ hk : k < links.length, outcome = .error (.nullReference links[k].name) ∧
          context.Ends (chain (.param ty name) (links.take k)) env trace (.ok .null) after ∧
          after.log = trace.log ++ (links.take k).map Link.access ∧
          ∃ answer, context.Answers options (chain (.param ty name) links).ty answer ∧
            context.Ends guarded.expr env trace (.ok answer) after) ∨
        (∀ member, outcome ≠ .error (.nullReference member)) ∧
          context.Ends guarded.expr env trace outcome after) := by
  have hguards := Expr.insertGuards_guards hcache.computed hinsert
  have htests : (cache.rules context.defs options hcache.computed).TestsAll
      (ty :: links.dropLast.map Link.ty) := fun receiverTy hmem =>
    ⟨(hreceivers receiverTy hmem).1,
      (congrFun hcache.answer_eq receiverTy).trans (hreceivers receiverTy hmem).2⟩
  obtain ⟨answer, hanswers, hanswer⟩ := exists_answers (cache.rules context.defs options _) options
    rfl hcache.answer_eq rfl (chain (.param ty name) links).ty
  obtain ⟨outcome, after, hrun, hends⟩ := chain_ends context 0 ty name links env trace hlinks
  have hguarded := hguards.runAt_chain rfl hlinks htests hanswer 0 0 env trace
  rw [hrun] at hguarded
  cases hends with
  | null k hk hreached hlog =>
    exact ⟨_, after, ⟨_, hrun⟩, .inl ⟨k, hk, rfl, hreached, hlog, answer, hanswers, ⟨_, hguarded⟩⟩⟩
  | @value value _ hlog =>
    exact ⟨.ok value, after, ⟨_, hrun⟩, .inr ⟨nofun, ⟨_, hguarded⟩⟩⟩
  | @other error _ herror =>
    have hrescue := rescue_fault herror answer after
    refine ⟨.error error, after, ⟨_, hrun⟩, .inr ⟨?_, ⟨_, hguarded.trans hrescue⟩⟩⟩
    rintro member ⟨⟩
    cases herror

/-- `p.Home.Name.Length` for an object `p`. -/
def nameLength : List Link :=
  [.read .object "Home" .object, .read .string "Name" .object, .read .int "Length" .string]

/-- A missing home: neither the name nor its length is read, and the guarded query gives zero. -/
theorem ends_insertGuards_nameLength :
    ∃ guarded left,
      (chain (.param .object "p") nameLength).insertGuards .empty {} .empty = (.ok guarded, left) ∧
      Context.Ends ⟨.empty, .builtin⟩ guarded.expr [("p", .object .object [("Home", .null)])] .empty
        (.ok (.int 0)) ⟨[.member "Home"], []⟩ := by
  have hinsert : ∃ guarded left, (chain (.param .object "p") nameLength).insertGuards .empty {}
      .empty = (.ok guarded, left) := ⟨_, _, by cbv⟩
  obtain ⟨guarded, left, hinsert⟩ := hinsert
  have hends : Context.Ends ⟨.empty, .builtin⟩ (chain (.param .object "p") nameLength)
      [("p", .object .object [("Home", .null)])] .empty (.error (.nullReference "Name"))
      ⟨[.member "Home"], []⟩ := ⟨4, by cbv⟩
  have hlinks : ∀ link ∈ nameLength, link.name ≠ "HasValue" := by
    decide +kernel
  have hreceivers : ∀ receiverTy ∈ Ty.object :: nameLength.dropLast.map Link.ty,
      receiverTy.canBeNull .empty = true ∧ fallback? .empty receiverTy = none := by
    refine List.forall_mem_cons.mpr ⟨⟨rfl, rfl⟩, List.forall_mem_cons.mpr ⟨⟨rfl, rfl⟩, ?_⟩⟩
    exact List.forall_mem_singleton.mpr ⟨rfl, rfl⟩
  have hcache : FallbackCache.empty.Agrees (Context.defs ⟨.empty, .builtin⟩) :=
    FallbackCache.empty_agrees .empty
  obtain ⟨outcome, after, hchain, hcases⟩ := Context.ends_insertGuards_chain hcache hlinks
    hreceivers hinsert [("p", .object .object [("Home", .null)])] .empty
  obtain ⟨rfl, rfl⟩ := hchain.unique hends
  rcases hcases with ⟨_, _, _, _, _, answer, hanswer, hguarded⟩ | ⟨hother, _⟩
  · obtain rfl : answer = .int 0 := hanswer
    exact ⟨guarded, left, hinsert, hguarded⟩
  · exact absurd rfl (hother "Name")

end NullGuard
