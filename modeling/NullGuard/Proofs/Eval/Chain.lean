import Mathlib
import NullGuard.Proofs.Eval.Fuel

/-! # Chains of member reads and calls

A chain reads members and calls methods without arguments, each on what the one before it gives.
It ends with the value of its last link, at the first null, or with another error. -/

namespace NullGuard

/-! ## Actions that access nothing -/

/-- The action neither reads a member nor calls a method, and does not fail at null. -/
def EvalM.Silent {α : Type} (action : EvalM α) : Prop :=
  ∀ trace, ∃ outcome : Except EvalError α, ∃ after,
    action.runAt trace = (outcome.mapError .fault, after) ∧ after.accesses = trace.accesses ∧
      ∀ error, outcome = .error error → error.isNullFault = false

namespace EvalM.Silent

variable {α β : Type}

theorem pure (a : α) : (Pure.pure a : EvalM α).Silent :=
  fun trace => ⟨.ok a, trace, rfl, rfl, nofun⟩

theorem fail {error : EvalError} (h : error.isNullFault = false) :
    (EvalM.fail error : EvalM α).Silent := by
  refine fun trace => ⟨.error error, trace, rfl, rfl, ?_⟩
  rintro _ ⟨⟩
  exact h

theorem recordLookup (ty : Ty) (name : String) : (EvalM.recordLookup ty name).Silent :=
  fun _ => ⟨.ok (), _, rfl, rfl, nofun⟩

theorem bind {action : EvalM α} {next : α → EvalM β} (h : action.Silent)
    (hnext : ∀ a, (next a).Silent) : (action >>= next).Silent := by
  intro trace
  obtain ⟨outcome, middle, hrun, hmiddle, herror⟩ := h trace
  cases outcome with
  | error error =>
    refine ⟨.error error, middle, EvalM.runAt_bind_of_error hrun, hmiddle, ?_⟩
    rintro _ ⟨⟩
    exact herror error rfl
  | ok a =>
    obtain ⟨outcome, after, hrun', hafter, herror⟩ := hnext a middle
    exact ⟨outcome, after, (EvalM.runAt_bind_of_ok hrun).trans hrun', hafter.trans hmiddle, herror⟩

theorem mapM {items : List α} {f : α → EvalM β} (h : ∀ item ∈ items, (f item).Silent) :
    (items.mapM f).Silent := by
  induction items with
  | nil => exact pure []
  | cons item items ih =>
    rw [List.forall_mem_cons] at h
    rw [List.mapM_cons]
    exact h.1.bind fun found => (ih h.2).bind fun rest => pure (found :: rest)

theorem foldlM {items : List α} {step : β → α → EvalM β}
    (h : ∀ total item, (step total item).Silent)
    (start : β) : (items.foldlM step start).Silent := by
  induction items generalizing start with
  | nil => exact pure start
  | cons item items ih =>
    rw [List.foldlM_cons]
    exact (h start item).bind ih

end EvalM.Silent

/-! ## Methods without arguments -/

open EvalM

theorem CallSite.items_silent (site : CallSite) (receiver : Value) :
    (site.items receiver).Silent := by
  unfold CallSite.items
  split
  · exact .pure _
  · exact .fail rfl

theorem Total.add_silent (site : CallSite) (total : Total) (item : Value) :
    (total.add site item).Silent := by
  cases item with
  | null | int | double => exact .pure _
  | _ => exact .fail rfl

/-- Without arguments there is no closure to run. -/
theorem Builtin.run_nil (defs : Definitions) (run run' : Run) (site : CallSite) (receiver : Value)
    (method : Builtin) :
    Builtin.run defs (Context.invoke run) site receiver [] method =
      Builtin.run defs (Context.invoke run') site receiver [] method := by
  cases method <;> rfl

theorem Builtin.run_nil_silent (defs : Definitions) (run : Run) (site : CallSite)
    (receiver : Value) (method : Builtin) :
    (Builtin.run defs (Context.invoke run) site receiver [] method).Silent := by
  have hmatching : (site.matching (Context.invoke run) receiver []).Silent :=
    (site.items_silent receiver).bind fun items => .pure items
  cases method with
  | count | any => exact hmatching.bind fun kept => .pure _
  | first =>
    refine hmatching.bind fun kept => ?_
    cases kept with
    | nil => exact .fail rfl
    | cons => exact .pure _
  | firstOrDefault =>
    refine hmatching.bind fun kept => ?_
    cases kept with
    | nil => exact .pure _
    | cons => exact .pure _
  | filter => exact .fail rfl
  | select =>
    refine (site.items_silent receiver).bind fun items => ?_
    exact (Silent.mapM fun item _ => .fail rfl).bind fun results => .pure _
  | sum =>
    refine (site.items_silent receiver).bind fun items => ?_
    exact (Silent.foldlM (fun total item => total.add_silent site item) _).bind fun total => .pure _
  | contains =>
    cases receiver with
    | string => exact .fail rfl
    | _ => exact (site.items_silent _).bind fun items => .pure _
  | toUpper =>
    cases receiver with
    | string => exact .pure _
    | _ => exact .fail rfl
  | length =>
    cases receiver with
    | string | collection => exact .pure _
    | _ => exact .fail rfl
  | isNullOrEmpty => exact .pure _

/-! ## Members of values -/

namespace Context

variable (context : Context)

theorem readField_silent (objectTy : Ty) (fields : List (String × Value)) (name : String)
    (ty : Ty) :
    (context.readField objectTy fields name ty).Silent := by
  unfold readField
  split
  · exact .pure _
  · refine (Silent.recordLookup objectTy name).bind fun _ => ?_
    split
    · exact .pure _
    · exact .fail rfl

theorem readNullable_silent (isNullable : Bool) (name : String) (value : Value) :
    (readMember.readNullable isNullable name value).Silent := by
  unfold readMember.readNullable
  split
  · exact .pure _
  · split
    · exact .pure _
    · exact .fail rfl

theorem readMember_of_not_isNull {value : Value} (h : value.isNull = false) (targetTy : Ty)
    (name : String) (ty : Ty) :
    ∃ rest : EvalM Value, rest.Silent ∧
      context.readMember value targetTy name ty = (do EvalM.record (.member name); rest) := by
  cases value with
  | null => cases h
  | object objectTy fields => exact ⟨_, context.readField_silent objectTy fields name ty, rfl⟩
  | string s =>
    refine ⟨_, ?_, rfl⟩
    dsimp only
    split
    · exact .pure _
    · exact readNullable_silent _ _ _
  | collection kind items =>
    refine ⟨_, ?_, rfl⟩
    dsimp only
    split
    · exact .pure _
    · exact readNullable_silent _ _ _
  | _ => exact ⟨_, readNullable_silent _ _ _, rfl⟩

end Context

/-! ## Links -/

/-- A read of a member or a call without arguments, whose receiver is left open. -/
inductive Link where
  | read (ty : Ty) (name : String) (declaring : Ty)
  | call (ty : Ty) (method : Method)

namespace Link

def ty : Link → Ty
  | read ty _ _ => ty
  | call ty _ => ty

def name : Link → String
  | read _ name _ => name
  | call _ method => method.name

/-- What a link leaves in the trace. -/
def access : Link → Access
  | read _ name _ => .member name
  | call _ method => .call method.name

def on (receiver : Expr) : Link → Expr
  | read ty name declaring => .member ty receiver name declaring
  | call ty method => .call ty receiver method []

/-- The value of a link on a receiver of type `ty`. A call without arguments runs no closure, so it
needs no fuel. -/
def follow (context : Context) (ty : Ty) (value : Value) : Link → EvalM Value
  | read resultTy name _ => context.readMember value ty name resultTy
  | call resultTy method => context.callOn (context.eval 0) method resultTy value []

variable (link : Link) (receiver : Expr)

@[simp] theorem ty_on : (link.on receiver).ty = link.ty := by
  cases link <;> rfl

@[simp] theorem receiver?_on : (link.on receiver).receiver? = some receiver := by
  cases link <;> rfl

theorem withReceiver_on (other : Expr) : (link.on receiver).withReceiver other = link.on other := by
  cases link <;> rfl

theorem eval_on (context : Context) (fuel : Nat) (env : Env) :
    context.eval (fuel + 1) (link.on receiver) env =
      context.eval fuel receiver env >>= fun value => link.follow context receiver.ty value := by
  cases link with
  | read => rfl
  | call ty method =>
    refine bind_congr fun object => ?_
    simp only [List.mapM_nil, pure_bind, follow, Context.callOn, Context.callMethod]
    split
    · rfl
    · split
      · rfl
      · exact bind_congr fun _ => Builtin.run_nil _ _ _ _ _ _

variable {link} {context : Context} {ty : Ty} {value : Value}

theorem follow_null (h : link.name ≠ "HasValue") :
    link.follow context ty .null = EvalM.fail (.nullReference link.name) := by
  cases link with
  | read resultTy name declaring =>
    refine context.readMember_null (fun hvalue => ?_) resultTy
    exact h hvalue.1
  | call => rfl

/-- On any value but null a link leaves its access, unless there is no such method. -/
theorem follow_of_not_isNull (h : value.isNull = false) :
    (∃ rest : EvalM Value, rest.Silent ∧
      link.follow context ty value = (do EvalM.record link.access; rest)) ∨
    ∃ error : EvalError, error.isNullFault = false ∧
      link.follow context ty value = EvalM.fail error := by
  cases link with
  | read resultTy name declaring => exact .inl (context.readMember_of_not_isNull h _ _ _)
  | call resultTy method =>
    simp only [follow, Context.callOn, Context.callMethod, h, Bool.false_eq_true, if_false]
    split
    · exact .inr ⟨_, rfl, rfl⟩
    · exact .inl ⟨_, Builtin.run_nil_silent _ _ _ _ _, rfl⟩

end Link

/-! ## Chains -/

/-- Links one after the other, the first one on `start`. -/
def chain (start : Expr) (links : List Link) : Expr :=
  links.foldl (fun receiver link => link.on receiver) start

@[simp] theorem chain_nil (start : Expr) : chain start [] = start :=
  rfl

@[simp] theorem chain_append_singleton (start : Expr) (links : List Link) (link : Link) :
    chain start (links ++ [link]) = link.on (chain start links) := by
  simp [chain]

/-- How the evaluation of a chain ends. -/
inductive ChainEnds (context : Context) (start : Expr) (links : List Link) (env : Env)
    (trace : Trace) : Except Stop Value → Trace → Prop where
  | value {value after} (hlog : after.log = trace.log ++ links.map Link.access) :
      ChainEnds context start links env trace (.ok value) after
  | null {after} (k : Nat) (hk : k < links.length)
      (hreached : context.Ends (chain start (links.take k)) env trace (.ok .null) after)
      (hlog : after.log = trace.log ++ (links.take k).map Link.access) :
      ChainEnds context start links env trace (.error (.fault (.nullReference links[k].name))) after
  | other {error after} (herror : error.isNullFault = false) :
      ChainEnds context start links env trace (.error (.fault error)) after

theorem ChainEnds.append {context : Context} {start : Expr} {links : List Link} {env : Env}
    {trace after : Trace} {stop : Stop}
    (h : ChainEnds context start links env trace (.error stop) after)
    (link : Link) : ChainEnds context start (links ++ [link]) env trace (.error stop) after := by
  cases h with
  | other herror => exact .other herror
  | null k hk hreached hlog =>
    have htake : (links ++ [link]).take k = links.take k := by
      rw [List.take_append_of_le_length (Nat.le_of_lt hk)]
    have hk' : k < (links ++ [link]).length := by
      rw [List.length_append]
      omega
    have hget : (links ++ [link])[k] = links[k] := List.getElem_append_left hk
    rw [← hget]
    exact .null k hk' (htake ▸ hreached) (htake ▸ hlog)

theorem Trace.log_of_accesses_eq {trace after : Trace} {access : Access}
    (h : after.accesses = access :: trace.accesses) : after.log = trace.log ++ [access] := by
  simp [Trace.log, h]

/-- A chain that had a value ends in one of these ways when it has one more link. -/
theorem ChainEnds.of_follow {context : Context} {start : Expr} {links : List Link} {link : Link}
    {env : Env} {trace middle : Trace} {value : Value} {ty : Ty} (hlink : link.name ≠ "HasValue")
    (hreached : context.Ends (chain start links) env trace (.ok value) middle)
    (hlog : middle.log = trace.log ++ links.map Link.access) :
    ∃ outcome after, (link.follow context ty value).runAt middle = (outcome, after) ∧
      ChainEnds context start (links ++ [link]) env trace outcome after := by
  cases hnull : value.isNull with
  | true =>
    obtain rfl := Value.eq_null_of_isNull hnull
    refine ⟨_, middle, congrArg (·.runAt middle) (Link.follow_null hlink), ?_⟩
    have htake : (links ++ [link]).take links.length = links := List.take_left
    have hk : links.length < (links ++ [link]).length := by simp
    have hlast : (links ++ [link])[links.length] = link := by simp
    have hends : ChainEnds context start (links ++ [link]) env trace _ middle :=
      .null links.length hk (htake.symm ▸ hreached) (htake.symm ▸ hlog)
    rwa [hlast] at hends
  | false =>
    rcases Link.follow_of_not_isNull hnull with ⟨rest, hrest, heq⟩ | ⟨error, herror, heq⟩
    · obtain ⟨outcome, after, hrun, hafter, herror⟩ :=
        hrest { middle with accesses := link.access :: middle.accesses }
      refine ⟨_, after, (congrArg (·.runAt middle) heq).trans hrun, ?_⟩
      cases outcome with
      | error error => exact .other (herror error rfl)
      | ok found =>
        refine .value ?_
        rw [Trace.log_of_accesses_eq hafter, hlog]
        simp
    · exact ⟨_, middle, congrArg (·.runAt middle) heq, .other herror⟩

/-- A chain on a parameter ends in one of these ways, with one level for each link. -/
theorem chain_ends (context : Context) (fuel : Nat) (ty : Ty) (name : String) (links : List Link)
    (env : Env) (trace : Trace) (hlinks : ∀ link ∈ links, link.name ≠ "HasValue") :
    ∃ outcome after,
      (context.eval (fuel + links.length + 1) (chain (.param ty name) links) env).runAt trace =
        (outcome, after) ∧
      ChainEnds context (.param ty name) links env trace outcome after := by
  induction links using List.reverseRecOn with
  | nil =>
    cases hlookup : List.lookup name env with
    | some value =>
      refine ⟨.ok value, trace, ?_, .value (by simp)⟩
      exact congrArg (·.runAt trace) (context.eval_param_of_lookup fuel hlookup ty)
    | none =>
      refine ⟨.error (.fault (.unboundParameter name)), trace, ?_, .other rfl⟩
      exact congrArg (·.runAt trace) (context.eval_param_of_unbound fuel hlookup ty)
  | append_singleton links link ih =>
    obtain ⟨hlinks, hlink⟩ := List.forall_mem_append.mp hlinks
    replace hlink := hlink link (List.mem_singleton.mpr rfl)
    obtain ⟨outcome, middle, hrun, hends⟩ := ih hlinks
    have heval := link.eval_on (chain (.param ty name) links) context (fuel + links.length + 1) env
    rw [← chain_append_singleton] at heval
    rw [List.length_append, List.length_singleton, ← Nat.add_assoc, heval]
    cases outcome with
    | error stop => exact ⟨_, _, EvalM.runAt_bind_of_error hrun, hends.append link⟩
    | ok value =>
      rw [EvalM.runAt_bind_of_ok hrun]
      cases hends with
      | value hlog => exact ChainEnds.of_follow hlink ⟨_, hrun⟩ hlog

end NullGuard
