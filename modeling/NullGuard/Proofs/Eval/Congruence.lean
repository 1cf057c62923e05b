import NullGuard.Proofs.Eval.Builtin
import NullGuard.Proofs.Eval.Env
import NullGuard.Proofs.Eval.Node
import NullGuard.Proofs.Expr.FreeNames

/-! # Nodes agree if their parts do -/

namespace NullGuard

open List (Forall₂)

section Agree

open Comparison

variable {S : Comparison} (context : Context) {run run' : Run}

theorem Context.readField_agree {objectTy : Ty} {fields : List (String × Value)}
    (h : S.Data (.object objectTy fields)) (name : String) (ty : Ty) :
    S.Agree S.Same (context.readField objectTy fields name ty)
      (context.readField objectTy fields name ty) := by
  unfold Context.readField
  split
  · rename_i value hvalue
    exact .pure ⟨rfl, h.of_lookup hvalue⟩
  · refine (Agree.recordLookup objectTy name).bind fun _ _ _ => ?_
    split
    · exact .pure ⟨rfl, Value.everyClosure_default _ _⟩
    · exact .fail rfl

theorem Context.readNullable_agree {value : Value} (h : S.Data value) (isNullable : Bool)
    (name : String) :
    S.Agree S.Same (Context.readMember.readNullable isNullable name value)
      (Context.readMember.readNullable isNullable name value) := by
  unfold Context.readMember.readNullable
  split
  · exact .pure ⟨rfl, .scalar rfl⟩
  · split
    · exact .pure ⟨rfl, h⟩
    · exact .fail rfl

theorem Context.readMember_agree {value : Value} (h : S.Data value) (targetTy : Ty) (name : String)
    (ty : Ty)
    (hnull : value.isNull = true → ¬ (name = "HasValue" ∧ targetTy.underlying?.isSome = true) →
      S.waived (.fault (.nullReference name)) ∨ S.shared (.fault (.nullReference name))) :
    S.Agree S.Same (context.readMember value targetTy name ty)
      (context.readMember value targetTy name ty) := by
  cases value with
  | null =>
    by_cases hvalue : name = "HasValue" ∧ targetTy.underlying?.isSome = true
    · rw [Context.readMember_null_of_hasValue _ hvalue]
      exact (Agree.record _).bind fun _ _ _ => .pure ⟨rfl, .scalar rfl⟩
    · rw [Context.readMember_null _ hvalue]
      exact .throw (hnull rfl hvalue)
  | object objectTy fields =>
    exact (Agree.record _).bind fun _ _ _ => context.readField_agree h name ty
  | string s =>
    refine (Agree.record _).bind fun _ _ _ => ?_
    by_cases hname : name = "Length"
    · simp only [hname, if_true]
      exact .pure ⟨rfl, .scalar rfl⟩
    · simp only [hname, if_false]
      exact readNullable_agree h _ name
  | collection kind items =>
    refine (Agree.record _).bind fun _ _ _ => ?_
    by_cases hname : name = "Count" ∨ name = "Length"
    · simp only [Bool.or_eq_true, decide_eq_true_eq, hname, if_true]
      exact .pure ⟨rfl, .scalar rfl⟩
    · simp only [Bool.or_eq_true, decide_eq_true_eq, hname, if_false]
      exact readNullable_agree h _ name
  | _ => exact (Agree.record _).bind fun _ _ _ => readNullable_agree h _ name

theorem Context.readStatic_agree (declaring : Ty) (name : String) (ty : Ty) :
    S.Agree S.Same (context.readStatic declaring name ty)
      (context.readStatic declaring name ty) := by
  refine (Agree.record _).bind fun _ _ _ => ?_
  split
  · exact .pure ⟨rfl, .scalar rfl⟩
  · split
    · exact .pure ⟨rfl, .scalar rfl⟩
    · exact .fail rfl

/-- Faults at null are waived or shared. -/
abbrev Comparison.AdmitsNull (S : Comparison) : Prop :=
  ∀ error : EvalError, error.isNullFault = true → S.waived (.fault error) ∨ S.shared (.fault error)

theorem Context.elementAt_agree {target : Value} (h : S.Data target) (position : Value)
    (hnull : target.isNull = true → S.AdmitsNull) :
    S.Agree S.Same (Context.ofExcept (target.elementAt position))
      (Context.ofExcept (target.elementAt position)) := by
  refine .ofExcept (fun found hfound => ?_) fun error herror => ?_
  · obtain ⟨kind, items, rfl, hmem⟩ := Value.elementAt_eq_ok hfound
    exact h.of_mem_items hmem
  · rcases Value.elementAt_eq_error herror with hordinary | ⟨rfl, hfault⟩
    · exact S.ordinary hordinary
    · exact hnull rfl error hfault

theorem Context.invoke_agree {callee : Value} {args : List Value}
    (h : ∀ params body env, callee = .closure params body env → params.length = args.length →
      S.Agree S.Same (run body (Env.insertAll env params args))
        (run' body (Env.insertAll env params args))) :
    S.Agree S.Same (Context.invoke run callee args) (Context.invoke run' callee args) := by
  unfold Context.invoke
  cases callee with
  | closure params body env =>
    by_cases hlength : params.length = args.length
    · simp only [hlength, ne_eq, not_true_eq_false, if_false]
      exact h params body env rfl hlength
    · simp only [hlength, ne_eq, not_false_eq_true, if_true]
      exact .fail rfl
  | _ => exact .fail rfl

/-- Data is refused as a callee by both runs. -/
theorem Context.invoke_agree_of_isData {callee : Value} (h : callee.IsData) (args : List Value) :
    S.Agree S.Same (Context.invoke run callee args) (Context.invoke run' callee args) :=
  invoke_agree fun params body env heq _ => absurd heq (h.ne_closure params body env)

variable (hinvoke : ∀ callee callee' item, S.Argument callee callee' → S.Data item →
  S.Agree S.Same (Context.invoke run callee [item]) (Context.invoke run' callee' [item]))

include hinvoke

theorem Context.callMethod_agree (key : String) (site : CallSite) {receiver : Value}
    {args args' : List Value} (h : S.Data receiver) (hargs : Forall₂ S.Argument args args') :
    S.Agree S.Same (context.callMethod run key site receiver args)
      (context.callMethod run' key site receiver args') := by
  unfold Context.callMethod
  split
  · exact .fail rfl
  · exact (Agree.record _).bind fun _ _ _ => Builtin.run_agree site hinvoke _ h hargs _

/-- Faults at null are waived or shared, if one happens at the node. -/
abbrev Comparison.Admits (S : Comparison) (node : Expr) (plain : List Value) : Prop :=
  node.faultsAtNull plain = true → S.AdmitsNull

theorem Context.callOn_agree (method : Method) (ty : Ty) {object : Value} {args args' : List Value}
    (h : S.Data object) (hargs : Forall₂ S.Argument args args')
    (hnull : object.isNull = true → S.AdmitsNull) :
    S.Agree S.Same (context.callOn run method ty object args)
      (context.callOn run' method ty object args') := by
  unfold Context.callOn
  split
  · exact .throw (hnull ‹_› _ rfl)
  · exact context.callMethod_agree hinvoke _ _ h hargs

/-- Without a receiver of its own a method may use what it is given as it likes. -/
theorem Context.callFree_agree {method : Method} (ty : Ty) {args args' : List Value}
    (hargs : Forall₂ S.Argument args args') (hmethod : method.isExtension = false) :
    S.Agree S.Same (context.callFree run method ty args)
      (context.callFree run' method ty args') := by
  unfold Context.callFree
  simp only [hmethod]
  exact context.callMethod_agree hinvoke _ _ (.scalar rfl) hargs

theorem Context.callFree_agree_of_receiver (method : Method) (ty : Ty) {receiver : Value}
    {args args' : List Value} (h : S.Data receiver) (hargs : Forall₂ S.Argument args args')
    (hnull : (method.isExtension && receiver.isNull) = true → S.AdmitsNull) :
    S.Agree S.Same (context.callFree run method ty (receiver :: args))
      (context.callFree run' method ty (receiver :: args')) := by
  by_cases hmethod : method.isExtension = true
  · unfold Context.callFree
    simp only [hmethod, if_true, Bool.true_and] at hnull ⊢
    split
    · exact .throw (hnull ‹_› _ rfl)
    · exact context.callMethod_agree hinvoke _ _ h hargs
  · rw [Bool.not_eq_true] at hmethod
    exact context.callFree_agree hinvoke ty (.cons (.same h) hargs) hmethod

/-- Strict nodes agree if they combine the same values. -/
theorem Context.combine_agree (node : Expr) {plain plain' args args' : List Value}
    (hplain : Forall₂ S.Same plain plain') (hargs : Forall₂ S.Argument args args')
    (hnull : S.Admits node plain) :
    S.Agree S.Same (context.combine run node plain args)
      (context.combine run' node plain' args') := by
  obtain ⟨rfl, hdata⟩ := sameItems_of_forall₂ hplain
  cases node with
  | literal ty value => exact .pure ⟨rfl, .scalar (Value.isScalar_ofLiteral value)⟩
  | default ty => exact .pure ⟨rfl, Value.everyClosure_default _ _⟩
  | staticMember ty name declaring => exact context.readStatic_agree _ _ _
  | construct ty args => exact .pure ⟨rfl, Value.everyClosure_construct _ _⟩
  | newArray ty elements => exact .pure ⟨rfl, .collection hdata⟩
  | member ty target name declaring =>
    obtain _ | ⟨value, _ | _⟩ := plain
    case cons.nil =>
      refine context.readMember_agree (hdata value List.mem_cons_self) _ _ _ fun hvalue hname => ?_
      exact hnull (by simpa [Expr.faultsAtNull, hvalue, imp_iff_not_or] using hname) _ rfl
    all_goals exact .pure ⟨rfl, .scalar rfl⟩
  | call ty object method args =>
    obtain _ | ⟨value, _ | _⟩ := plain
    case cons.nil =>
      exact context.callOn_agree hinvoke method ty (hdata value List.mem_cons_self) hargs hnull
    all_goals exact .pure ⟨rfl, .scalar rfl⟩
  | freeCall ty method args =>
    cases plain with
    | nil =>
      by_cases hmethod : method.isExtension = true
      · simp only [combine, Context.callFree, hmethod, if_true]
        exact .throw (hnull hmethod _ rfl)
      · rw [Bool.not_eq_true] at hmethod
        simp only [combine, hmethod]
        exact context.callFree_agree hinvoke ty hargs hmethod
    | cons receiver rest =>
      exact context.callFree_agree_of_receiver hinvoke method ty
        (hdata receiver List.mem_cons_self) hargs hnull
  | binary ty op left right =>
    obtain _ | ⟨first, _ | ⟨second, _ | _⟩⟩ := plain
    case cons.cons.nil =>
      exact .ofExcept (fun value hvalue => .scalar (BinaryOp.isScalar_apply hvalue))
        fun error herror => S.ordinary (BinaryOp.apply_eq_error herror)
    all_goals exact .pure ⟨rfl, .scalar rfl⟩
  | unary ty op operand =>
    obtain _ | ⟨value, _ | _⟩ := plain
    case cons.nil =>
      exact .ofExcept (fun value hvalue => .scalar (UnaryOp.isScalar_apply hvalue))
        fun error herror => S.ordinary (UnaryOp.apply_eq_error herror)
    all_goals exact .pure ⟨rfl, .scalar rfl⟩
  | convert ty operand =>
    obtain _ | ⟨value, _ | _⟩ := plain
    case cons.nil => exact .pure ⟨rfl, (hdata value List.mem_cons_self).convert ty⟩
    all_goals exact .pure ⟨rfl, .scalar rfl⟩
  | index ty target position =>
    obtain _ | ⟨value, _ | ⟨position, _ | _⟩⟩ := plain
    case cons.cons.nil =>
      refine elementAt_agree (hdata value List.mem_cons_self) position fun hvalue => hnull ?_
      exact hvalue
    all_goals exact .pure ⟨rfl, .scalar rfl⟩
  | param | lambda | coalesce | cond | bind => exact .pure ⟨rfl, .scalar rfl⟩

/-! ### Strict nodes -/

variable {env env' : Env}

theorem Context.proceed_agree {node node' : Expr} {value : Value} (h : S.Data value)
    (hcombine : context.combine run' node' = context.combine run' node)
    (hargs : Forall₂ (fun arg arg' => S.Agree S.Argument (run arg env) (run' arg' env'))
      node.methodArgs node'.methodArgs)
    (hnull : S.Admits node [value]) :
    S.Agree S.Same (context.proceed run node env value)
      (context.proceed run' node' env' value) := by
  unfold Context.proceed
  rw [hcombine]
  refine (Agree.mapM hargs).bind fun args args' hargs => ?_
  exact context.combine_agree hinvoke node (.cons ⟨rfl, h⟩ .nil) hargs hnull

theorem Context.evalNode_agree_of_isStrict {e e' : Expr} (hstrict : e.isStrict = true)
    (hstrict' : e'.isStrict = true) (hcombine : context.combine run' e' = context.combine run' e)
    (hplain : Forall₂ (fun part part' => S.Agree S.Same (run part env) (run' part' env'))
      e.plainParts e'.plainParts)
    (hargs : Forall₂ (fun arg arg' => S.Agree S.Argument (run arg env) (run' arg' env'))
      e.methodArgs e'.methodArgs)
    (hnull : ∀ plain, S.Admits e plain) :
    S.Agree S.Same (context.evalNode run e env) (context.evalNode run' e' env') := by
  rw [context.evalNode_of_isStrict run hstrict, context.evalNode_of_isStrict run' hstrict',
    hcombine]
  refine (Agree.mapM hplain).bind fun plain plain' hplain => ?_
  refine (Agree.mapM hargs).bind fun args args' hargs => ?_
  exact context.combine_agree hinvoke e hplain hargs (hnull plain)

end Agree

/-! ## Nodes that choose among their parts -/

section Choice

open Comparison

variable {S : Comparison} (context : Context) {run run' : Run} {env env' : Env}

theorem Comparison.Agree.and_of_ok {α β : Type} {R : α → β → Prop} {P : α → Prop}
    {first : EvalM α} {second : EvalM β} (h : S.Agree R first second)
    (hP : ∀ trace a after, first.runAt trace = (.ok a, after) → P a) :
    S.Agree (fun a b => R a b ∧ P a) first second := by
  intro trace trace' htraces
  obtain ⟨hok, herror⟩ := h trace trace' htraces
  refine ⟨fun a after hrun => ?_, herror⟩
  obtain ⟨b, after', hsecond, hab, hafter⟩ := hok a after hrun
  exact ⟨b, after', hsecond, ⟨hab, hP trace a after hrun⟩, hafter⟩

theorem Context.param_agree (ty : Ty) {name : String} (h : env'.lookup name = env.lookup name)
    (hdata : ∀ value, env.lookup name = some value → S.Data value)
    (hunbound : env.lookup name = none →
      S.waived (.fault (.unboundParameter name)) ∨ S.shared (.fault (.unboundParameter name))) :
    S.Agree S.Same (context.evalNode run (.param ty name) env)
      (context.evalNode run' (.param ty name) env') := by
  simp only [Context.evalNode, h]
  cases hvalue : env.lookup name with
  | some value => exact .pure ⟨rfl, hdata value hvalue⟩
  | none => exact .throw (hunbound hvalue)

theorem Context.truth_agree (op : BinaryOp) (value : Value) :
    S.Agree Eq (Context.truth op value) (Context.truth op value) := by
  cases value with
  | bool b => exact .pure rfl
  | _ => exact .fail rfl

theorem Context.logical_agree {op : BinaryOp} (hop : op = .and ∨ op = .or) (ty : Ty)
    {left left' right right' : Expr}
    (hleft : S.Agree S.Same (run left env) (run' left' env'))
    (hright : S.Agree S.Same (run right env) (run' right' env')) :
    S.Agree S.Same (context.evalNode run (.binary ty op left right) env)
      (context.evalNode run' (.binary ty op left' right') env') := by
  have hop' : (decide (op = .and) || decide (op = .or)) = true := by simpa using hop
  simp only [Context.evalNode, hop', if_true]
  refine hleft.bind fun value _ hvalue => ?_
  obtain ⟨rfl, _⟩ := hvalue
  refine (truth_agree op value).bind fun first _ heq => ?_
  subst heq
  split
  · exact .pure ⟨rfl, .scalar rfl⟩
  · refine hright.bind fun value _ hvalue => ?_
    obtain ⟨rfl, _⟩ := hvalue
    refine (truth_agree op value).bind fun second _ heq => ?_
    subst heq
    exact .pure ⟨rfl, .scalar rfl⟩

theorem Context.coalesce_agree (ty : Ty) {left left' right right' : Expr}
    (hleft : S.Agree S.Same (run left env) (run' left' env'))
    (hright : S.Agree S.Same (run right env) (run' right' env')) :
    S.Agree S.Same (context.evalNode run (.coalesce ty left right) env)
      (context.evalNode run' (.coalesce ty left' right') env') := by
  refine hleft.bind fun value _ hvalue => ?_
  obtain ⟨rfl, hdata⟩ := hvalue
  split
  · exact hright
  · exact .pure ⟨rfl, hdata⟩

/-- The branches have to agree only where what is known about the test holds. -/
theorem Context.cond_agree (ty : Ty) {test test' ifTrue ifTrue' ifFalse ifFalse' : Expr}
    {P : Value → Prop}
    (htest : S.Agree (fun value value' => S.Same value value' ∧ P value) (run test env)
      (run' test' env'))
    (htrue : P (.bool true) → S.Agree S.Same (run ifTrue env) (run' ifTrue' env'))
    (hfalse : P (.bool false) → S.Agree S.Same (run ifFalse env) (run' ifFalse' env')) :
    S.Agree S.Same (context.evalNode run (.cond ty test ifTrue ifFalse) env)
      (context.evalNode run' (.cond ty test' ifTrue' ifFalse') env') := by
  refine htest.bind fun value _ hvalue => ?_
  obtain ⟨⟨rfl, _⟩, hP⟩ := hvalue
  match value with
  | .bool true => exact htrue hP
  | .bool false => exact hfalse hP
  | .null | .int _ | .double _ | .string _ | .object .. | .collection .. | .closure .. =>
    exact .fail rfl

/-- A node that is no parameter and binds none agrees with itself if its parts do. -/
theorem Context.evalNode_agree_of_passesNames {e : Expr} (hpasses : e.passesNames = true)
    (hinvoke : ∀ callee callee' item, S.Argument callee callee' → S.Data item →
      S.Agree S.Same (Context.invoke run callee [item]) (Context.invoke run' callee' [item]))
    (hplain : ∀ part ∈ e.plainParts, S.Agree S.Same (run part env) (run' part env'))
    (hargs : ∀ arg ∈ e.methodArgs, S.Agree S.Argument (run arg env) (run' arg env'))
    (hnull : ∀ plain, S.Admits e plain) :
    S.Agree S.Same (context.evalNode run e env) (context.evalNode run' e env') := by
  cases hstrict : e.isStrict with
  | true =>
    exact context.evalNode_agree_of_isStrict hinvoke hstrict hstrict rfl
      (List.forall₂_same.mpr hplain) (List.forall₂_same.mpr hargs) hnull
  | false =>
    cases e with
    | binary ty op left right =>
      have hop : op = .and ∨ op = .or := by
        simpa [Expr.isStrict, imp_iff_not_or] using hstrict
      refine context.logical_agree hop ty (hplain left ?_) (hplain right ?_)
      all_goals simp [Expr.plainParts, Expr.plainCount, Expr.children]
    | coalesce ty left right =>
      refine context.coalesce_agree ty (hplain left ?_) (hplain right ?_)
      all_goals simp [Expr.plainParts, Expr.plainCount, Expr.children]
    | cond ty test ifTrue ifFalse =>
      have htest : S.Agree S.Same (run test env) (run' test env') :=
        hplain test List.mem_cons_self
      refine context.cond_agree ty (htest.mono fun _ _ h => ⟨h, trivial⟩)
        (fun _ => hplain ifTrue ?_) fun _ => hplain ifFalse ?_
      all_goals simp [Expr.plainParts, Expr.plainCount, Expr.children]
    | param | lambda | bind => cases hpasses
    | _ => cases hstrict

end Choice

end NullGuard
