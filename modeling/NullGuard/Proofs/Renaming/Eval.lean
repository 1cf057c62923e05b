import NullGuard.Eval.Evaluate
import NullGuard.Proofs.Renaming.Value

/-! # Evaluation under other numbers -/

namespace NullGuard

open Definitions

variable {ρ : Equiv.Perm DefId} {defs defs' : Definitions}

def Trace.rename (ρ : DefId → DefId) (trace : Trace) : Trace :=
  { trace with lookups := trace.lookups.map (Prod.map (Ty.rename ρ) id) }

def CallSite.rename (ρ : DefId → DefId) (site : CallSite) : CallSite :=
  { site with ty := site.ty.rename ρ }

/-- The bindings with other numbers in their values. -/
abbrev Env.rename (ρ : DefId → DefId) (env : Env) : Env :=
  env.map (Prod.map id (Value.rename ρ))

theorem Env.insert_rename (env : Env) (name : String) (value : Value) :
    (env.rename ρ).insert name (value.rename ρ) = (env.insert name value).rename ρ := by
  simp [Env.insert, Env.rename, List.filter_map, Function.comp_def]

/-- Evaluations that do the same up to the numbers of definitions. -/
abbrev EvalMirrors {α β : Type} (ρ : DefId → DefId) (f : α → β) (action : EvalM α)
    (mirror : EvalM β) : Prop :=
  MirrorsExcept (Trace.rename ρ) f action mirror

namespace MirrorsExcept

variable {α β : Type} {f : α → β}

theorem fail {error error' : EvalError} (h : error' = error) :
    EvalMirrors ρ f (EvalM.fail error) (EvalM.fail error') := by
  subst h
  exact .throw _

theorem record (access : Access) :
    EvalMirrors ρ id (EvalM.record access) (EvalM.record access) :=
  .update fun _ => rfl

theorem recordLookup (ty : Ty) (name : String) :
    EvalMirrors ρ id (EvalM.recordLookup ty name) (EvalM.recordLookup (ty.rename ρ) name) :=
  .update fun _ => rfl

theorem ofExcept {result result' : Except EvalError Value}
    (h : result' = result.map (Value.rename ρ)) :
    EvalMirrors ρ (Value.rename ρ) (Context.ofExcept result) (Context.ofExcept result') := by
  subst h
  cases result with
  | ok value => exact .pure rfl
  | error error => exact .fail rfl

end MirrorsExcept

/-! ## Methods -/

section Methods

variable (site : CallSite)

theorem CallSite.fail_mirrors {α β : Type} {f : α → β} (expected : String) (found : Value) :
    EvalMirrors ρ f (site.fail expected found) ((site.rename ρ).fail expected (found.rename ρ)) :=
  .fail (by rw [EvalError.mismatch, Value.kindName_rename]; rfl)

theorem CallSite.items_mirrors (receiver : Value) :
    EvalMirrors ρ (List.map (Value.rename ρ)) (site.items receiver)
      ((site.rename ρ).items (receiver.rename ρ)) := by
  cases receiver with
  | collection kind items => exact .pure (Value.renameItems_eq_map ρ items)
  | _ => exact site.fail_mirrors "collection" _

theorem Total.add_mirrors (total : Total) (item : Value) :
    EvalMirrors ρ id (total.add site item) (total.add (site.rename ρ) (item.rename ρ)) := by
  cases item with
  | null | int | double => exact .pure rfl
  | _ => exact site.fail_mirrors "number" _

theorem Total.value_rename (total : Total) : total.value.rename ρ = total.value := by
  unfold Total.value
  split <;> rfl

theorem headD_rename (args : List Value) :
    (args.map (Value.rename ρ)).headD .null = (args.headD .null).rename ρ := by
  cases args <;> rfl

theorem Builtin.run_contains_mirrors (invoke invoke' : Invoke) (receiver : Value)
    (args : List Value) :
    EvalMirrors ρ (Value.rename ρ) (Builtin.run defs invoke site receiver args .contains)
      (Builtin.run defs' invoke' (site.rename ρ) (receiver.rename ρ) (args.map (Value.rename ρ))
        .contains) := by
  dsimp only [Builtin.run]
  rw [headD_rename]
  generalize args.headD .null = item
  cases receiver with
  | string text =>
    cases item with
    | string => exact .pure rfl
    | _ => exact site.fail_mirrors "string" _
  | _ =>
    refine .bind (site.items_mirrors _) fun items => .pure ?_
    simp [List.any_map, Function.comp_def, Value.looselyEquals_rename]

variable {invoke invoke' : Invoke}
  (hinvoke : ∀ callee args, EvalMirrors ρ (Value.rename ρ) (invoke callee args)
    (invoke' (callee.rename ρ) (args.map (Value.rename ρ))))

include hinvoke

theorem CallSite.test_mirrors (predicate item : Value) :
    EvalMirrors ρ id (site.test invoke predicate item)
      ((site.rename ρ).test invoke' (predicate.rename ρ) (item.rename ρ)) := by
  refine .bind (hinvoke predicate [item]) fun answer => ?_
  cases answer with
  | bool => exact .pure rfl
  | _ => exact site.fail_mirrors "bool" _

theorem CallSite.matching_mirrors (receiver : Value) (args : List Value) :
    EvalMirrors ρ (List.map (Value.rename ρ)) (site.matching invoke receiver args)
      ((site.rename ρ).matching invoke' (receiver.rename ρ) (args.map (Value.rename ρ))) := by
  refine .bind (site.items_mirrors receiver) fun items => ?_
  cases args with
  | nil => exact .pure rfl
  | cons predicate rest => exact .keepM fun item _ => site.test_mirrors hinvoke predicate item

theorem Builtin.run_sum_mirrors (receiver : Value) (args : List Value) :
    EvalMirrors ρ (Value.rename ρ) (Builtin.run defs invoke site receiver args .sum)
      (Builtin.run defs' invoke' (site.rename ρ) (receiver.rename ρ) (args.map (Value.rename ρ))
        .sum) := by
  have hreal :
      (decide ((site.rename ρ).ty = .double) || decide ((site.rename ρ).ty = .intrinsic .decimal)) =
        (decide (site.ty = .double) || decide (site.ty = .intrinsic .decimal)) := by
    simp only [CallSite.rename, Ty.rename_eq_intrinsic_iff]
  refine .bind (site.items_mirrors receiver) fun items => ?_
  rw [hreal]
  refine .bind (.foldlM (fun total item _ => ?_) _) fun total => .pure total.value_rename.symm
  cases args with
  | nil => exact total.add_mirrors site item
  | cons selector rest =>
    exact .bind (hinvoke selector [item]) fun value => total.add_mirrors site value

theorem Builtin.run_mirrors (h : OutlinesMatch ρ defs defs') (receiver : Value)
    (args : List Value) (method : Builtin) :
    EvalMirrors ρ (Value.rename ρ) (method.run defs invoke site receiver args)
      (method.run defs' invoke' (site.rename ρ) (receiver.rename ρ)
        (args.map (Value.rename ρ))) := by
  have hmatching := site.matching_mirrors hinvoke receiver args
  cases method with
  | count | any => exact .bind hmatching fun kept => .pure (by simp)
  | first =>
    refine .bind hmatching fun kept => ?_
    cases kept with
    | nil => exact .fail rfl
    | cons item kept => exact .pure rfl
  | firstOrDefault =>
    refine .bind hmatching fun kept => ?_
    cases kept with
    | nil => exact .pure (Value.default_rename h site.ty)
    | cons item kept => exact .pure rfl
  | filter =>
    cases args with
    | nil => exact site.fail_mirrors "closure" .null
    | cons predicate rest => exact .bind hmatching fun kept => .pure (Value.list_rename kept)
  | select =>
    refine .bind (site.items_mirrors receiver) fun items => ?_
    rw [headD_rename]
    exact .bind (.mapM fun item _ => hinvoke _ [item]) fun results =>
      .pure (Value.list_rename results)
  | sum => exact run_sum_mirrors site hinvoke receiver args
  | contains => exact run_contains_mirrors site invoke invoke' receiver args
  | toUpper =>
    cases receiver with
    | string => exact .pure rfl
    | _ => exact site.fail_mirrors "string" _
  | length =>
    cases receiver with
    | string => exact .pure rfl
    | collection => exact .pure (by simp)
    | _ => exact site.fail_mirrors "string" _
  | isNullOrEmpty =>
    rcases args with _ | ⟨arg, rest⟩
    · exact .pure rfl
    · cases arg with
      | null | string => exact .pure rfl
      | _ => exact site.fail_mirrors "string" _

end Methods

/-! ## Nodes -/

namespace Context

section Node

variable {run run' : Run} (methods : MethodTable)
  (hrun : ∀ e env, EvalMirrors ρ (Value.rename ρ) (run e env) (run' (e.rename ρ) (env.rename ρ)))

theorem readField_mirrors (h : Match ρ defs defs') (objectTy : Ty) (fields : List (String × Value))
    (name : String) (ty : Ty) :
    EvalMirrors ρ (Value.rename ρ) (readField ⟨defs, methods⟩ objectTy fields name ty)
      (readField ⟨defs', methods⟩ (objectTy.rename ρ) (fields.map (Prod.map id (Value.rename ρ)))
        name (ty.rename ρ)) := by
  unfold readField
  rw [lookup_map_values]
  cases fields.lookup name with
  | some value => exact .pure rfl
  | none =>
    refine .bind (.recordLookup objectTy name) fun _ => ?_
    dsimp only
    rw [Ty.fieldType?_rename h, Option.isSome_map, Ty.text_rename h.outlines]
    split
    · exact .pure (Value.default_rename h.outlines ty)
    · exact .fail rfl

theorem readNullable_mirrors (isNullable : Bool) (name : String) (value : Value) :
    EvalMirrors ρ (Value.rename ρ) (readMember.readNullable isNullable name value)
      (readMember.readNullable isNullable name (value.rename ρ)) := by
  unfold readMember.readNullable
  rw [Value.kindName_rename]
  split
  · exact .pure rfl
  · split
    · exact .pure rfl
    · exact .fail rfl

theorem readMember_mirrors (h : Match ρ defs defs') (value : Value) (targetTy : Ty)
    (name : String) (ty : Ty) :
    EvalMirrors ρ (Value.rename ρ) (readMember ⟨defs, methods⟩ value targetTy name ty)
      (readMember ⟨defs', methods⟩ (value.rename ρ) (targetTy.rename ρ) name (ty.rename ρ)) := by
  have hnullable := readNullable_mirrors (ρ := ρ) targetTy.underlying?.isSome name
  unfold readMember
  rw [Ty.underlying?_rename, Option.isSome_map, Value.isNull_rename]
  dsimp only
  split
  · split
    · exact .bind (.record _) fun _ => .pure rfl
    · exact .fail rfl
  · refine .bind (.record _) fun _ => ?_
    cases value with
    | object objectTy fields =>
      simpa using readField_mirrors methods h objectTy fields name ty
    | string s =>
      dsimp only [Value.rename]
      split
      · exact .pure rfl
      · exact hnullable (.string s)
    | collection kind items =>
      dsimp only [Value.rename]
      split
      · exact .pure (by simp)
      · exact hnullable (.collection kind items)
    | _ => exact hnullable _

theorem readStatic_mirrors (h : OutlinesMatch ρ defs defs') (declaring : Ty) (name : String)
    (ty : Ty) :
    EvalMirrors ρ (Value.rename ρ) (readStatic ⟨defs, methods⟩ declaring name ty)
      (readStatic ⟨defs', methods⟩ (declaring.rename ρ) name (ty.rename ρ)) := by
  refine .bind (.record _) fun _ => ?_
  simp only [Ty.rename_eq_intrinsic_iff, Ty.text_rename h]
  split
  · exact .pure rfl
  · split
    · exact .pure rfl
    · exact .fail rfl

theorem truth_mirrors (op : BinaryOp) (value : Value) :
    EvalMirrors ρ id (truth op value) (truth op (value.rename ρ)) := by
  cases value with
  | bool => exact .pure rfl
  | _ => exact .fail rfl

include hrun

theorem invoke_mirrors (callee : Value) (args : List Value) :
    EvalMirrors ρ (Value.rename ρ) (invoke run callee args)
      (invoke run' (callee.rename ρ) (args.map (Value.rename ρ))) := by
  cases callee with
  | closure params body env =>
    let bind (env : Env) (pair : Param × Value) := env.insert pair.1.name pair.2
    have henv : ((params.map (Param.rename ρ)).zip (args.map (Value.rename ρ))).foldl bind
        (Env.rename ρ env) = Env.rename ρ ((params.zip args).foldl bind env) := by
      rw [List.zip_map, List.foldl_map]
      refine List.foldl_hom (Env.rename ρ) fun env pair => ?_
      exact Env.insert_rename env pair.1.name pair.2
    simp only [Value.rename, Value.renameFields_eq_map, invoke, List.length_map]
    split
    · exact .fail rfl
    · exact henv ▸ hrun body _
  | _ => exact .fail rfl

theorem callMethod_mirrors (h : OutlinesMatch ρ defs defs') (key : String) (site : CallSite)
    (receiver : Value) (args : List Value) :
    EvalMirrors ρ (Value.rename ρ) (callMethod ⟨defs, methods⟩ run key site receiver args)
      (callMethod ⟨defs', methods⟩ run' key (site.rename ρ) (receiver.rename ρ)
        (args.map (Value.rename ρ))) := by
  unfold callMethod
  dsimp only
  rw [Value.kindName_rename]
  cases methods.get? key with
  | none => exact .fail rfl
  | some method =>
    exact .bind (.record _) fun _ =>
      method.run_mirrors site (invoke_mirrors hrun) h receiver args

theorem callOn_mirrors (h : OutlinesMatch ρ defs defs') (method : Method) (ty : Ty)
    (object : Value) (args : List Value) :
    EvalMirrors ρ (Value.rename ρ) (callOn ⟨defs, methods⟩ run method ty object args)
      (callOn ⟨defs', methods⟩ run' method (ty.rename ρ) (object.rename ρ)
        (args.map (Value.rename ρ))) := by
  unfold callOn
  rw [Value.isNull_rename]
  split
  · exact .fail rfl
  · exact callMethod_mirrors methods hrun h method.name ⟨method.name, ty⟩ object args

theorem callFree_mirrors (h : OutlinesMatch ρ defs defs') (method : Method) (ty : Ty)
    (args : List Value) :
    EvalMirrors ρ (Value.rename ρ) (callFree ⟨defs, methods⟩ run method ty args)
      (callFree ⟨defs', methods⟩ run' method (ty.rename ρ) (args.map (Value.rename ρ))) := by
  unfold callFree
  split
  · cases args with
    | nil => exact .fail rfl
    | cons receiver rest =>
      simp only [List.map_cons, Value.isNull_rename]
      split
      · exact .fail rfl
      · exact callMethod_mirrors methods hrun h method.name ⟨method.name, ty⟩ receiver rest
  · exact callMethod_mirrors methods hrun h _ ⟨method.name, ty⟩ .null args

theorem evalNode_mirrors (h : Match ρ defs defs') (e : Expr) (env : Env) :
    EvalMirrors ρ (Value.rename ρ) (evalNode ⟨defs, methods⟩ run e env)
      (evalNode ⟨defs', methods⟩ run' (e.rename ρ) (env.rename ρ)) := by
  have hargs (args : List Expr) : EvalMirrors ρ (List.map (Value.rename ρ))
      (args.mapM fun arg => run arg env)
      ((args.map (Expr.rename ρ)).mapM fun arg => run' arg (env.rename ρ)) :=
    .mapM fun arg _ => hrun arg env
  cases e with
  | param ty name =>
    simp only [Expr.rename, evalNode, lookup_map_values]
    cases List.lookup name env with
    | none => exact .fail rfl
    | some value => exact .pure rfl
  | literal ty value => exact .pure (Value.ofLiteral_rename value).symm
  | default ty => exact .pure (Value.default_rename h.outlines ty)
  | member ty target name declaring =>
    refine .bind (hrun target env) fun value => ?_
    rw [Expr.ty_rename]
    exact readMember_mirrors methods h value target.ty name ty
  | staticMember ty name declaring => exact readStatic_mirrors methods h.outlines declaring name ty
  | call ty object method args =>
    simp only [Expr.rename, Expr.renameAll_eq_map, evalNode]
    exact .bind (hrun object env) fun object => .bind (hargs args) fun args =>
      callOn_mirrors methods hrun h.outlines method ty object args
  | freeCall ty method args =>
    simp only [Expr.rename, Expr.renameAll_eq_map, evalNode]
    exact .bind (hargs args) fun args => callFree_mirrors methods hrun h.outlines method ty args
  | lambda ty params body => exact .pure (by simp)
  | binary ty op left right =>
    simp only [Expr.rename, evalNode]
    split
    · refine .bind (hrun left env) fun first => .bind (truth_mirrors op first) fun first => ?_
      dsimp only [id]
      split
      · exact .pure rfl
      · exact .bind (hrun right env) fun second => .bind (truth_mirrors op second) fun _ =>
          .pure rfl
    · exact .bind (hrun left env) fun first => .bind (hrun right env) fun second =>
        .ofExcept (op.apply_rename first second)
  | unary ty op operand =>
    exact .bind (hrun operand env) fun value => .ofExcept (op.apply_rename value)
  | coalesce ty left right =>
    refine .bind (hrun left env) fun value => ?_
    rw [Value.isNull_rename]
    split
    · exact hrun right env
    · exact .pure rfl
  | cond ty test ifTrue ifFalse =>
    refine .bind (hrun test env) fun value => ?_
    cases value with
    | bool value =>
      cases value with
      | true => exact hrun ifTrue env
      | false => exact hrun ifFalse env
    | _ => exact .fail rfl
  | convert ty operand =>
    exact .bind (hrun operand env) fun value => .pure (value.convert_rename ty)
  | construct ty args =>
    simp only [Expr.rename, Expr.renameAll_eq_map, evalNode]
    exact .bind (hargs args) fun _ => .pure (Value.construct_rename h ty)
  | newArray ty elements =>
    simp only [Expr.rename, Expr.renameAll_eq_map, evalNode]
    exact .bind (hargs elements) fun items => .pure (Value.array_rename items)
  | index ty target position =>
    exact .bind (hrun target env) fun target => .bind (hrun position env) fun position =>
      .ofExcept (target.elementAt_rename position)
  | bind ty var value body =>
    refine .bind (hrun value env) fun value => ?_
    rw [Param.rename, Env.insert_rename]
    exact hrun body _

end Node

theorem eval_mirrors (h : Match ρ defs defs') (methods : MethodTable) (fuel : Nat) (e : Expr)
    (env : Env) :
    EvalMirrors ρ (Value.rename ρ) (eval ⟨defs, methods⟩ fuel e env)
      (eval ⟨defs', methods⟩ fuel (e.rename ρ) (env.rename ρ)) := by
  induction fuel generalizing e env with
  | zero => exact .throw _
  | succ fuel ih => exact evalNode_mirrors methods ih h e env

end Context

end NullGuard
