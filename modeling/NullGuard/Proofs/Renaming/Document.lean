import NullGuard.Document.Data
import NullGuard.Proofs.Renaming.Eval

/-! # Documents under other numbers

The errors of a document may name types, so that an attempt and its mirror only have to fail
together. -/

namespace NullGuard

open Definitions

/-! ## Attempts that fail together -/

/-- Both attempts fail, or the second one has the translated result of the first one. -/
inductive SameFate {ε α β : Type} (f : α → β) : Except ε α → Except ε β → Prop where
  | ok (a : α) : SameFate f (.ok a) (.ok (f a))
  | error (error error' : ε) : SameFate f (.error error) (.error error')

namespace SameFate

variable {ε α β γ δ : Type} {f : α → β} {g : γ → δ}

theorem of_eq_map {attempt : Except ε α} {mirror : Except ε β} (h : mirror = attempt.map f) :
    SameFate f attempt mirror := by
  subst h
  cases attempt with
  | ok a => exact .ok a
  | error error => exact .error error error

theorem isOk_eq {attempt : Except ε α} {mirror : Except ε β} (h : SameFate f attempt mirror) :
    mirror.isOk = attempt.isOk := by
  cases h with
  | ok a => rfl
  | error error error' => rfl

theorem eq_or_error {attempt mirror : Except ε α} (h : SameFate id attempt mirror) :
    (∃ a, attempt = .ok a ∧ mirror = .ok a) ∨
      ∃ error error', attempt = .error error ∧ mirror = .error error' := by
  cases h with
  | ok a => exact .inl ⟨a, rfl, rfl⟩
  | error error error' => exact .inr ⟨error, error', rfl, rfl⟩

theorem pure {a : α} {b : β} (h : b = f a) :
    SameFate f (Pure.pure a : Except ε α) (Pure.pure b) :=
  of_eq_map (congrArg Except.ok h)

theorem bind {attempt : Except ε α} {mirror : Except ε β} {next : α → Except ε γ}
    {next' : β → Except ε δ} (h : SameFate f attempt mirror)
    (hnext : ∀ a, SameFate g (next a) (next' (f a))) :
    SameFate g (attempt >>= next) (mirror >>= next') := by
  cases h with
  | ok a => exact hnext a
  | error error error' => exact .error error error'

theorem mapM {items : List α} {read : α → Except ε γ} {read' : β → Except ε δ}
    (h : ∀ item ∈ items, SameFate g (read item) (read' (f item))) :
    SameFate (List.map g) (items.mapM read) ((items.map f).mapM read') := by
  induction items with
  | nil => exact pure rfl
  | cons item items ih =>
    rw [List.forall_mem_cons] at h
    rw [List.map_cons, List.mapM_cons, List.mapM_cons]
    exact h.1.bind fun _ => (ih h.2).bind fun _ => pure rfl

/-- Both attempts go over the same items. -/
theorem mapM_same {items : List α} {read : α → Except ε γ} {read' : α → Except ε δ}
    (h : ∀ item ∈ items, SameFate g (read item) (read' item)) :
    SameFate (List.map g) (items.mapM read) (items.mapM read') := by
  have hmapM := mapM (f := id) h
  rwa [List.map_id] at hmapM

theorem within {attempt : DocumentM α} {mirror : DocumentM β} (place : DocumentPlace)
    (h : SameFate f attempt mirror) :
    SameFate f (DocumentM.within place attempt) (DocumentM.within place mirror) := by
  cases h with
  | ok a => exact .ok a
  | error error error' => exact .error _ _

theorem ofBuild {attempt : Except BuildError α} {mirror : Except BuildError β}
    (h : SameFate f attempt mirror) :
    SameFate f (DocumentM.ofBuild attempt) (DocumentM.ofBuild mirror) := by
  cases h with
  | ok a => exact .ok a
  | error error error' => exact .error _ _

end SameFate

variable {ρ : Equiv.Perm DefId} {defs defs' : Definitions}

/-! ## The query -/

theorem resolveType_sameFate (h : OutlinesMatch ρ defs defs') (name : String) :
    SameFate (Ty.rename ρ) (resolveType defs name) (resolveType defs' name) := by
  unfold resolveType
  rw [Ty.parse_rename h]
  cases Ty.parse defs name with
  | ok ty => exact .ok ty
  | error error => exact .error _ _

namespace Expr

theorem member?_sameFate (h : Match ρ defs defs') (target : Expr) (name : String) :
    SameFate (rename ρ) (member? defs target name) (member? defs' (target.rename ρ) name) := by
  unfold member?
  rw [ty_rename, Ty.fieldType?_rename h]
  cases target.ty.fieldType? defs name with
  | none => exact .error _ _
  | some ty => exact .of_eq_map (by simp [Except.map, memberOf])

theorem extensionCall?_sameFate (owner name : String) (args : List Expr) (ty : Ty) :
    SameFate (rename ρ) (extensionCall? owner name args ty)
      (extensionCall? owner name (args.map (rename ρ)) (ty.rename ρ)) := by
  cases args with
  | nil => exact .error _ _
  | cons receiver rest => exact .of_eq_map (by simp [extensionCall?, Except.map])

theorem cond?_sameFate (test ifTrue ifFalse : Expr) :
    SameFate (rename ρ) (cond? test ifTrue ifFalse)
      (cond? (test.rename ρ) (ifTrue.rename ρ) (ifFalse.rename ρ)) := by
  unfold cond?
  simp only [ty_rename, ne_eq, Ty.rename_inj, Ty.rename_eq_intrinsic_iff]
  split
  · exact .error _ _
  · split
    · exact .error _ _
    · exact .of_eq_map (by simp [Except.map])

theorem fitsElement_rename (h : Match ρ defs defs') (expected : Ty) (element : Expr) :
    fitsElement defs' (expected.rename ρ) (element.rename ρ) =
      fitsElement defs expected element := by
  unfold fitsElement
  rw [isNull_rename, ty_rename, Ty.isAssignable_rename h]

theorem newArray?_sameFate (h : Match ρ defs defs') (ty : Ty) (elements : List Expr) :
    SameFate (rename ρ) (newArray? defs ty elements)
      (newArray? defs' (ty.rename ρ) (elements.map (rename ρ))) := by
  unfold newArray?
  rw [Ty.element?_rename]
  cases ty.element? with
  | none => exact .error _ _
  | some expected =>
    simp only [Option.map_some, List.find?_map, Function.comp_def, fitsElement_rename h]
    cases elements.find? fun element => !fitsElement defs expected element with
    | none => exact .of_eq_map (by simp [Except.map])
    | some bad => exact .error _ _

theorem index?_sameFate (target position : Expr) :
    SameFate (rename ρ) (index? target position)
      (index? (target.rename ρ) (position.rename ρ)) := by
  unfold index?
  rw [ty_rename, Ty.element?_rename]
  cases target.ty.element? with
  | none => exact .error _ _
  | some element => exact .of_eq_map (by simp [Except.map])

end Expr

theorem Ty.isFloating_rename (ty : Ty) : (ty.rename ρ).isFloating = ty.isFloating := by
  cases ty with
  | intrinsic kind => rfl
  | _ => simp [isFloating]

theorem lowerConstant_sameFate (value : Json) (declared : Option Ty) :
    SameFate (Expr.rename ρ) (lowerConstant value declared)
      (lowerConstant value (declared.map (Ty.rename ρ))) := by
  have hfloating : (declared.map (Ty.rename ρ)).any (·.isFloating) =
      declared.any (·.isFloating) := by
    cases declared <;> simp [Ty.isFloating_rename]
  have hty (literal : Literal) : (declared.map (Ty.rename ρ)).getD literal.ty =
      (declared.getD literal.ty).rename ρ := by
    cases declared with
    | none => cases literal <;> simp [Literal.ty]
    | some ty => rfl
  unfold lowerConstant
  simp only [hfloating, hty]
  split
  · exact .of_eq_map (by simp [Except.map])
  · exact .error _ _

/-- The scope with other numbers in its types. -/
abbrev Scope.rename (ρ : DefId → DefId) (scope : Scope) : Scope :=
  scope.map (Prod.map id (Ty.rename ρ))

namespace QueryNode

mutual

/-- A node is lowered to the same expression up to the numbers in it. -/
theorem lower_sameFate (h : Match ρ defs defs') : ∀ (node : QueryNode) (scope : Scope),
    SameFate (Expr.rename ρ) (node.lower defs scope) (node.lower defs' (scope.rename ρ))
  | param name, scope => by
    rw [lower, lower, lookup_map_values]
    cases scope.lookup name with
    | none => exact .error _ _
    | some ty => exact .of_eq_map (by simp [Except.map])
  | const value ty, scope => by
    rw [lower, lower]
    refine .bind (f := Option.map (Ty.rename ρ)) ?_ (lowerConstant_sameFate value)
    cases ty with
    | none => exact .pure rfl
    | some name => exact .bind (resolveType_sameFate h.outlines name) fun _ => .pure rfl
  | null ty, scope | default ty, scope | construct ty, scope => by
    rw [lower, lower]
    exact .bind (resolveType_sameFate h.outlines ty) fun _ => .pure (by simp)
  | member target name, scope => by
    rw [lower, lower]
    exact .bind (lower_sameFate h target scope) fun target =>
      .ofBuild (Expr.member?_sameFate h target name)
  | staticMember owner name ty, scope => by
    rw [lower, lower]
    exact .bind (resolveType_sameFate h.outlines owner) fun _ =>
      .bind (resolveType_sameFate h.outlines ty) fun _ => .pure (by simp)
  | call object method args returns, scope => by
    rw [lower, lower]
    exact .bind (lower_sameFate h object scope) fun _ => .bind (lowerAll_sameFate h args scope)
      fun _ => .bind (resolveType_sameFate h.outlines returns) fun _ =>
        .pure (by simp [Expr.instanceCall])
  | extension owner method args returns, scope => by
    rw [lower, lower]
    exact .bind (lowerAll_sameFate h args scope) fun args =>
      .bind (resolveType_sameFate h.outlines returns) fun ty =>
        .ofBuild (Expr.extensionCall?_sameFate owner method args ty)
  | staticCall owner method args returns, scope => by
    rw [lower, lower]
    exact .bind (lowerAll_sameFate h args scope) fun _ =>
      .bind (resolveType_sameFate h.outlines returns) fun _ => .pure (by simp [Expr.staticCall])
  | lambda params body, scope => by
    rw [lower, lower]
    refine .bind (f := List.map (Param.rename ρ)) (.mapM_same fun param _ =>
      .bind (resolveType_sameFate h.outlines param.ty) fun _ => .pure rfl) fun params => ?_
    have hscope :
        ((params.map (Param.rename ρ)).reverse.map fun param => (param.name, param.ty)) ++
          scope.rename ρ =
        Scope.rename ρ ((params.reverse.map fun param => (param.name, param.ty)) ++ scope) := by
      simp [Scope.rename, Param.rename, Function.comp_def]
    dsimp only
    rw [hscope]
    exact .bind (lower_sameFate h body _) fun _ => .pure (by simp [Expr.lambdaOf])
  | binary op left right, scope => by
    rw [lower, lower]
    refine .bind (f := id) (.of_eq_map ?_) fun op => .bind (lower_sameFate h left scope) fun _ =>
      .bind (lower_sameFate h right scope) fun _ => .pure (Expr.binaryOf_rename op _ _).symm
    cases lowerBinaryOp op <;> rfl
  | unary op operand, scope => by
    rw [lower, lower]
    refine .bind (f := id) (.of_eq_map ?_) fun op => .bind (lower_sameFate h operand scope)
      fun _ => .pure ?_
    · cases lowerUnaryOp op <;> rfl
    · cases op <;> simp [Expr.unaryOf]
  | coalesce left right, scope => by
    rw [lower, lower]
    exact .bind (lower_sameFate h left scope) fun _ => .bind (lower_sameFate h right scope)
      fun _ => .pure (Expr.coalesceOf_rename _ _).symm
  | condition test ifTrue ifFalse, scope => by
    rw [lower, lower]
    exact .bind (lower_sameFate h test scope) fun test => .bind (lower_sameFate h ifTrue scope)
      fun ifTrue => .bind (lower_sameFate h ifFalse scope) fun ifFalse =>
        .ofBuild (Expr.cond?_sameFate test ifTrue ifFalse)
  | convert operand ty, scope => by
    rw [lower, lower]
    exact .bind (lower_sameFate h operand scope) fun _ =>
      .bind (resolveType_sameFate h.outlines ty) fun _ => .pure (by simp)
  | newArray ty elements, scope => by
    rw [lower, lower]
    exact .bind (lowerAll_sameFate h elements scope) fun elements =>
      .bind (resolveType_sameFate h.outlines ty) fun ty =>
        .ofBuild (Expr.newArray?_sameFate h ty elements)
  | index target position, scope => by
    rw [lower, lower]
    exact .bind (lower_sameFate h target scope) fun target =>
      .bind (lower_sameFate h position scope) fun position =>
        .ofBuild (Expr.index?_sameFate target position)

theorem lowerAll_sameFate (h : Match ρ defs defs') : ∀ (nodes : List QueryNode) (scope : Scope),
    SameFate (List.map (Expr.rename ρ)) (lowerAll defs scope nodes)
      (lowerAll defs' (scope.rename ρ) nodes)
  | [], scope => by
    rw [lowerAll, lowerAll]
    exact .ok []
  | node :: nodes, scope => by
    rw [lowerAll, lowerAll]
    exact .bind (lower_sameFate h node scope) fun _ => .bind (lowerAll_sameFate h nodes scope)
      fun _ => .pure rfl

end

end QueryNode

namespace Document

theorem parameterTypes_sameFate (h : OutlinesMatch ρ defs defs') (document : Document) :
    SameFate (List.map (Prod.map id (Ty.rename ρ))) (document.parameterTypes defs)
      (document.parameterTypes defs') :=
  .mapM_same fun (name, ty) _ =>
    .bind (.within (.parameter name) (resolveType_sameFate h ty)) fun _ => .pure rfl

theorem expr_sameFate (h : Match ρ defs defs') (document : Document) :
    SameFate (Expr.rename ρ) (document.expr defs) (document.expr defs') :=
  .bind (document.parameterTypes_sameFate h.outlines) fun parameters =>
    document.query.lower_sameFate h parameters

end Document

/-! ## The data -/

namespace Ty

theorem itemType_rename (ty : Ty) : (ty.rename ρ).itemType = ty.itemType.rename ρ := by
  unfold itemType
  rw [element?_rename, singleArg?_rename]
  cases ty.element? <;> cases ty.singleArg? <;> simp

theorem isSet_rename (h : Match ρ defs defs') (ty : Ty) : (ty.rename ρ).isSet = ty.isSet := by
  cases ty with
  | named definition args =>
    have hset : ρ definition = Collection.hashSet ↔ definition = Collection.hashSet :=
      h.apply_eq_iff (by decide)
    have hinterface : ρ definition = Collection.setInterface ↔
        definition = Collection.setInterface :=
      h.apply_eq_iff (by decide)
    simp [isSet, hset, hinterface]
  | _ => simp [isSet]

end Ty

theorem Value.collectionOf_rename (h : Match ρ defs defs') (ty : Ty) (items : List Value) :
    collectionOf (ty.rename ρ) (items.map (rename ρ)) = (collectionOf ty items).rename ρ := by
  unfold collectionOf
  rw [Ty.element?_rename, Option.isSome_map, Ty.isSet_rename h]
  split
  · exact array_rename items
  · split
    · exact set_rename items
    · exact list_rename items

/-- Conversions that do the same up to the numbers of definitions. -/
abbrev DataMirrors {α β : Type} (ρ : DefId → DefId) (f : α → β) (action : DataM α)
    (mirror : DataM β) : Prop :=
  MirrorsExcept (List.map (Prod.map (Ty.rename ρ) id)) f action mirror

theorem memberType_mirrors (h : Match ρ defs defs') (ty : Ty) (name : String) :
    DataMirrors ρ (Ty.rename ρ) (memberType defs ty name)
      (memberType defs' (ty.rename ρ) name) := by
  unfold memberType
  refine .bind (.update fun _ => by rfl) fun _ => ?_
  rw [Ty.fieldType?_rename h, Ty.text_rename h.outlines]
  cases ty.fieldType? defs name with
  | some fieldTy => exact .pure rfl
  | none => exact .throw _

namespace Json

theorem dataType_rename (ty : Ty) : dataType (ty.rename ρ) = (dataType ty).rename ρ := by
  unfold dataType
  rw [Ty.underlying?_rename]
  cases ty.underlying? <;> rfl

mutual

theorem toValueM_mirrors (h : Match ρ defs defs') : ∀ (json : Json) (ty : Ty),
    DataMirrors ρ (Value.rename ρ) (json.toValueM defs ty) (json.toValueM defs' (ty.rename ρ))
  | null, ty | bool _, ty | string _, ty | double _, ty => by
    rw [toValueM, toValueM]
    exact .pure rfl
  | int i, ty => by
    rw [toValueM, toValueM, dataType_rename, Ty.isFloating_rename]
    exact .pure (Value.ofLiteral_rename _).symm
  | array items, ty => by
    rw [toValueM, toValueM, dataType_rename, Ty.itemType_rename]
    exact .bind (itemsM_mirrors h items _) fun items =>
      .pure (Value.collectionOf_rename h (dataType ty) items)
  | object members, ty => by
    rw [toValueM, toValueM, dataType_rename]
    exact .bind (membersM_mirrors h members _) fun fields => .pure (by simp)

theorem itemsM_mirrors (h : Match ρ defs defs') : ∀ (items : List Json) (ty : Ty),
    DataMirrors ρ (List.map (Value.rename ρ)) (itemsM defs ty items)
      (itemsM defs' (ty.rename ρ) items)
  | [], ty => by
    rw [itemsM, itemsM]
    exact .pure rfl
  | item :: items, ty => by
    rw [itemsM, itemsM]
    exact .bind (toValueM_mirrors h item ty) fun _ => .bind (itemsM_mirrors h items ty) fun _ =>
      .pure rfl

theorem membersM_mirrors (h : Match ρ defs defs') : ∀ (members : List (String × Json)) (ty : Ty),
    DataMirrors ρ (List.map (Prod.map id (Value.rename ρ))) (membersM defs ty members)
      (membersM defs' (ty.rename ρ) members)
  | [], ty => by
    rw [membersM, membersM]
    exact .pure rfl
  | (name, member) :: members, ty => by
    rw [membersM, membersM]
    exact .bind (memberType_mirrors h ty name) fun memberTy =>
      .bind (toValueM_mirrors h member memberTy) fun _ => .bind (membersM_mirrors h members ty)
        fun _ => .pure rfl

end

theorem toValue_sameFate (h : Match ρ defs defs') (json : Json) (ty : Ty) :
    SameFate (Value.rename ρ) (json.toValue defs ty) (json.toValue defs' (ty.rename ρ)) :=
  .of_eq_map (congrArg Prod.fst (toValueM_mirrors h json ty []))

end Json

theorem Document.environment_sameFate (h : Match ρ defs defs') (document : Document) :
    SameFate (Env.rename ρ) (document.environment defs) (document.environment defs') := by
  refine .bind (document.parameterTypes_sameFate h.outlines) fun parameters => ?_
  have hdeclared (name : String) :
      ((parameters.map (Prod.map id (Ty.rename ρ))).lookup name).isSome =
        (parameters.lookup name).isSome := by
    rw [lookup_map_values, Option.isSome_map]
  simp only [hdeclared]
  split
  · exact .error _ _
  · refine .mapM fun parameter _ => ?_
    dsimp only [Prod.map_fst, Prod.map_snd, id]
    cases document.data.lookup parameter.1 with
    | none => exact .pure (Prod.ext rfl (Value.default_rename h.outlines parameter.2))
    | some json =>
      exact .bind (.within (.data parameter.1) (json.toValue_sameFate h parameter.2)) fun _ =>
        .pure rfl

end NullGuard
