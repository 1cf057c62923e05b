import NullGuard.Document.Data
import NullGuard.Proofs.Eval.Bound
import NullGuard.Proofs.Guard.Hygiene

/-! # The scopes of a document

The query of a document is built with the parameters that are in scope at each of its nodes, and
the environment binds those that the document declares. -/

namespace NullGuard

open List (Forall₂)

/-! ## Scoped expressions -/

namespace Expr

/-- A parameter is the one that is bound nearest to it. -/
def IsBoundBy (binders : Binders) : Expr → Prop
  | param ty name => binders.lookup name = some ty
  | _ => True

/-- Every parameter of the tree is the one that is bound nearest to it. -/
inductive Scoped : Binders → Expr → Prop where
  | node {binders e} (here : e.IsBoundBy binders)
      (parts : ∀ part ∈ e.boundScopes binders, Scoped part.1 part.2) : Scoped binders e

variable {binders : Binders} {e : Expr}

theorem Scoped.of_passesNames (hpasses : e.passesNames = true)
    (h : ∀ part ∈ e.children, part.Scoped binders) : e.Scoped binders := by
  refine .node ?_ ?_
  · cases e with
    | param => cases hpasses
    | _ => trivial
  · rw [boundScopes_of_not_isBinder (isBinder_of_passesNames hpasses), List.forall_mem_map]
    exact h

theorem boundScopes_eq_map (binders : Binders) (e : Expr) :
    e.boundScopes binders = (e.boundScopes []).map fun part => (part.1 ++ binders, part.2) := by
  cases e <;> simp [boundScopes]

/-- What is free in a scoped expression is bound around it. -/
theorem Scoped.isSome_lookup (h : e.Scoped binders) {name : String} (hfree : e.FreeIn name) :
    (binders.lookup name).isSome := by
  induction hfree generalizing binders with
  | @param ty =>
    cases h with
    | node here =>
      have hlookup : binders.lookup name = some ty := here
      rw [hlookup]
      rfl
  | @part e part hpart hbound _ ih =>
    cases h with
    | node _ parts =>
      rw [boundScopes_eq_map, List.forall_mem_map] at parts
      have hsome := ih (parts part hpart)
      rwa [List.lookup_append, lookup_eq_none_iff_not_mem.mpr hbound, Option.none_or] at hsome

end Expr

/-! ## Lowering -/

/-- An action that succeeds does so in both of its steps. -/
theorem DocumentM.bind_eq_ok {α β : Type} {action : DocumentM α} {next : α → DocumentM β} {b : β} :
    (action >>= next) = .ok b ↔ ∃ a, action = .ok a ∧ next a = .ok b := by
  cases action with
  | ok a => simp [bind, Except.bind]
  | error error => simp [bind, Except.bind]

theorem DocumentM.ofBuild_eq_ok {α : Type} {result : Except BuildError α} {a : α} :
    DocumentM.ofBuild result = .ok a ↔ result = .ok a := by
  cases result <;> simp [ofBuild, fail]

/-! ### Nodes that are built of parts -/

namespace Expr

variable {binders : Binders} {e : Expr}

/-- The node binds nothing and has these parts. -/
def IsMadeOf (e : Expr) (parts : List Expr) : Prop :=
  e.passesNames = true ∧ e.children = parts

theorem IsMadeOf.scoped {parts : List Expr} (h : e.IsMadeOf parts)
    (hparts : ∀ part ∈ parts, part.Scoped binders) : e.Scoped binders :=
  .of_passesNames h.1 (h.2 ▸ hparts)

variable {defs : Definitions} {ty : Ty}

theorem isMadeOf_of_member? {target : Expr} {name : String}
    (h : DocumentM.ofBuild (member? defs target name) = .ok e) : e.IsMadeOf [target] := by
  rw [DocumentM.ofBuild_eq_ok, member?] at h
  split at h
  · cases h
    exact ⟨rfl, rfl⟩
  · cases h

theorem isMadeOf_of_extensionCall? {owner name : String} {args : List Expr}
    (h : DocumentM.ofBuild (extensionCall? owner name args ty) = .ok e) : e.IsMadeOf args := by
  rw [DocumentM.ofBuild_eq_ok, extensionCall?] at h
  split at h
  · cases h
  · cases h
    exact ⟨rfl, rfl⟩

theorem isMadeOf_of_cond? {test ifTrue ifFalse : Expr}
    (h : DocumentM.ofBuild (cond? test ifTrue ifFalse) = .ok e) :
    e.IsMadeOf [test, ifTrue, ifFalse] := by
  rw [DocumentM.ofBuild_eq_ok, cond?] at h
  split at h
  · cases h
  · split at h
    · cases h
    · cases h
      exact ⟨rfl, rfl⟩

theorem isMadeOf_of_newArray? {elements : List Expr}
    (h : DocumentM.ofBuild (newArray? defs ty elements) = .ok e) : e.IsMadeOf elements := by
  rw [DocumentM.ofBuild_eq_ok, newArray?] at h
  split at h
  · cases h
  · split at h
    · cases h
    · cases h
      exact ⟨rfl, rfl⟩

theorem isMadeOf_of_index? {target position : Expr}
    (h : DocumentM.ofBuild (index? target position) = .ok e) : e.IsMadeOf [target, position] := by
  rw [DocumentM.ofBuild_eq_ok, index?] at h
  split at h
  · cases h
  · cases h
    exact ⟨rfl, rfl⟩

theorem isMadeOf_of_lowerConstant {value : Json} {declared : Option Ty}
    (h : lowerConstant value declared = .ok e) : e.IsMadeOf [] := by
  unfold lowerConstant at h
  dsimp only at h
  split at h
  · cases h
    exact ⟨rfl, rfl⟩
  · cases h

theorem isMadeOf_unaryOf (op : UnaryOp) (operand : Expr) :
    (unaryOf op operand).IsMadeOf [operand] := by
  cases op <;> exact ⟨rfl, rfl⟩

end Expr

namespace QueryNode

variable {defs : Definitions} {scope : Scope}

/-- The parameters of a lambda hide those around it. -/
theorem scoped_lambdaOf {params : List Param} {body : Expr}
    (h : body.Scoped ((params.reverse.map fun param => (param.name, param.ty)) ++ scope)) :
    (Expr.lambdaOf params body).Scoped scope := by
  refine .node trivial (List.forall_mem_singleton.mpr ?_)
  rw [← List.map_reverse]
  exact h

mutual

/-- What a node is lowered to has each of its parameters from the scope it was lowered in. -/
theorem scoped_of_lower : ∀ (node : QueryNode) {scope : Scope} {e : Expr},
    node.lower defs scope = .ok e → e.Scoped scope
  | param name, scope, e, h => by
    rw [lower] at h
    split at h
    · rename_i ty hlookup
      cases h
      exact .node hlookup nofun
    · cases h
  | const value ty, scope, e, h => by
    rw [lower] at h
    obtain ⟨declared, -, h⟩ := DocumentM.bind_eq_ok.mp h
    exact (Expr.isMadeOf_of_lowerConstant h).scoped nofun
  | null ty, scope, e, h | default ty, scope, e, h | construct ty, scope, e, h => by
    rw [lower] at h
    obtain ⟨resolved, -, h⟩ := DocumentM.bind_eq_ok.mp h
    cases h
    exact .of_passesNames rfl nofun
  | staticMember owner name ty, scope, e, h => by
    rw [lower] at h
    obtain ⟨declaring, -, h⟩ := DocumentM.bind_eq_ok.mp h
    obtain ⟨resolved, -, h⟩ := DocumentM.bind_eq_ok.mp h
    cases h
    exact .of_passesNames rfl nofun
  | member target name, scope, e, h => by
    rw [lower] at h
    obtain ⟨target', htarget, h⟩ := DocumentM.bind_eq_ok.mp h
    refine (Expr.isMadeOf_of_member? h).scoped (List.forall_mem_singleton.mpr ?_)
    exact scoped_of_lower target htarget
  | call object method args returns, scope, e, h => by
    rw [lower] at h
    obtain ⟨object', hobject, h⟩ := DocumentM.bind_eq_ok.mp h
    obtain ⟨args', hargs, h⟩ := DocumentM.bind_eq_ok.mp h
    obtain ⟨resolved, -, h⟩ := DocumentM.bind_eq_ok.mp h
    cases h
    refine .of_passesNames rfl (List.forall_mem_cons.mpr ⟨?_, ?_⟩)
    · exact scoped_of_lower object hobject
    · exact scoped_of_lowerAll args hargs
  | extension owner method args returns, scope, e, h => by
    rw [lower] at h
    obtain ⟨args', hargs, h⟩ := DocumentM.bind_eq_ok.mp h
    obtain ⟨resolved, -, h⟩ := DocumentM.bind_eq_ok.mp h
    exact (Expr.isMadeOf_of_extensionCall? h).scoped (scoped_of_lowerAll args hargs)
  | staticCall owner method args returns, scope, e, h => by
    rw [lower] at h
    obtain ⟨args', hargs, h⟩ := DocumentM.bind_eq_ok.mp h
    obtain ⟨resolved, -, h⟩ := DocumentM.bind_eq_ok.mp h
    cases h
    exact .of_passesNames rfl (scoped_of_lowerAll args hargs)
  | lambda params body, scope, e, h => by
    rw [lower] at h
    obtain ⟨params', -, h⟩ := DocumentM.bind_eq_ok.mp h
    obtain ⟨body', hbody, h⟩ := DocumentM.bind_eq_ok.mp h
    cases h
    exact scoped_lambdaOf (scoped_of_lower body hbody)
  | binary op left right, scope, e, h => by
    rw [lower] at h
    obtain ⟨op', -, h⟩ := DocumentM.bind_eq_ok.mp h
    obtain ⟨left', hleft, h⟩ := DocumentM.bind_eq_ok.mp h
    obtain ⟨right', hright, h⟩ := DocumentM.bind_eq_ok.mp h
    cases h
    refine .of_passesNames rfl (List.forall_mem_cons.mpr ⟨?_, List.forall_mem_singleton.mpr ?_⟩)
    · exact scoped_of_lower left hleft
    · exact scoped_of_lower right hright
  | unary op operand, scope, e, h => by
    rw [lower] at h
    obtain ⟨op', -, h⟩ := DocumentM.bind_eq_ok.mp h
    obtain ⟨operand', hoperand, h⟩ := DocumentM.bind_eq_ok.mp h
    cases h
    refine (Expr.isMadeOf_unaryOf op' operand').scoped (List.forall_mem_singleton.mpr ?_)
    exact scoped_of_lower operand hoperand
  | coalesce left right, scope, e, h => by
    rw [lower] at h
    obtain ⟨left', hleft, h⟩ := DocumentM.bind_eq_ok.mp h
    obtain ⟨right', hright, h⟩ := DocumentM.bind_eq_ok.mp h
    cases h
    refine .of_passesNames rfl (List.forall_mem_cons.mpr ⟨?_, List.forall_mem_singleton.mpr ?_⟩)
    · exact scoped_of_lower left hleft
    · exact scoped_of_lower right hright
  | condition test ifTrue ifFalse, scope, e, h => by
    rw [lower] at h
    obtain ⟨test', htest, h⟩ := DocumentM.bind_eq_ok.mp h
    obtain ⟨ifTrue', htrue, h⟩ := DocumentM.bind_eq_ok.mp h
    obtain ⟨ifFalse', hfalse, h⟩ := DocumentM.bind_eq_ok.mp h
    refine (Expr.isMadeOf_of_cond? h).scoped ?_
    rintro part (_ | ⟨_, _ | ⟨_, _ | ⟨_, _ | _⟩⟩⟩)
    · exact scoped_of_lower test htest
    · exact scoped_of_lower ifTrue htrue
    · exact scoped_of_lower ifFalse hfalse
  | convert operand ty, scope, e, h => by
    rw [lower] at h
    obtain ⟨operand', hoperand, h⟩ := DocumentM.bind_eq_ok.mp h
    obtain ⟨resolved, -, h⟩ := DocumentM.bind_eq_ok.mp h
    cases h
    exact .of_passesNames rfl (List.forall_mem_singleton.mpr (scoped_of_lower operand hoperand))
  | newArray ty elements, scope, e, h => by
    rw [lower] at h
    obtain ⟨elements', helements, h⟩ := DocumentM.bind_eq_ok.mp h
    obtain ⟨resolved, -, h⟩ := DocumentM.bind_eq_ok.mp h
    exact (Expr.isMadeOf_of_newArray? h).scoped (scoped_of_lowerAll elements helements)
  | index target position, scope, e, h => by
    rw [lower] at h
    obtain ⟨target', htarget, h⟩ := DocumentM.bind_eq_ok.mp h
    obtain ⟨position', hposition, h⟩ := DocumentM.bind_eq_ok.mp h
    refine (Expr.isMadeOf_of_index? h).scoped ?_
    rintro part (_ | ⟨_, _ | ⟨_, _ | _⟩⟩)
    · exact scoped_of_lower target htarget
    · exact scoped_of_lower position hposition

theorem scoped_of_lowerAll : ∀ (nodes : List QueryNode) {scope : Scope} {es : List Expr},
    lowerAll defs scope nodes = .ok es → ∀ e ∈ es, e.Scoped scope
  | [], scope, es, h => by
    cases h
    exact nofun
  | node :: nodes, scope, es, h => by
    rw [lowerAll] at h
    obtain ⟨e, he, h⟩ := DocumentM.bind_eq_ok.mp h
    obtain ⟨rest, hrest, h⟩ := DocumentM.bind_eq_ok.mp h
    cases h
    exact List.forall_mem_cons.mpr ⟨scoped_of_lower node he, scoped_of_lowerAll nodes hrest⟩

end

end QueryNode

/-! ## The environment -/

/-- Whatever the conversion gives satisfies `P`. -/
def DataM.Gives {α : Type} (P : α → Prop) (action : DataM α) : Prop :=
  ∀ lookups a, (action.run lookups).1 = .ok a → P a

namespace DataM.Gives

variable {α β : Type} {P : α → Prop} {Q : β → Prop}

theorem pure {a : α} (h : P a) : Gives P (Pure.pure a) := by
  rintro lookups _ ⟨⟩
  exact h

theorem any (action : DataM α) : Gives (fun _ => True) action :=
  fun _ _ _ => trivial

theorem bind {action : DataM α} {next : α → DataM β} (h : Gives P action)
    (hnext : ∀ a, P a → Gives Q (next a)) : Gives Q (action >>= next) := by
  intro lookups b hrun
  have hpair : runFrom (action >>= next) lookups =
      (.ok b, (runFrom (action >>= next) lookups).2) :=
    Prod.ext hrun rfl
  obtain ⟨a, middle, hfirst, hrest⟩ := runFrom_bind_eq_ok.mp hpair
  exact hnext a (h lookups a (congrArg Prod.fst hfirst)) middle b (congrArg Prod.fst hrest)

end DataM.Gives

namespace Value

theorem mem_of_mem_foldl_insertUnique {items start : List Value} {item : Value}
    (h : item ∈ items.foldl insertUnique start) : item ∈ start ∨ item ∈ items := by
  induction items generalizing start with
  | nil => exact .inl h
  | cons first items ih =>
    rcases ih h with hstart | hitems
    · unfold insertUnique at hstart
      split at hstart
      · exact .inl hstart
      · refine (List.mem_append.mp hstart).imp_right fun hfirst => ?_
        exact List.mem_singleton.mp hfirst ▸ List.mem_cons_self
    · exact .inr (List.mem_cons_of_mem _ hitems)

theorem isData_collectionOf {items : List Value} (h : ∀ item ∈ items, item.IsData) (ty : Ty) :
    (collectionOf ty items).IsData := by
  unfold collectionOf
  split
  · exact .collection h
  · split
    · refine .collection fun item hitem => ?_
      rcases mem_of_mem_foldl_insertUnique hitem with hstart | hitem
      · cases hstart
      · exact h item hitem
    · exact .collection h

end Value

namespace Json

variable {defs : Definitions}

mutual

/-- JSON data hold no closures. -/
theorem gives_isData_toValueM : ∀ (json : Json) (ty : Ty),
    DataM.Gives Value.IsData (json.toValueM defs ty)
  | null, ty | bool _, ty | string _, ty | double _, ty => by
    rw [toValueM]
    exact .pure (.scalar rfl)
  | int i, ty => by
    rw [toValueM]
    exact .pure (.scalar (Value.isScalar_ofLiteral _))
  | array items, ty => by
    rw [toValueM]
    exact (gives_isData_itemsM items _).bind fun items hitems =>
      .pure (Value.isData_collectionOf hitems _)
  | object members, ty => by
    rw [toValueM]
    exact (gives_isData_membersM members _).bind fun fields hfields => .pure (.object hfields)

theorem gives_isData_itemsM : ∀ (items : List Json) (ty : Ty),
    DataM.Gives (fun values => ∀ value ∈ values, value.IsData) (itemsM defs ty items)
  | [], ty => by
    rw [itemsM]
    exact .pure nofun
  | item :: items, ty => by
    rw [itemsM]
    exact (gives_isData_toValueM item ty).bind fun value hvalue =>
      (gives_isData_itemsM items ty).bind fun values hvalues =>
        .pure (List.forall_mem_cons.mpr ⟨hvalue, hvalues⟩)

theorem gives_isData_membersM : ∀ (members : List (String × Json)) (ty : Ty),
    DataM.Gives (fun fields => ∀ field ∈ fields, Value.IsData field.2) (membersM defs ty members)
  | [], ty => by
    rw [membersM]
    exact .pure nofun
  | (name, member) :: members, ty => by
    rw [membersM]
    exact (DataM.Gives.any (memberType defs ty name)).bind fun memberTy _ =>
      (gives_isData_toValueM member memberTy).bind fun value hvalue =>
        (gives_isData_membersM members ty).bind fun fields hfields =>
          .pure (List.forall_mem_cons.mpr ⟨hvalue, hfields⟩)

end

theorem isData_of_toValue {json : Json} {ty : Ty} {value : Value}
    (h : json.toValue defs ty = .ok value) : value.IsData :=
  gives_isData_toValueM json ty [] value h

end Json

theorem DocumentM.within_eq_ok {α : Type} {place : DocumentPlace} {action : DocumentM α} {a : α} :
    DocumentM.within place action = .ok a ↔ action = .ok a := by
  cases action <;> simp [within]

theorem DocumentM.forall₂_of_mapM {α β : Type} {items : List α} {f : α → DocumentM β}
    {results : List β} (h : items.mapM f = .ok results) :
    Forall₂ (fun item result => f item = .ok result) items results := by
  induction items generalizing results with
  | nil =>
    cases h
    exact .nil
  | cons item items ih =>
    rw [List.mapM_cons] at h
    obtain ⟨first, hfirst, h⟩ := bind_eq_ok.mp h
    obtain ⟨rest, hrest, h⟩ := bind_eq_ok.mp h
    cases h
    exact .cons hfirst (ih hrest)

namespace Document

variable {document : Document} {declared : Definitions} {e : Expr} {env : Env}

/-- The environment binds the declared parameters, each to data. -/
theorem environment_eq_ok (h : document.environment declared = .ok env) :
    ∃ parameters, document.parameterTypes declared = .ok parameters ∧
      env.map Prod.fst = parameters.map Prod.fst ∧ env.All Value.IsData := by
  obtain ⟨parameters, hparameters, h⟩ := DocumentM.bind_eq_ok.mp h
  refine ⟨parameters, hparameters, ?_⟩
  dsimp only at h
  split at h
  · obtain ⟨_, hfail, _⟩ := DocumentM.bind_eq_ok.mp h
    cases hfail
  · have hbindings : Forall₂ (fun parameter binding => binding.1 = parameter.1 ∧ binding.2.IsData)
        parameters env := by
      refine (DocumentM.forall₂_of_mapM h).imp fun parameter binding hbinding => ?_
      split at hbinding
      · obtain ⟨value, hvalue, hbinding⟩ := DocumentM.bind_eq_ok.mp hbinding
        cases hbinding
        exact ⟨rfl, Json.isData_of_toValue (DocumentM.within_eq_ok.mp hvalue)⟩
      · cases hbinding
        exact ⟨rfl, Value.everyClosure_default _ _⟩
    refine ⟨map_eq_map_of_forall₂ (hbindings.imp fun _ _ h => h.1), fun binding hbinding => ?_⟩
    obtain ⟨_, _, _, hdata⟩ := exists_mem_of_forall₂ hbindings hbinding
    exact hdata

theorem expr_scoped (h : document.expr declared = .ok e) :
    ∃ parameters, document.parameterTypes declared = .ok parameters ∧ e.Scoped parameters := by
  obtain ⟨parameters, hparameters, h⟩ := DocumentM.bind_eq_ok.mp h
  exact ⟨parameters, hparameters, QueryNode.scoped_of_lower document.query h⟩

/-- The environment of a document binds all that its query leaves free. -/
theorem covers_expr (hexpr : document.expr declared = .ok e)
    (henv : document.environment declared = .ok env) : env.Covers e := by
  obtain ⟨parameters, hparameters, hscoped⟩ := expr_scoped hexpr
  obtain ⟨parameters', hparameters', hnames, _⟩ := environment_eq_ok henv
  cases hparameters.symm.trans hparameters'
  intro name hfree
  have hsome := hscoped.isSome_lookup hfree
  rw [← Option.ne_none_iff_isSome, ne_eq, lookup_eq_none_iff_not_mem] at hsome ⊢
  rwa [hnames]

/-- Each parameter of a document's query is the one of the nearest lambda that has one of its name,
or else the document's own. Neither the query nor its guarded form meets an unbound name when it is
evaluated over the document's data, whatever the methods are. -/
theorem expr_scoped_and_bound (hexpr : document.expr declared = .ok e)
    (henv : document.environment declared = .ok env) :
    (∃ parameters, document.parameterTypes declared = .ok parameters ∧ e.Scoped parameters) ∧
    ∀ methods trace name after,
      ¬ Context.Ends ⟨declared, methods⟩ e env trace (.error (.unboundParameter name)) after ∧
      ∀ options cache guarded left, cache.Computed →
        e.insertGuards declared options cache = (.ok guarded, left) →
          ¬ Context.Ends ⟨declared, methods⟩ guarded.expr env trace
            (.error (.unboundParameter name)) after := by
  obtain ⟨_, _, _, hdata⟩ := environment_eq_ok henv
  have hcovers := covers_expr hexpr henv
  refine ⟨expr_scoped hexpr, fun methods trace name after => ⟨?_, ?_⟩⟩
  · exact Context.not_ends_of_covers hcovers hdata trace name after
  · intro options cache guarded left hcache hinsert
    refine Context.not_ends_of_covers (fun free hfree => hcovers free ?_) hdata trace name after
    exact (Expr.insertGuards_guards hcache hinsert).freeIn_iff.mp hfree

/-- `users.Select((u, u) => u.Age)`, in which the first `u` is an `int` and the second a user. -/
def userAges : Document where
  types := [⟨"User", .classType, [], [⟨"Age", "int"⟩], true⟩]
  parameters := [("users", "User[]")]
  query := .call (.param "users") "Select"
    [.lambda [⟨"u", "int"⟩, ⟨"u", "User"⟩] (.member (.param "u") "Age")] "int[]"
  data := [("users", .array [.object [("Age", .int 7)]])]

-- Type names are read by tables of letters.
set_option maxRecDepth 20000 in
theorem userAges_scoped_and_bound :
    ∃ declared e env guarded left, userAges.declareTypes .empty = .ok declared ∧
      userAges.expr declared = .ok e ∧ userAges.environment declared = .ok env ∧
      e.insertGuards declared {} .empty = (.ok guarded, left) ∧ guarded.stats.guards = 2 ∧
      (∃ parameters, userAges.parameterTypes declared = .ok parameters ∧ e.Scoped parameters) ∧
      ∀ trace name after, ¬ Context.Ends ⟨declared, .builtin⟩ guarded.expr env trace
        (.error (.unboundParameter name)) after := by
  have hdocument : ∃ declared e env guarded left, userAges.declareTypes .empty = .ok declared ∧
      userAges.expr declared = .ok e ∧ userAges.environment declared = .ok env ∧
      e.insertGuards declared {} .empty = (.ok guarded, left) ∧ guarded.stats.guards = 2 :=
    ⟨_, _, _, _, _, by cbv, by cbv, by cbv, by cbv, by cbv⟩
  obtain ⟨declared, e, env, guarded, left, htypes, hexpr, henv, hinsert, hguards⟩ := hdocument
  obtain ⟨hscoped, hbound⟩ := expr_scoped_and_bound hexpr henv
  refine ⟨declared, e, env, guarded, left, htypes, hexpr, henv, hinsert, hguards, hscoped, ?_⟩
  exact fun trace name after => (hbound .builtin trace name after).2 _ _ _ _
    FallbackCache.empty_computed hinsert

end Document

end NullGuard
