import NullGuard.Proofs.Guard.Insert
import NullGuard.Proofs.Renaming.Expr

/-! # The insertion of guards under other numbers -/

namespace NullGuard

open Definitions

variable {ρ : Equiv.Perm DefId} {defs defs' : Definitions}

/-! ## Fallbacks -/

section Fallback

variable (h : Match ρ defs defs')

include h

theorem emptyCollection?_rename {definition : DefId} (hdefinition : ρ definition = definition)
    (element ty : Ty) :
    emptyCollection? defs' definition (element.rename ρ) (ty.rename ρ) =
      (emptyCollection? defs definition element ty).map (Expr.rename ρ) := by
  have hcollection :
      Ty.named definition [element.rename ρ] = (Ty.named definition [element]).rename ρ := by
    simp [hdefinition]
  unfold emptyCollection?
  simp only [hcollection, Ty.isConstructible_rename h.outlines, Ty.isAssignable_rename h]
  split <;> simp

theorem fallback?_rename (ty : Ty) :
    fallback? defs' (ty.rename ρ) = (fallback? defs ty).map (Expr.rename ρ) := by
  unfold fallback?
  rw [Ty.singleArg?_rename, Ty.element?_rename]
  cases ty.singleArg? with
  | some element =>
    have hlist : ρ Collection.list = Collection.list := h.collection (by decide)
    have hset : ρ Collection.hashSet = Collection.hashSet := h.collection (by decide)
    simp only [Option.map_some, emptyCollection?_rename h hlist, emptyCollection?_rename h hset]
    cases emptyCollection? defs Collection.list element ty <;> simp
  | none => cases ty.element? <;> simp

end Fallback

theorem lookup_map_of_injective {α β γ δ : Type} [BEq α] [LawfulBEq α] [BEq β] [LawfulBEq β]
    {f : α → β} (hf : Function.Injective f) (g : γ → δ) (entries : List (α × γ)) (key : α) :
    (entries.map (Prod.map f g)).lookup (f key) = (entries.lookup key).map g := by
  induction entries with
  | nil => rfl
  | cons entry entries ih =>
    obtain ⟨other, value⟩ := entry
    by_cases hkey : key = other
    · simp [hkey]
    · simp [List.lookup, ih, beq_false_of_ne hkey, beq_false_of_ne (hf.ne hkey)]

theorem lookup_map_values {γ δ : Type} (g : γ → δ) (name : String) (entries : List (String × γ)) :
    (entries.map (Prod.map id g)).lookup name = (entries.lookup name).map g :=
  lookup_map_of_injective Function.injective_id g entries name

namespace FallbackCache

def rename (ρ : DefId → DefId) (cache : FallbackCache) : FallbackCache :=
  { cache with entries := cache.entries.map (Prod.map (Ty.rename ρ) (Option.map (Expr.rename ρ))) }

theorem size_rename (cache : FallbackCache) : (cache.rename ρ).size = cache.size :=
  List.length_map _

theorem fallback?_rename (h : Match ρ defs defs') (cache : FallbackCache) (ty : Ty) :
    (cache.rename ρ).fallback? defs' (ty.rename ρ) =
      ((cache.fallback? defs ty).1.map (Expr.rename ρ), (cache.fallback? defs ty).2.rename ρ) := by
  have hget : (cache.rename ρ).get? (ty.rename ρ) =
      (cache.get? ty).map (Option.map (Expr.rename ρ)) :=
    lookup_map_of_injective (Ty.rename_injective ρ) _ cache.entries ty
  unfold fallback?
  rw [hget]
  cases cache.get? ty with
  | some known => rfl
  | none => simp [rename, NullGuard.fallback?_rename h]

end FallbackCache

/-! ## Guards -/

def Supplies.rename (ρ : DefId → DefId) (supplies : Supplies) : Supplies :=
  { supplies with cache := supplies.cache.rename ρ }

theorem Supplies.fresh_mirrors : Mirrors (Supplies.rename ρ) id fresh fresh :=
  fun _ => rfl

section Protect

variable (h : Match ρ defs defs')

include h

theorem Supplies.fallback?_mirrors (ty : Ty) :
    Mirrors (Supplies.rename ρ) (Option.map (Expr.rename ρ)) (Supplies.fallback? defs ty)
      (Supplies.fallback? defs' (ty.rename ρ)) := by
  intro supplies
  have hfallback := supplies.cache.fallback?_rename h ty
  change (((supplies.cache.rename ρ).fallback? defs' (ty.rename ρ)).1,
    Supplies.mk ((supplies.cache.rename ρ).fallback? defs' (ty.rename ρ)).2 supplies.names) = _
  rw [hfallback]
  rfl

theorem missingValue_rename (ty : Ty) :
    missingValue defs' (ty.rename ρ) = (missingValue defs ty).rename ρ := by
  unfold missingValue
  rw [Ty.canBeNull_rename h.outlines]
  split <;> simp

theorem shortCircuit_mirrors (emptyCollections : Bool) (ty : Ty) :
    Mirrors (Supplies.rename ρ) (Expr.rename ρ) (shortCircuit defs emptyCollections ty)
      (shortCircuit defs' emptyCollections (ty.rename ρ)) := by
  unfold shortCircuit
  cases emptyCollections with
  | false => exact .pure (missingValue_rename h ty)
  | true =>
    refine .bind (Supplies.fallback?_mirrors h ty) fun found => ?_
    cases found with
    | some empty => exact .pure rfl
    | none => exact .pure (missingValue_rename h ty)

omit h in
theorem nullCheck_rename (receiver whenNull node : Expr) (ty : Ty) :
    (nullCheck receiver whenNull node ty).rename ρ =
      nullCheck (receiver.rename ρ) (whenNull.rename ρ) (node.rename ρ) (ty.rename ρ) := by
  simp [nullCheck]

omit h in
theorem Expr.bindTo_rename (name : String) (value body : Expr) :
    (Expr.bindTo name value body).rename ρ = .bindTo name (value.rename ρ) (body.rename ρ) := by
  simp [Expr.bindTo, Param.rename]

theorem protect_mirrors (emptyCollections : Bool) (receiver : Expr) (ty : Ty)
    {rebuild rebuild' : Expr → Expr}
    (hrebuild : ∀ e, rebuild' (e.rename ρ) = (rebuild e).rename ρ) :
    Mirrors (Supplies.rename ρ) (Prod.map (Expr.rename ρ) id)
      (protect defs emptyCollections receiver ty rebuild)
      (protect defs' emptyCollections (receiver.rename ρ) (ty.rename ρ) rebuild') := by
  unfold protect
  rw [Expr.ty_rename]
  refine .bind (Supplies.fallback?_mirrors h receiver.ty) fun found => ?_
  cases found with
  | some fallback =>
    refine .pure (Prod.ext ?_ rfl)
    exact (congrArg rebuild' (receiver.coalesceOf_rename fallback).symm).trans (hrebuild _)
  | none =>
    refine .bind (shortCircuit_mirrors h emptyCollections ty) fun whenNull => ?_
    have htested (held : Expr) :
        nullCheck (held.rename ρ) (whenNull.rename ρ) (rebuild' (held.rename ρ)) (ty.rename ρ) =
          (nullCheck held whenNull (rebuild held) ty).rename ρ := by
      rw [hrebuild, nullCheck_rename]
    have hheld (name : String) :
        Expr.bindTo name (receiver.rename ρ) (nullCheck (.param (receiver.ty.rename ρ) name)
          (whenNull.rename ρ) (rebuild' (.param (receiver.ty.rename ρ) name)) (ty.rename ρ)) =
        (Expr.bindTo name receiver (nullCheck (.param receiver.ty name) whenNull
          (rebuild (.param receiver.ty name)) ty)).rename ρ := by
      rw [Expr.bindTo_rename, ← htested, Expr.rename]
    cases receiver with
    | param receiverTy name => exact .pure (Prod.ext (htested (.param receiverTy name)) rfl)
    | _ => exact .bind Supplies.fresh_mirrors fun name => .pure (Prod.ext (hheld name) rfl)

end Protect

/-! ## The walk -/

namespace Walk

def rename (ρ : DefId → DefId) (walk : Walk) : Walk :=
  { walk with supplies := walk.supplies.rename ρ }

variable {α β : Type} {f : α → β} {action : GuardM α} {mirror : GuardM β}

theorem mirrors_iff : MirrorsExcept (rename ρ) f action mirror ↔
    ∀ walk : Walk, mirror.runAt (walk.rename ρ) =
      ((action.runAt walk).1.map f, (action.runAt walk).2.rename ρ) :=
  Iff.rfl

theorem enter_mirrors (maxDepth : Nat) (h : MirrorsExcept (rename ρ) f action mirror) :
    MirrorsExcept (rename ρ) f (enter maxDepth action) (enter maxDepth mirror) := by
  rw [mirrors_iff] at h ⊢
  intro walk
  by_cases hdepth : walk.depth < maxDepth
  · rw [runAt_enter_of_lt action hdepth, runAt_enter_of_lt mirror (by exact hdepth)]
    have hinner := h walk.deeper
    change mirror.runAt (walk.rename ρ).deeper = _ at hinner
    rw [hinner]
    rfl
  · rw [Nat.not_lt] at hdepth
    rw [runAt_enter_of_le action hdepth, runAt_enter_of_le mirror (by exact hdepth)]
    rfl

theorem knowing_mirrors (change : List String → List String)
    (h : MirrorsExcept (rename ρ) f action mirror) :
    MirrorsExcept (rename ρ) f (knowing change action) (knowing change mirror) := by
  rw [mirrors_iff] at h ⊢
  intro walk
  have hinner := h { walk with nonNull := change walk.nonNull }
  change mirror.runAt { walk.rename ρ with nonNull := change (walk.rename ρ).nonNull } = _ at hinner
  rw [runAt_knowing, runAt_knowing, hinner]
  rfl

theorem inBranch_mirrors (test : Expr) (outcome : Bool)
    (h : MirrorsExcept (rename ρ) f action mirror) :
    MirrorsExcept (rename ρ) f (inBranch test outcome action)
      (inBranch (test.rename ρ) outcome mirror) := by
  unfold inBranch Expr.learned
  rw [Expr.nullTest?_rename]
  exact knowing_mirrors _ h

theorem checkReceiver_mirrors (e : Expr) :
    MirrorsExcept (rename ρ) id (checkReceiver e) (checkReceiver (e.rename ρ)) := by
  cases e with
  | freeCall ty method args =>
    simp only [Expr.rename, Expr.renameAll_eq_map, checkReceiver, List.isEmpty_map]
    split
    · exact .throw _
    · exact .pure rfl
  | _ => exact .pure rfl

section Match

variable (h : Match ρ defs defs') (options : GuardOptions)

include h

theorem attach_mirrors (receiver : Expr) (ty : Ty) {rebuild rebuild' : Expr → Expr}
    (hrebuild : ∀ e, rebuild' (e.rename ρ) = (rebuild e).rename ρ) :
    MirrorsExcept (rename ρ) (Expr.rename ρ) (attach defs options receiver ty rebuild)
      (attach defs' options (receiver.rename ρ) (ty.rename ρ) rebuild') := by
  rw [mirrors_iff]
  intro walk
  have hknown : (walk.rename ρ).isKnown (receiver.rename ρ) = walk.isKnown receiver := by
    cases receiver <;> simp [isKnown, rename]
  have hguarded : Supplies.after
      (protect defs' options.emptyCollections (receiver.rename ρ) (ty.rename ρ) rebuild')
      (walk.rename ρ).supplies = _ :=
    protect_mirrors h options.emptyCollections receiver ty hrebuild walk.supplies
  rw [runAt_attach, runAt_attach, Expr.isSafe_rename h.outlines, hknown, hguarded]
  split
  · rw [hrebuild]
    rfl
  · rfl

theorem sealNode_mirrors (node : Expr) :
    MirrorsExcept (rename ρ) (Expr.rename ρ) (sealNode defs options node)
      (sealNode defs' options (node.rename ρ)) := by
  unfold sealNode
  rw [Expr.receiver?_rename, Expr.ty_rename]
  cases node.receiver? with
  | none => exact .pure rfl
  | some receiver =>
    exact attach_mirrors h options receiver node.ty fun e => (node.withReceiver_rename e).symm

omit h in
theorem visitParts_mirrors {e : Expr}
    (hparts : ∀ part ∈ e.children, MirrorsExcept (rename ρ) (Expr.rename ρ)
      (part.visit defs options) ((part.rename ρ).visit defs' options)) :
    MirrorsExcept (rename ρ) (List.map (Expr.rename ρ)) (visitParts defs options e)
      (visitParts defs' options (e.rename ρ)) := by
  cases e with
  | cond ty test ifTrue ifFalse =>
    simp only [Expr.children, List.forall_mem_cons] at hparts
    exact .bind hparts.1 fun test' => .bind (inBranch_mirrors test' true hparts.2.1) fun _ =>
      .bind (inBranch_mirrors test' false hparts.2.2.1) fun _ => .pure rfl
  | lambda ty params body =>
    simp only [Expr.children, List.forall_mem_cons] at hparts
    have hnames : (params.map (Param.rename ρ)).map Param.name = params.map Param.name := by
      rw [List.map_map]
      rfl
    rw [Expr.rename, visitParts, visitParts, hnames]
    exact .bind (knowing_mirrors _ hparts.1) fun _ => .pure rfl
  | bind ty var value body =>
    simp only [Expr.children, List.forall_mem_cons] at hparts
    exact .bind hparts.1 fun _ => .bind (knowing_mirrors _ hparts.2.1) fun _ => .pure rfl
  | _ =>
    have hvisited := MirrorsExcept.mapM hparts
    rw [← Expr.children_rename] at hvisited
    exact hvisited

end Match

end Walk

section Insert

variable (h : Match ρ defs defs') (options : GuardOptions)

include h

theorem Expr.visit_mirrors (e : Expr) :
    MirrorsExcept (Walk.rename ρ) (Expr.rename ρ) (e.visit defs options)
      ((e.rename ρ).visit defs' options) := by
  induction e using Expr.induction_children with
  | step e ih =>
    rw [visit_eq, visit_eq]
    refine Walk.enter_mirrors _ (.bind (Walk.checkReceiver_mirrors e) fun _ =>
      .bind (Walk.visitParts_mirrors options ih) fun parts => ?_)
    rw [← withChildren_rename]
    exact Walk.sealNode_mirrors h options _

def Guarded.rename (ρ : DefId → DefId) (guarded : Guarded) : Guarded :=
  { guarded with expr := guarded.expr.rename ρ }

theorem Expr.insertGuards_rename (cache : FallbackCache) (e : Expr) :
    (e.rename ρ).insertGuards defs' options (cache.rename ρ) =
      ((e.insertGuards defs options cache).1.map (Guarded.rename ρ),
        (e.insertGuards defs options cache).2.rename ρ) := by
  have hstart : (Walk.start cache e).rename ρ = .start (cache.rename ρ) (e.rename ρ) := by
    simp [Walk.start, Walk.rename, Supplies.rename, FreshNames.reserving]
  have hvisit := Walk.mirrors_iff.mp (e.visit_mirrors h options) (.start cache e)
  rw [hstart] at hvisit
  rw [insertGuards_eq, insertGuards_eq, hvisit]
  cases ((e.visit defs options).runAt (.start cache e)).1 <;> rfl

end Insert

end NullGuard
