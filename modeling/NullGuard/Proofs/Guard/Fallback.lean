import Mathlib
import NullGuard.Guard.Protect

/-! # Fallbacks and the cache that remembers them

A fallback is always an empty instance made without evaluating anything else. A cache answers for
each type what it answered for it before, whatever it is asked in between. -/

namespace NullGuard

/-! ## The shape of fallbacks -/

/-- The recipes for an empty instance that can stand for `ty`. -/
inductive EmptyInstance (ty : Ty) : Expr → Prop where
  | array {element} (h : ty.element? = some element) : EmptyInstance ty (.newArray ty [])
  | collection {definition element} (h : ty.singleArg? = some element)
      (hd : definition = Collection.list ∨ definition = Collection.hashSet) :
      EmptyInstance ty (.convert ty (.construct (.named definition [element]) []))

theorem emptyCollection?_eq_some {defs : Definitions} {definition : DefId} {element ty : Ty}
    {recipe : Expr} (h : emptyCollection? defs definition element ty = some recipe) :
    recipe = .convert ty (.construct (.named definition [element]) []) := by
  dsimp only [emptyCollection?] at h
  split at h
  · exact (Option.some.inj h).symm
  · cases h

theorem emptyInstance_of_fallback? {defs : Definitions} {ty : Ty} {recipe : Expr}
    (h : fallback? defs ty = some recipe) : EmptyInstance ty recipe := by
  unfold fallback? at h
  split at h
  · rename_i element _ hsingle
    rcases (Option.orElse_eq_some _ _ _).mp h with h | ⟨_, h⟩
    · rw [emptyCollection?_eq_some h]
      exact .collection hsingle (.inl rfl)
    · rw [emptyCollection?_eq_some h]
      exact .collection hsingle (.inr rfl)
  · rename_i element _ helement
    rw [← Option.some.inj h]
    exact .array helement
  · cases h

/-- Only arrays and defined types with one argument have an empty instance. -/
theorem EmptyInstance.ty_eq {ty : Ty} {recipe : Expr} (h : EmptyInstance ty recipe) :
    (∃ element, ty = .array element) ∨ ∃ definition element, ty = .named definition [element] := by
  cases h with
  | @array element h =>
    cases ty with
    | array => exact .inl ⟨_, rfl⟩
    | _ => cases h
  | @collection _ element h _ =>
    cases ty with
    | named definition args =>
      match args, h with
      | [_], _ => exact .inr ⟨_, _, rfl⟩
    | _ => cases h

theorem EmptyInstance.underlying?_eq_none {ty : Ty} {recipe : Expr}
    (h : EmptyInstance ty recipe) : ty.underlying? = none := by
  obtain ⟨_, rfl⟩ | ⟨_, _, rfl⟩ := h.ty_eq <;> rfl

theorem EmptyInstance.ty_ne_intrinsic {ty : Ty} {recipe : Expr} (h : EmptyInstance ty recipe)
    (kind : Intrinsic) : ty ≠ .intrinsic kind := by
  obtain ⟨_, rfl⟩ | ⟨_, _, rfl⟩ := h.ty_eq <;> exact nofun

theorem EmptyInstance.ty_recipe {ty : Ty} {recipe : Expr} (h : EmptyInstance ty recipe) :
    recipe.ty = ty := by
  cases h <;> rfl

theorem EmptyInstance.names_eq_nil {ty : Ty} {recipe : Expr} (h : EmptyInstance ty recipe) :
    recipe.names = [] := by
  cases h <;> simp [Expr.names, Expr.fold_eq, Expr.children, Expr.ownNames]

theorem EmptyInstance.isSafe {defs : Definitions} {ty : Ty} {recipe : Expr}
    (h : EmptyInstance ty recipe) : recipe.isSafe defs = true := by
  cases h <;> simp [Expr.isSafe]

/-! ## The answers of a cache -/

namespace FallbackCache

/-- Every entry was worked out for its type, perhaps before definitions were changed. -/
def Computed (cache : FallbackCache) : Prop :=
  ∀ ty found, cache.get? ty = some found → ∃ defs, found = NullGuard.fallback? defs ty

/-- Every entry is what would be worked out now. -/
def Agrees (cache : FallbackCache) (defs : Definitions) : Prop :=
  ∀ ty found, cache.get? ty = some found → found = NullGuard.fallback? defs ty

theorem empty_agrees (defs : Definitions) : empty.Agrees defs := by
  intro ty found h
  cases h

theorem Agrees.computed {cache : FallbackCache} {defs : Definitions} (h : cache.Agrees defs) :
    cache.Computed :=
  fun ty found hfound => ⟨defs, h ty found hfound⟩

theorem empty_computed : empty.Computed :=
  (empty_agrees .empty).computed

theorem fallback?_of_some {cache : FallbackCache} {asked : Ty} {known : Option Expr}
    (h : cache.get? asked = some known) (defs : Definitions) :
    cache.fallback? defs asked = (known, { cache with hits := cache.hits + 1 }) := by
  simp [fallback?, h]

/-- An answer that was not remembered is remembered from then on. -/
theorem get?_fallback?_of_none {cache : FallbackCache} {asked : Ty} (h : cache.get? asked = none)
    (defs : Definitions) (ty : Ty) :
    (cache.fallback? defs asked).2.get? ty =
      if ty = asked then some (NullGuard.fallback? defs asked) else cache.get? ty := by
  have hentries : (cache.fallback? defs asked).2.entries =
      (asked, NullGuard.fallback? defs asked) :: cache.entries := by
    simp [fallback?, h]
  rw [get?, hentries, List.lookup_cons]
  by_cases hty : ty = asked
  · simp [hty]
  · rw [if_neg hty, beq_false_of_ne hty]
    rfl

theorem Computed.fallback? {cache : FallbackCache} (h : cache.Computed) (defs : Definitions)
    (asked : Ty) : (cache.fallback? defs asked).2.Computed := by
  cases hasked : cache.get? asked with
  | some known =>
    rw [fallback?_of_some hasked]
    exact h
  | none =>
    intro ty found hfound
    rw [get?_fallback?_of_none hasked] at hfound
    split at hfound
    · rename_i hty
      exact ⟨defs, hty ▸ (Option.some.inj hfound).symm⟩
    · exact h ty found hfound

/-- What the cache gives for a type, now and after any other question. -/
def answer (cache : FallbackCache) (defs : Definitions) (ty : Ty) : Option Expr :=
  (cache.fallback? defs ty).1

theorem answer_eq (cache : FallbackCache) (defs : Definitions) (ty : Ty) :
    cache.answer defs ty = (cache.get? ty).getD (NullGuard.fallback? defs ty) := by
  unfold answer fallback?
  split <;> simp [*]

theorem answer_fallback? (cache : FallbackCache) (defs : Definitions) (asked : Ty) :
    (cache.fallback? defs asked).2.answer defs = cache.answer defs := by
  funext ty
  rw [answer_eq, answer_eq]
  cases hasked : cache.get? asked with
  | some known =>
    rw [fallback?_of_some hasked]
    rfl
  | none =>
    rw [get?_fallback?_of_none hasked]
    by_cases hty : ty = asked
    · simp [hty, hasked]
    · rw [if_neg hty]

theorem Computed.emptyInstance {cache : FallbackCache} (h : cache.Computed) {defs : Definitions}
    {ty : Ty} {recipe : Expr} (hanswer : cache.answer defs ty = some recipe) :
    EmptyInstance ty recipe := by
  rw [answer_eq] at hanswer
  cases hget : cache.get? ty with
  | some found =>
    obtain ⟨earlier, rfl⟩ := h ty found hget
    rw [hget] at hanswer
    exact emptyInstance_of_fallback? hanswer
  | none =>
    rw [hget] at hanswer
    exact emptyInstance_of_fallback? hanswer

theorem Agrees.answer_eq {cache : FallbackCache} {defs : Definitions} (h : cache.Agrees defs) :
    cache.answer defs = NullGuard.fallback? defs := by
  funext ty
  rw [FallbackCache.answer_eq]
  cases hget : cache.get? ty with
  | some found => exact h ty found hget
  | none => rfl

theorem agrees_iff {cache : FallbackCache} {defs : Definitions} :
    cache.Agrees defs ↔ cache.answer defs = NullGuard.fallback? defs := by
  refine ⟨Agrees.answer_eq, fun h ty found hfound => ?_⟩
  rw [← h, FallbackCache.answer_eq, hfound]
  rfl

end FallbackCache

end NullGuard
