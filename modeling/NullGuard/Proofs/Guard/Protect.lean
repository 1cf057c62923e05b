import NullGuard.Guard.Insert
import NullGuard.Proofs.Guard.Insertion

/-! # The guard around one node

What a guard is made of depends on the answers for fallbacks and on the option for short circuits
only, and neither is changed by making it. -/

namespace NullGuard

/-- The outcome of drawing on supplies, and what is left of them. -/
def Supplies.after {α : Type} (action : StateM Supplies α) (supplies : Supplies) : α × Supplies :=
  action.run supplies

/-- Supplies and options that follow the rules. -/
structure Supplies.Follow (rules : GuardRules) (options : GuardOptions) (supplies : Supplies) :
    Prop where
  computed : supplies.cache.Computed
  answer_eq : supplies.cache.answer rules.defs = rules.fallback
  emptyCollections_eq : options.emptyCollections = rules.emptyCollections

/-! ## What a guard draws on -/

section Draw

variable {defs : Definitions} {emptyCollections : Bool} {receiver : Expr} {ty : Ty}
  {rebuild : Expr → Expr} {supplies : Supplies}

theorem Supplies.after_bind {α β : Type} (action : StateM Supplies α)
    (next : α → StateM Supplies β) (supplies : Supplies) :
    after (action >>= next) supplies =
      after (next (after action supplies).1) (after action supplies).2 :=
  rfl

theorem Supplies.after_fallback? (defs : Definitions) (ty : Ty) (supplies : Supplies) :
    after (fallback? defs ty) supplies =
      ((supplies.cache.fallback? defs ty).1,
        { supplies with cache := (supplies.cache.fallback? defs ty).2 }) :=
  rfl

theorem after_shortCircuit_eq :
    Supplies.after (shortCircuit defs emptyCollections ty) supplies =
      if emptyCollections then
        ((supplies.cache.fallback? defs ty).1.getD (missingValue defs ty),
          { supplies with cache := (supplies.cache.fallback? defs ty).2 })
      else (missingValue defs ty, supplies) := by
  cases emptyCollections with
  | false => rfl
  | true =>
    rw [if_pos rfl, shortCircuit, if_pos rfl, Supplies.after_bind, Supplies.after_fallback?]
    rcases supplies.cache.fallback? defs ty with ⟨_ | recipe, cache⟩ <;> rfl

theorem after_protect_of_answer {recipe : Expr}
    (h : (supplies.cache.fallback? defs receiver.ty).1 = some recipe) :
    Supplies.after (protect defs emptyCollections receiver ty rebuild) supplies =
      ((rebuild (.coalesceOf receiver recipe), .coalesce),
        { supplies with cache := (supplies.cache.fallback? defs receiver.ty).2 }) := by
  rw [protect, Supplies.after_bind, Supplies.after_fallback?, h]
  rfl

/-- Without a fallback the short circuit is made first, and a name is drawn only for a receiver
that has to be held. -/
theorem after_protect_of_no_answer
    (h : (supplies.cache.fallback? defs receiver.ty).1 = none) :
    Supplies.after (protect defs emptyCollections receiver ty rebuild) supplies =
      let short := Supplies.after (shortCircuit defs emptyCollections ty)
        { supplies with cache := (supplies.cache.fallback? defs receiver.ty).2 }
      match receiver with
      | .param _ _ => ((nullCheck receiver short.1 (rebuild receiver) ty, .conditional), short.2)
      | _ =>
        let held := Expr.param receiver.ty short.2.names.fresh.1
        ((.bindTo short.2.names.fresh.1 receiver (nullCheck held short.1 (rebuild held) ty),
          .conditional), { short.2 with names := short.2.names.fresh.2 }) := by
  rw [protect, Supplies.after_bind, Supplies.after_fallback?, h]
  cases receiver <;> rfl

end Draw

/-! ## Guards by the rules -/

section Protect

variable {rules : GuardRules} {options : GuardOptions} {supplies : Supplies}
  (h : supplies.Follow rules options)

include h

/-- Asking for a fallback leaves all answers as they are. -/
theorem Supplies.Follow.ask (ty : Ty) :
    ({ supplies with cache := (supplies.cache.fallback? rules.defs ty).2 } : Supplies).Follow
      rules options :=
  ⟨h.computed.fallback? _ _, (FallbackCache.answer_fallback? _ _ _).trans h.answer_eq,
    h.emptyCollections_eq⟩

theorem Supplies.Follow.answer (ty : Ty) :
    (supplies.cache.fallback? rules.defs ty).1 = rules.fallback ty :=
  congrFun h.answer_eq ty

theorem after_shortCircuit (ty : Ty) :
    ∃ left : Supplies, left.Follow rules options ∧ left.names = supplies.names ∧
      Supplies.after (shortCircuit rules.defs options.emptyCollections ty) supplies =
        (rules.shortCircuit ty, left) := by
  rw [after_shortCircuit_eq, h.emptyCollections_eq, GuardRules.shortCircuit, h.answer]
  cases rules.emptyCollections with
  | false => exact ⟨supplies, h, rfl, rfl⟩
  | true => exact ⟨_, h.ask ty, rfl, rfl⟩

variable (receiver : Expr) (ty : Ty) (rebuild : Expr → Expr)

theorem after_protect_of_some {recipe : Expr}
    (hfallback : rules.fallback receiver.ty = some recipe) :
    ∃ left : Supplies, left.Follow rules options ∧ left.names = supplies.names ∧
      Supplies.after (protect rules.defs options.emptyCollections receiver ty rebuild) supplies =
        ((rebuild (.coalesceOf receiver recipe), .coalesce), left) :=
  ⟨_, h.ask receiver.ty, rfl, after_protect_of_answer ((h.answer _).trans hfallback)⟩

theorem after_protect_of_param {name : String} (hfallback : rules.fallback ty = none)
    (resultTy : Ty) :
    ∃ left : Supplies, left.Follow rules options ∧ left.names = supplies.names ∧
      Supplies.after
          (protect rules.defs options.emptyCollections (.param ty name) resultTy rebuild) supplies =
        ((nullCheck (.param ty name) (rules.shortCircuit resultTy) (rebuild (.param ty name))
          resultTy, .conditional), left) := by
  obtain ⟨left, hleft, hnames, hshort⟩ :=
    after_shortCircuit (h.ask (Expr.param ty name).ty) resultTy
  have hanswer : (supplies.cache.fallback? rules.defs (Expr.param ty name).ty).1 = none :=
    (h.answer ty).trans hfallback
  refine ⟨left, hleft, hnames, ?_⟩
  rw [after_protect_of_no_answer hanswer, hshort]

theorem after_protect_of_not_param (hfallback : rules.fallback receiver.ty = none)
    (hparam : ∀ ty other, receiver ≠ .param ty other) :
    ∃ left : Supplies, left.Follow rules options ∧ left.names = supplies.names.fresh.2 ∧
      Supplies.after (protect rules.defs options.emptyCollections receiver ty rebuild) supplies =
        ((.bindTo supplies.names.fresh.1 receiver
          (nullCheck (.param receiver.ty supplies.names.fresh.1) (rules.shortCircuit ty)
            (rebuild (.param receiver.ty supplies.names.fresh.1)) ty), .conditional), left) := by
  obtain ⟨left, hleft, hnames, hshort⟩ := after_shortCircuit (h.ask receiver.ty) ty
  refine ⟨{ left with names := left.names.fresh.2 }, ⟨hleft.1, hleft.2, hleft.3⟩,
    by rw [hnames], ?_⟩
  rw [after_protect_of_no_answer ((h.answer _).trans hfallback), hshort]
  cases receiver with
  | param ty other => exact absurd rfl (hparam ty other)
  | _ => simp only [hnames]

end Protect

/-- What a guard is made of depends on the names that are taken, not on what the cache holds. -/
theorem exists_after_protect (rules : GuardRules) (options : GuardOptions) (names : FreshNames)
    (receiver : Expr) (ty : Ty) (rebuild : Expr → Expr) :
    ∃ made names', ∀ supplies : Supplies, supplies.Follow rules options → supplies.names = names →
      ∃ left : Supplies, left.Follow rules options ∧ left.names = names' ∧
        Supplies.after (protect rules.defs options.emptyCollections receiver ty rebuild) supplies =
          (made, left) := by
  cases hfallback : rules.fallback receiver.ty with
  | some recipe =>
    refine ⟨(rebuild (.coalesceOf receiver recipe), .coalesce), names, fun supplies h hnames => ?_⟩
    obtain ⟨left, hleft, hdrawn, hprotect⟩ := after_protect_of_some h receiver ty rebuild hfallback
    exact ⟨left, hleft, hdrawn.trans hnames, hprotect⟩
  | none =>
    by_cases hparam : ∃ ty name, receiver = .param ty name
    · obtain ⟨paramTy, name, rfl⟩ := hparam
      refine ⟨(nullCheck (.param paramTy name) (rules.shortCircuit ty)
        (rebuild (.param paramTy name)) ty, .conditional), names, fun supplies h hnames => ?_⟩
      obtain ⟨left, hleft, hdrawn, hprotect⟩ :=
        after_protect_of_param h paramTy rebuild hfallback ty
      exact ⟨left, hleft, hdrawn.trans hnames, hprotect⟩
    · refine ⟨(.bindTo names.fresh.1 receiver
        (nullCheck (.param receiver.ty names.fresh.1) (rules.shortCircuit ty)
          (rebuild (.param receiver.ty names.fresh.1)) ty), .conditional), names.fresh.2,
        fun supplies h hnames => ?_⟩
      obtain ⟨left, hleft, hdrawn, hprotect⟩ := after_protect_of_not_param h receiver ty rebuild
        hfallback fun ty name heq => hparam ⟨ty, name, heq⟩
      rw [hnames] at hdrawn hprotect
      exact ⟨left, hleft, hdrawn, hprotect⟩

end NullGuard
