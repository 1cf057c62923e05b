import NullGuard.Proofs.Eval.Fuel
import NullGuard.Proofs.Guard.Idempotence
import NullGuard.Proofs.Guard.Meaning
import NullGuard.Proofs.Ty.Lookup

/-! # What stands for a missing collection

Which types have a fallback, and what it evaluates to, is decided by assignability alone: whatever
is defined besides them, lists and sets can be made. -/

namespace NullGuard

/-! ## Definitions that come after the collections -/

namespace Definitions

/-- The definitions of the collections, those that were added to them, and whatever fields and bases
were given to any of them. -/
inductive Built : Definitions → Prop where
  | collections : Built Collection.definitions
  | register {defs : Definitions} (h : Built defs) (definition : Definition) :
      Built (defs.register definition).2
  | setFields {defs : Definitions} (h : Built defs) (id : DefId) (fields : List Field) :
      Built (defs.setFields id fields)
  | addFields {defs : Definitions} (h : Built defs) (id : DefId) (fields : List Field) :
      Built (defs.addFields id fields)
  | setBases {defs : Definitions} (h : Built defs) (id : DefId) (bases : List Ty) :
      Built (defs.setBases id bases)

/-- The number is that of a class which has one parameter and can be made without arguments. -/
def HasGenericClass (defs : Definitions) (id : DefId) : Prop :=
  ∃ found, defs.get? id = some found ∧ found.kind = .classType ∧ found.arity = 1 ∧
    found.hasDefaultConstructor = true

variable {defs : Definitions} {id : DefId}

theorem HasGenericClass.register (h : defs.HasGenericClass id) (definition : Definition) :
    (defs.register definition).2.HasGenericClass id := by
  obtain ⟨found, hget, hfound⟩ := h
  exact ⟨found, get?_register_of_eq_some hget definition, hfound⟩

theorem HasGenericClass.modify (h : defs.HasGenericClass id) (other : DefId)
    {change : Definition → Definition}
    (hchange : ∀ definition, (change definition).kind = definition.kind ∧
      (change definition).params = definition.params ∧
      (change definition).hasDefaultConstructor = definition.hasDefaultConstructor) :
    (defs.modify other change).HasGenericClass id := by
  obtain ⟨found, hget, hkind, harity, hconstructor⟩ := h
  by_cases hid : id = other
  · obtain ⟨hkind', hparams', hconstructor'⟩ := hchange found
    refine ⟨change found, by rw [get?_modify, if_pos hid, hget]; rfl, hkind'.trans hkind, ?_,
      hconstructor'.trans hconstructor⟩
    rw [Definition.arity, hparams']
    exact harity
  · exact ⟨found, by rw [get?_modify, if_neg hid, hget], hkind, harity, hconstructor⟩

theorem Built.hasGenericClass (h : defs.Built)
    (hid : id = Collection.list ∨ id = Collection.hashSet) : defs.HasGenericClass id := by
  induction h with
  | collections => rcases hid with rfl | rfl <;> exact ⟨_, rfl, rfl, rfl, rfl⟩
  | register _ definition ih => exact ih.register definition
  | setFields _ other _ ih | addFields _ other _ ih | setBases _ other _ ih =>
    exact ih.modify other fun _ => ⟨rfl, rfl, rfl⟩

theorem HasGenericClass.isConstructible (h : defs.HasGenericClass id) (element : Ty) :
    (Ty.named id [element]).isConstructible defs = true := by
  obtain ⟨found, hget, hkind, harity, hconstructor⟩ := h
  simp [Ty.isConstructible, kind?, arity?, Definitions.hasDefaultConstructor, *]

end Definitions

/-! ## The kind of collection -/

/-- An empty collection of that kind can stand for the type. A list is preferred to a set. -/
inductive StandsFor (defs : Definitions) : CollectionKind → Ty → Prop where
  | array (element : Ty) : StandsFor defs .array (.array element)
  | list {definition : DefId} {element : Ty}
      (h : (Ty.listOf element).isAssignable defs (.named definition [element]) = true) :
      StandsFor defs .list (.named definition [element])
  | set {definition : DefId} {element : Ty}
      (hlist : (Ty.listOf element).isAssignable defs (.named definition [element]) = false)
      (h : (Ty.hashSetOf element).isAssignable defs (.named definition [element]) = true) :
      StandsFor defs .set (.named definition [element])

variable {defs : Definitions} {ty element : Ty} {definition : DefId} {recipe : Expr}

theorem emptyCollection?_of_hasGenericClass (h : defs.HasGenericClass definition) :
    emptyCollection? defs definition element ty =
      if (Ty.named definition [element]).isAssignable defs ty then
        some (.convert ty (.construct (.named definition [element]) []))
      else none := by
  simp [emptyCollection?, h.isConstructible]

/-- A type with one argument has the fallback of the first collection that fits. -/
theorem fallback?_named (h : defs.Built) (definition : DefId) (element : Ty) :
    fallback? defs (.named definition [element]) =
      if (Ty.listOf element).isAssignable defs (.named definition [element]) then
        some (.convert (.named definition [element]) (.construct (.listOf element) []))
      else if (Ty.hashSetOf element).isAssignable defs (.named definition [element]) then
        some (.convert (.named definition [element]) (.construct (.hashSetOf element) []))
      else none := by
  change (emptyCollection? defs Collection.list element _ <|>
    emptyCollection? defs Collection.hashSet element _) = _
  rw [emptyCollection?_of_hasGenericClass (h.hasGenericClass (.inl rfl)),
    emptyCollection?_of_hasGenericClass (h.hasGenericClass (.inr rfl))]
  unfold Ty.listOf
  split <;> rfl

theorem fallback?_eq_none_of_shape (harray : ∀ element, ty ≠ .array element)
    (hnamed : ∀ definition element, ty ≠ .named definition [element]) :
    fallback? defs ty = none := by
  cases hfallback : fallback? defs ty with
  | none => rfl
  | some recipe =>
    obtain ⟨_, rfl⟩ | ⟨_, _, rfl⟩ := (emptyInstance_of_fallback? hfallback).ty_eq
    · exact absurd rfl (harray _)
    · exact absurd rfl (hnamed _ _)

theorem fallback?_eq_none_iff (h : defs.Built) :
    fallback? defs ty = none ↔ (∀ element, ty ≠ .array element) ∧
      ∀ definition element, ty = .named definition [element] →
        (Ty.listOf element).isAssignable defs ty = false ∧
          (Ty.hashSetOf element).isAssignable defs ty = false := by
  constructor
  · intro hnone
    refine ⟨?_, ?_⟩
    · rintro element rfl
      cases hnone
    · rintro definition element rfl
      rw [fallback?_named h] at hnone
      split_ifs at hnone with hlist hset
      exact ⟨by simpa using hlist, by simpa using hset⟩
  · rintro ⟨harray, hnamed⟩
    by_cases hty : ∃ definition element, ty = .named definition [element]
    · obtain ⟨definition, element, rfl⟩ := hty
      obtain ⟨hlist, hset⟩ := hnamed definition element rfl
      simp [fallback?_named h, hlist, hset]
    · push Not at hty
      exact fallback?_eq_none_of_shape harray hty

/-- Where a fallback stands for a collection, it evaluates to an empty one of the kind that fits,
whatever the environment is and without reading any member. -/
theorem ends_of_fallback? (h : defs.Built) (hrecipe : fallback? defs ty = some recipe) :
    ∃ kind, StandsFor defs kind ty ∧ ∀ (context : Context) (env : Env) (trace : Trace),
      context.Ends recipe env trace (.ok (.collection kind [])) trace := by
  obtain ⟨element, rfl⟩ | ⟨definition, element, rfl⟩ :=
    (emptyInstance_of_fallback? hrecipe).ty_eq
  · cases hrecipe
    exact ⟨.array, .array element, fun _ _ _ => ⟨2, rfl⟩⟩
  · rw [fallback?_named h] at hrecipe
    split at hrecipe
    · rename_i hlist
      cases hrecipe
      exact ⟨.list, .list hlist, fun _ _ _ => ⟨2, rfl⟩⟩
    · rename_i hlist
      split at hrecipe
      · rename_i hset
        cases hrecipe
        exact ⟨.set, .set (by simpa using hlist) hset, fun _ _ _ => ⟨2, rfl⟩⟩
      · cases hrecipe

/-! ## Fallbacks and guards -/

namespace Walk

variable {options : GuardOptions} {walk : Walk}

theorem runAt_visit_of_le (h : options.maxDepth ≤ walk.depth) (e : Expr) :
    (e.visit defs options).runAt walk = (.error (.depthExceeded options.maxDepth), walk) := by
  rw [Expr.visit_eq, runAt_enter_of_le _ h]

/-- On the last level that is allowed a conversion is entered, but not its operand. -/
theorem runAt_visit_convert (h : options.maxDepth = walk.depth + 1) (ty : Ty) (operand : Expr) :
    (Expr.visit defs options (.convert ty operand)).runAt walk =
      (.error (.depthExceeded options.maxDepth), { walk.deeper with depth := walk.depth }) := by
  have hoperand : (operand.visit defs options).runAt walk.deeper = _ :=
    runAt_visit_of_le (Nat.le_of_eq h) operand
  have hparts : (visitParts defs options (.convert ty operand)).runAt walk.deeper =
      (.error (.depthExceeded options.maxDepth), walk.deeper) := by
    change (List.mapM (Expr.visit defs options) [operand]).runAt walk.deeper = _
    rw [List.mapM_cons, GuardM.runAt_bind, hoperand]
  rw [Expr.visit_eq, runAt_enter_of_lt _ (by omega),
    GuardM.runAt_bind_of_ok (runAt_checkReceiver_of_complete rfl), GuardM.runAt_bind, hparts]

end Walk

namespace EmptyInstance

theorem mentions_eq_false (h : EmptyInstance ty recipe) (name : String) :
    recipe.mentions name = false := by
  cases h <;> simp [Expr.mentions, Expr.anyNode_eq, Expr.children, Expr.isParamNamed]

/-- A walk over a fallback counts its nodes and inserts nothing. It fails only where even the
fallback is too deep. -/
theorem insertGuards_eq (h : EmptyInstance ty recipe) (options : GuardOptions)
    (cache : FallbackCache) :
    recipe.insertGuards defs options cache =
      if recipe.depth ≤ options.maxDepth then
        (.ok ⟨recipe, ⟨recipe.nodeCount, 0, 0⟩⟩, cache)
      else (.error (.depthExceeded options.maxDepth), cache) := by
  split
  · rename_i hdepth
    have hsettled : recipe.Throughout (Expr.Settled defs) [] :=
      h.throughout Expr.settled_of_isPlain
    have hvisit := recipe.visit_stays defs options (.start cache recipe) hsettled
      (by simpa [Walk.start] using hdepth)
    refine Expr.insertGuards_eq_ok.mpr ⟨_, hvisit, ?_, rfl⟩
    simp [Walk.counting, Walk.start, GuardStats.zero]
  · rename_i hdepth
    obtain ⟨maxDepth, emptyCollections⟩ := options
    cases h with
    | array =>
      obtain rfl : maxDepth = 0 := by
        simp [Expr.depth_eq, Expr.children] at hdepth
        omega
      rw [Expr.insertGuards_eq, Walk.runAt_visit_of_le (Nat.zero_le _)]
      rfl
    | collection =>
      have hlow : maxDepth = 0 ∨ maxDepth = 1 := by
        simp [Expr.depth_eq, Expr.children] at hdepth
        omega
      rcases hlow with rfl | rfl
      · rw [Expr.insertGuards_eq, Walk.runAt_visit_of_le (Nat.zero_le _)]
        rfl
      · rw [Expr.insertGuards_eq, Walk.runAt_visit_convert rfl]
        rfl

end EmptyInstance

/-- Every array type and every type with one argument that a list or a set can stand for has a
fallback, and no other type has. A fallback has the type itself, is safe without any guard, and
evaluates anywhere to an empty collection of the first kind that can stand for the type. -/
theorem fallback?_spec (h : defs.Built) (ty : Ty) :
    (∀ recipe, fallback? defs ty = some recipe →
      recipe.ty = ty ∧ (∀ name, recipe.mentions name = false) ∧ recipe.isSafe defs = true ∧
      (∀ options cache, recipe.insertGuards defs options cache =
        if recipe.depth ≤ options.maxDepth then
          (.ok ⟨recipe, ⟨recipe.nodeCount, 0, 0⟩⟩, cache)
        else (.error (.depthExceeded options.maxDepth), cache)) ∧
      ∃ kind, StandsFor defs kind ty ∧ ∀ (context : Context) (env : Env) (trace : Trace),
        context.Ends recipe env trace (.ok (.collection kind [])) trace) ∧
    (fallback? defs ty = none ↔ (∀ element, ty ≠ .array element) ∧
      ∀ definition element, ty = .named definition [element] →
        (Ty.listOf element).isAssignable defs ty = false ∧
          (Ty.hashSetOf element).isAssignable defs ty = false) := by
  refine ⟨fun recipe hrecipe => ?_, fallback?_eq_none_iff h⟩
  have hempty := emptyInstance_of_fallback? hrecipe
  exact ⟨hempty.ty_recipe, hempty.mentions_eq_false, hempty.isSafe, hempty.insertGuards_eq,
    ends_of_fallback? h hrecipe⟩

def bagInterface : Definition :=
  Collection.interfaceOf "IBag" [Collection.collection] []

/-- Bags are one more base of sets. -/
def bags : Definitions :=
  (Collection.definitions.register bagInterface).2.setBases Collection.hashSet
    [.named Collection.setInterface [.param 0], .named ⟨9⟩ [.param 0]]

/-- `IBag<int>` falls back to an empty set. -/
theorem fallback?_bag : ∃ recipe, fallback? bags (.named ⟨9⟩ [.int]) = some recipe ∧
    recipe.ty = .named ⟨9⟩ [.int] ∧ ∀ (context : Context) (env : Env) (trace : Trace),
      context.Ends recipe env trace (.ok (.collection .set [])) trace := by
  have hbuilt : bags.Built := (Definitions.Built.collections.register _).setBases _ _
  have hlist : (Ty.listOf .int).isAssignable bags (.named ⟨9⟩ [.int]) = false := by decide
  obtain ⟨hsome, -⟩ := fallback?_spec hbuilt (.named ⟨9⟩ [.int])
  have hfound : fallback? bags (.named ⟨9⟩ [.int]) ≠ none := by decide
  obtain ⟨recipe, hrecipe⟩ := Option.ne_none_iff_exists'.mp hfound
  obtain ⟨hty, -, -, -, kind, hkind, hends⟩ := hsome recipe hrecipe
  cases hkind with
  | list h => simp [hlist] at h
  | set => exact ⟨recipe, hrecipe, hty, hends⟩

end NullGuard
