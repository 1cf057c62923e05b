import NullGuard.Proofs.Guard.Idempotence
import NullGuard.Workspace

/-! # A cache that is shared

All that an insertion does with its cache is to ask it for fallbacks. A question leaves the answers
to all others as they are, so whatever was done with a cache before, an insertion gives what it
gives with a fresh one. -/

namespace NullGuard

/-! ## Questions to a cache -/

namespace FallbackCache

variable {cache : FallbackCache} {defs : Definitions}

/-- The number of questions that were put to the cache. -/
def questions (cache : FallbackCache) : Nat :=
  cache.hits + cache.misses

/-- What a cache holds that was only asked with these definitions: an entry for each type that it
was asked for, with what is worked out for the type. -/
structure Exact (defs : Definitions) (cache : FallbackCache) : Prop where
  agrees : cache.Agrees defs
  nodup : (cache.entries.map Prod.fst).Nodup
  size_eq : cache.size = cache.misses

theorem exact_empty (defs : Definitions) : empty.Exact defs :=
  ⟨empty_agrees defs, List.nodup_nil, rfl⟩

/-- The entries of the earlier cache are entries of the later one. -/
def Extends (later earlier : FallbackCache) : Prop :=
  ∀ ty found, earlier.get? ty = some found → later.get? ty = some found

/-- The cache after questions for these types, one after the other. -/
def askAll (defs : Definitions) (cache : FallbackCache) (tys : List Ty) : FallbackCache :=
  tys.foldl (fun cache ty => (cache.fallback? defs ty).2) cache

theorem Exact.ask (h : cache.Exact defs) (ty : Ty) : (cache.fallback? defs ty).2.Exact defs := by
  cases hasked : cache.get? ty with
  | some known =>
    rw [fallback?_of_some hasked]
    exact ⟨h.agrees, h.nodup, h.size_eq⟩
  | none =>
    refine ⟨agrees_iff.mpr ((answer_fallback? _ _ _).trans h.agrees.answer_eq), ?_, ?_⟩
    · simp only [fallback?, hasked, List.map_cons, List.nodup_cons]
      exact ⟨lookup_eq_none_iff_not_mem.mp hasked, h.nodup⟩
    · simp only [fallback?, hasked, size, List.length_cons]
      exact congrArg (· + 1) h.size_eq

theorem extends_ask (cache : FallbackCache) (defs : Definitions) (ty : Ty) :
    (cache.fallback? defs ty).2.Extends cache := by
  intro other found hfound
  cases hasked : cache.get? ty with
  | some known =>
    rw [fallback?_of_some hasked]
    exact hfound
  | none =>
    have hne : other ≠ ty := by
      rintro rfl
      cases hasked.symm.trans hfound
    rw [get?_fallback?_of_none hasked, if_neg hne, hfound]

theorem questions_ask (cache : FallbackCache) (defs : Definitions) (ty : Ty) :
    (cache.fallback? defs ty).2.questions = cache.questions + 1 := by
  unfold fallback? questions
  split
  · exact Nat.add_right_comm _ _ _
  · rfl

variable {tys : List Ty}

theorem Exact.askAll (h : cache.Exact defs) : (cache.askAll defs tys).Exact defs := by
  induction tys generalizing cache with
  | nil => exact h
  | cons ty tys ih => exact ih (h.ask ty)

theorem extends_askAll : (cache.askAll defs tys).Extends cache := by
  induction tys generalizing cache with
  | nil => exact fun _ _ => id
  | cons ty tys ih =>
    exact fun other found h => ih other found (extends_ask cache defs ty other found h)

theorem questions_askAll : (cache.askAll defs tys).questions = cache.questions + tys.length := by
  induction tys generalizing cache with
  | nil => rfl
  | cons ty tys ih =>
    rw [askAll, List.foldl_cons, ← askAll, ih, questions_ask, List.length_cons, Nat.add_assoc,
      Nat.add_comm 1]

theorem askAll_append (first second : List Ty) :
    cache.askAll defs (first ++ second) = (cache.askAll defs first).askAll defs second :=
  List.foldl_append

end FallbackCache

/-! ## The questions of an insertion -/

/-- How often the cache is asked for guards with these counts: for the type of each receiver, and
for the type of the node where a short circuit prefers an empty instance. -/
def GuardStats.questions (emptyCollections : Bool) (stats : GuardStats) : Nat :=
  stats.guards + if emptyCollections then stats.conditionalGuards else 0

section Supplies

variable {defs : Definitions} {emptyCollections : Bool}

theorem after_shortCircuit_cache (ty : Ty) (supplies : Supplies) :
    (Supplies.after (shortCircuit defs emptyCollections ty) supplies).2.cache =
      supplies.cache.askAll defs (if emptyCollections then [ty] else []) := by
  rw [after_shortCircuit_eq]
  cases emptyCollections <;> rfl

theorem after_protect_cache (receiver : Expr) (ty : Ty) (rebuild : Expr → Expr)
    (supplies : Supplies) :
    ∃ tys, (Supplies.after (protect defs emptyCollections receiver ty rebuild) supplies).2.cache =
        supplies.cache.askAll defs tys ∧
      tys.length = (GuardStats.zero.count (Supplies.after
        (protect defs emptyCollections receiver ty rebuild) supplies).1.2).questions
          emptyCollections := by
  cases hanswer : (supplies.cache.fallback? defs receiver.ty).1 with
  | some recipe =>
    rw [after_protect_of_answer hanswer]
    refine ⟨[receiver.ty], rfl, ?_⟩
    cases emptyCollections <;> rfl
  | none =>
    rw [after_protect_of_no_answer hanswer]
    refine ⟨receiver.ty :: if emptyCollections then [ty] else [], ?_, ?_⟩
    · cases receiver <;> exact after_shortCircuit_cache ty _
    · cases receiver <;> cases emptyCollections <;> rfl

end Supplies

theorem GuardStats.questions_count (emptyCollections : Bool) (stats : GuardStats)
    (strategy : GuardStrategy) :
    (stats.count strategy).questions emptyCollections =
      stats.questions emptyCollections + (zero.count strategy).questions emptyCollections := by
  cases strategy <;> cases emptyCollections <;>
    simp [questions, count, guards, zero] <;> omega

namespace Walk

variable {defs : Definitions} {options : GuardOptions} {walk after : Walk}

/-- The walk has put as many questions to the cache as its new guards need. -/
def Asks (defs : Definitions) (options : GuardOptions) (walk after : Walk) : Prop :=
  ∃ tys, after.supplies.cache = walk.supplies.cache.askAll defs tys ∧
    after.stats.questions options.emptyCollections =
      walk.stats.questions options.emptyCollections + tys.length

theorem asks_keptBySteps (defs : Definitions) (options : GuardOptions) :
    KeptBySteps defs options (Asks defs options) where
  refl _ := ⟨[], rfl, rfl⟩
  trans := by
    rintro walk middle after ⟨first, hcache, hcount⟩ ⟨second, hcache', hcount'⟩
    refine ⟨first ++ second, ?_, ?_⟩
    · rw [hcache', hcache, FallbackCache.askAll_append]
    · rw [hcount', hcount, List.length_append, Nat.add_assoc]
  enter := id
  knowing := id
  attach receiver ty rebuild walk := by
    rw [runAt_attach]
    split
    · exact ⟨[], rfl, rfl⟩
    · obtain ⟨tys, hcache, hcount⟩ := after_protect_cache receiver ty rebuild walk.supplies
      refine ⟨tys, hcache, ?_⟩
      rw [hcount]
      exact GuardStats.questions_count _ _ _

/-! ## Walks with different caches -/

/-- Two states that differ at most in what their caches hold, but not in what these answer. -/
structure Parallel (rules : GuardRules) (options : GuardOptions) (walk other : Walk) : Prop where
  follow : walk.supplies.Follow rules options
  follow' : other.supplies.Follow rules options
  names_eq : other.supplies.names = walk.supplies.names
  nonNull_eq : other.nonNull = walk.nonNull
  depth_eq : other.depth = walk.depth
  stats_eq : other.stats = walk.stats

end Walk

/-- From two states that differ in their caches only the action gives the same and leads to two
such states. -/
def GuardM.Ignores (rules : GuardRules) (options : GuardOptions) {α : Type} (action : GuardM α) :
    Prop :=
  ∀ walk other, Walk.Parallel rules options walk other →
    (action.runAt other).1 = (action.runAt walk).1 ∧
      Walk.Parallel rules options (action.runAt walk).2 (action.runAt other).2

open Walk in
theorem GuardM.ignores_closed (rules : GuardRules) (options : GuardOptions) :
    GuardM.Closed rules.defs options (GuardM.Ignores rules options) where
  ok a walk other h := ⟨rfl, h⟩
  error error walk other h := ⟨rfl, h⟩
  bind := by
    intro α β action next haction hnext walk other h
    obtain ⟨hresult, hparallel⟩ := haction walk other h
    rw [runAt_bind, runAt_bind]
    rcases hrun : action.runAt walk with ⟨error | a, middle⟩
    all_goals
      rcases hrun' : action.runAt other with ⟨result', middle'⟩
      rw [hrun, hrun'] at hresult hparallel
      obtain rfl := hresult
    · exact ⟨rfl, hparallel⟩
    · exact hnext a middle middle' hparallel
  enter := by
    intro α action maxDepth haction walk other h
    by_cases hdepth : walk.depth < maxDepth
    · obtain ⟨hresult, hparallel⟩ := haction walk.deeper other.deeper
        ⟨h.follow, h.follow', h.names_eq, h.nonNull_eq, congrArg (· + 1) h.depth_eq, by
          simp only [deeper, h.stats_eq]⟩
      rw [runAt_enter_of_lt action hdepth, runAt_enter_of_lt action (h.depth_eq ▸ hdepth)]
      exact ⟨hresult, hparallel.follow, hparallel.follow', hparallel.names_eq, hparallel.nonNull_eq,
        h.depth_eq, hparallel.stats_eq⟩
    · rw [runAt_enter_of_le action (Nat.not_lt.mp hdepth),
        runAt_enter_of_le action (h.depth_eq ▸ Nat.not_lt.mp hdepth)]
      exact ⟨rfl, h⟩
  knowing := by
    intro α action change haction walk other h
    obtain ⟨hresult, hparallel⟩ := haction { walk with nonNull := change walk.nonNull }
      { other with nonNull := change other.nonNull }
      ⟨h.follow, h.follow', h.names_eq, congrArg change h.nonNull_eq, h.depth_eq, h.stats_eq⟩
    exact ⟨hresult, hparallel.follow, hparallel.follow', hparallel.names_eq, h.nonNull_eq,
      hparallel.depth_eq, hparallel.stats_eq⟩
  attach receiver ty rebuild walk other h := by
    have hknown : other.isKnown receiver = walk.isKnown receiver := by
      unfold isKnown
      rw [h.nonNull_eq]
    rw [runAt_attach, runAt_attach, hknown]
    split
    · exact ⟨rfl, h⟩
    · obtain ⟨⟨made, strategy⟩, names, hprotects⟩ :=
        exists_after_protect rules options walk.supplies.names receiver ty rebuild
      obtain ⟨left, hleft, hnames, hprotect⟩ := hprotects walk.supplies h.follow rfl
      obtain ⟨left', hleft', hnames', hprotect'⟩ := hprotects other.supplies h.follow' h.names_eq
      rw [hprotect, hprotect']
      exact ⟨rfl, hleft, hleft', hnames'.trans hnames.symm, h.nonNull_eq, h.depth_eq, by
        simp only [h.stats_eq]⟩

/-! ## Insertion with a shared cache -/

namespace Expr

variable {defs : Definitions} {cache : FallbackCache}

/-- With a cache that was used with the same definitions an insertion gives what it gives with a
fresh one, also when it fails. -/
theorem insertGuards_fst_eq (h : cache.Agrees defs) (options : GuardOptions) (e : Expr) :
    (e.insertGuards defs options cache).1 = (e.insertGuards defs options .empty).1 := by
  let rules := FallbackCache.empty.rules defs options FallbackCache.empty_computed
  have hanswer : cache.answer defs = FallbackCache.empty.answer defs :=
    h.answer_eq.trans (FallbackCache.empty_agrees defs).answer_eq.symm
  have hparallel : Walk.Parallel rules options (.start .empty e) (.start cache e) :=
    ⟨⟨FallbackCache.empty_computed, rfl, rfl⟩, ⟨h.computed, hanswer, rfl⟩, rfl, rfl, rfl, rfl⟩
  obtain ⟨hresult, hends⟩ := e.visit_closed (GuardM.ignores_closed rules options) _ _ hparallel
  have hstats := hends.stats_eq
  rw [insertGuards_eq, insertGuards_eq]
  dsimp only [rules, FallbackCache.rules] at hresult hstats
  rw [hresult, hstats]

/-- An insertion leaves the cache with the questions that its guards need. -/
theorem exists_insertGuards_snd_eq (defs : Definitions) (cache : FallbackCache)
    (options : GuardOptions) (e : Expr) :
    ∃ tys, (e.insertGuards defs options cache).2 = cache.askAll defs tys ∧
      ∀ guarded, (e.insertGuards defs options cache).1 = .ok guarded →
        tys.length = guarded.stats.questions options.emptyCollections := by
  obtain ⟨tys, hcache, hcount⟩ :=
    e.visit_keeps (Walk.asks_keptBySteps defs options) (.start cache e)
  refine ⟨tys, hcache, fun guarded hguarded => ?_⟩
  obtain ⟨after, hvisit, hstats, _⟩ := insertGuards_eq_ok.mp (Prod.ext hguarded rfl)
  rw [hvisit] at hcount
  rw [← hstats, hcount]
  simp [Walk.start, GuardStats.questions, GuardStats.guards, GuardStats.zero]

end Expr

/-! ## Operations that share a cache -/

/-- An operation of a workspace that uses its cache. -/
inductive CacheUse where
  | insert (options : GuardOptions) (e : Expr)
  | lookup (ty : Ty)

namespace CacheUse

/-- What such an operation gives. -/
inductive Answer where
  | inserted (result : Except GuardError Guarded)
  | found (fallback : Option Expr)

def run : CacheUse → WorkspaceM Answer
  | insert options e => return .inserted (← Workspace.insertGuards options e)
  | lookup ty => return .found (← Workspace.cachedFallback? ty)

/-- What the operation gives in a workspace. -/
def answer (use : CacheUse) (workspace : Workspace) : Answer :=
  (use.run.run workspace).1

/-- The workspace that the operation leaves. -/
def next (use : CacheUse) (workspace : Workspace) : Workspace :=
  (use.run.run workspace).2

/-- The workspace after operations one after the other. -/
def nextAll (uses : List CacheUse) (workspace : Workspace) : Workspace :=
  uses.foldl (fun workspace use => use.next workspace) workspace

variable {workspace fresh : Workspace}

theorem defs_next (use : CacheUse) (workspace : Workspace) :
    (use.next workspace).defs = workspace.defs := by
  cases use <;> rfl

/-- All that an operation does with the cache is to ask it. -/
theorem exists_cache_next_eq (use : CacheUse) (workspace : Workspace) :
    ∃ tys, (use.next workspace).cache = workspace.cache.askAll workspace.defs tys := by
  cases use with
  | insert options e =>
    obtain ⟨tys, hcache, _⟩ :=
      e.exists_insertGuards_snd_eq workspace.defs workspace.cache options
    exact ⟨tys, hcache⟩
  | lookup ty => exact ⟨[ty], rfl⟩

theorem exact_next (h : workspace.cache.Exact workspace.defs) (use : CacheUse) :
    (use.next workspace).cache.Exact workspace.defs := by
  obtain ⟨tys, hcache⟩ := use.exists_cache_next_eq workspace
  exact hcache ▸ h.askAll

theorem extends_next (use : CacheUse) (workspace : Workspace) :
    (use.next workspace).cache.Extends workspace.cache := by
  obtain ⟨tys, hcache⟩ := use.exists_cache_next_eq workspace
  exact hcache ▸ FallbackCache.extends_askAll

theorem answer_eq_of_exact (h : workspace.cache.Exact workspace.defs)
    (hdefs : fresh.defs = workspace.defs) (hempty : fresh.cache = .empty) (use : CacheUse) :
    use.answer workspace = use.answer fresh := by
  cases use with
  | insert options e =>
    have hanswer := e.insertGuards_fst_eq h.agrees options
    rw [← hempty, ← hdefs] at hanswer
    exact congrArg Answer.inserted (hdefs ▸ hanswer)
  | lookup ty =>
    have hanswer : workspace.cache.answer workspace.defs ty = fresh.cache.answer fresh.defs ty := by
      rw [h.agrees.answer_eq, hempty, hdefs, (FallbackCache.empty_agrees _).answer_eq]
    exact congrArg Answer.found hanswer

theorem nextAll_exact (h : workspace.cache.Exact workspace.defs) (uses : List CacheUse) :
    (nextAll uses workspace).defs = workspace.defs ∧
      (nextAll uses workspace).cache.Exact workspace.defs := by
  induction uses generalizing workspace with
  | nil => exact ⟨rfl, h⟩
  | cons use uses ih =>
    have hexact : (use.next workspace).cache.Exact (use.next workspace).defs :=
      (defs_next use workspace).symm ▸ exact_next h use
    rw [← defs_next use workspace]
    exact ih hexact

/-- Operations that share a cache, empty at first, do not notice each other. After any of them the
next one gives what it gives with a fresh cache. It keeps all entries, each being what is worked out
for its type, and there are as many entries as misses. An insertion that succeeds puts one question
to the cache for each guard, and one more for a short circuit that prefers an empty instance. -/
theorem answer_eq_of_fresh (hworkspace : workspace.cache = .empty)
    (hdefs : fresh.defs = workspace.defs) (hfresh : fresh.cache = .empty) (before : List CacheUse)
    (use : CacheUse) :
    let reached := nextAll before workspace
    let left := use.next reached
    use.answer reached = use.answer fresh ∧
    left.cache.Exact workspace.defs ∧ left.cache.Extends reached.cache ∧
    ∀ options e guarded, use = insert options e → use.answer reached = .inserted (.ok guarded) →
      left.cache.hits + left.cache.misses = reached.cache.hits + reached.cache.misses +
        guarded.stats.guards +
        if options.emptyCollections then guarded.stats.conditionalGuards else 0 := by
  have hstart : workspace.cache.Exact workspace.defs :=
    hworkspace ▸ FallbackCache.exact_empty workspace.defs
  obtain ⟨hreached, hexact⟩ := nextAll_exact hstart before
  have hexact' : (nextAll before workspace).cache.Exact (nextAll before workspace).defs :=
    hreached ▸ hexact
  refine ⟨answer_eq_of_exact hexact' (hdefs.trans hreached.symm) hfresh use,
    hreached ▸ exact_next hexact' use, extends_next use _, ?_⟩
  rintro options e guarded rfl hanswer
  obtain ⟨tys, hcache, hcount⟩ := e.exists_insertGuards_snd_eq (nextAll before workspace).defs
    (nextAll before workspace).cache options
  have hquestions := congrArg FallbackCache.questions hcache
  rw [FallbackCache.questions_askAll, hcount guarded (Answer.inserted.inj hanswer),
    GuardStats.questions, ← Nat.add_assoc] at hquestions
  exact hquestions

/-- `p.Age.Value + ((int)(int)p.Age.Value)`, whose right operand is two levels deeper. -/
def unevenSum : Expr :=
  .binaryOf .add nestedRead (.convert .int (.convert .int nestedRead))

/-- An insertion into the sum fails in its right operand, when the cache holds what the left one
asked for already. The insertion after it finds that there. -/
theorem answer_eq_of_fresh_unevenSum :
    let before := [insert ⟨4, true⟩ unevenSum, lookup (.array .int)]
    let reached := nextAll before ⟨.empty, .empty, .empty, .empty, .empty⟩
    let left := (insert ⟨500, true⟩ nestedRead).next reached
    ∃ guarded, (insert ⟨500, true⟩ nestedRead).answer reached = .inserted (.ok guarded) ∧
      guarded.stats = ⟨3, 0, 2⟩ ∧ left.cache.Exact .empty ∧ left.cache.Extends reached.cache ∧
      left.cache.hits + left.cache.misses = reached.cache.hits + reached.cache.misses + 4 := by
  intro before reached left
  let start : Workspace := ⟨.empty, .empty, .empty, .empty, .empty⟩
  obtain ⟨hanswer, hexact, hextends, hquestions⟩ :=
    answer_eq_of_fresh (rfl : start.cache = .empty) (rfl : start.defs = start.defs)
      (rfl : start.cache = .empty) before (insert ⟨500, true⟩ nestedRead)
  have hfresh : ∃ guarded, (insert ⟨500, true⟩ nestedRead).answer
      ⟨.empty, .empty, .empty, .empty, .empty⟩ = .inserted (.ok guarded) ∧
      guarded.stats = ⟨3, 0, 2⟩ := ⟨_, by cbv, by cbv⟩
  obtain ⟨guarded, hguarded, hstats⟩ := hfresh
  have hcount := hquestions _ _ guarded rfl (hanswer.trans hguarded)
  rw [hstats] at hcount
  exact ⟨guarded, hanswer.trans hguarded, hstats, hexact, hextends, hcount⟩

end CacheUse

end NullGuard
