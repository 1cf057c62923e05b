import NullGuard.Proofs.Guard.Insert

/-! # What a walk restores and what it keeps

A visit ends with the depth and the knowledge that it has begun with, whether it succeeds or fails.
Names that are taken stay taken meanwhile, no position of their sequence is met again, and no count
goes back, from each moment of the walk to every later one. -/

namespace NullGuard

/-! ## What is kept -/

namespace GuardStats

/-- No count of the first is larger. -/
structure AtMost (stats later : GuardStats) : Prop where
  nodesVisited_le : stats.nodesVisited ≤ later.nodesVisited
  coalesceGuards_le : stats.coalesceGuards ≤ later.coalesceGuards
  conditionalGuards_le : stats.conditionalGuards ≤ later.conditionalGuards

variable {stats middle later : GuardStats}

theorem AtMost.refl (stats : GuardStats) : stats.AtMost stats :=
  ⟨le_rfl, le_rfl, le_rfl⟩

theorem AtMost.trans (h : stats.AtMost middle) (h' : middle.AtMost later) : stats.AtMost later where
  nodesVisited_le := h.nodesVisited_le.trans h'.nodesVisited_le
  coalesceGuards_le := h.coalesceGuards_le.trans h'.coalesceGuards_le
  conditionalGuards_le := h.conditionalGuards_le.trans h'.conditionalGuards_le

theorem atMost_count (stats : GuardStats) (strategy : GuardStrategy) :
    stats.AtMost (stats.count strategy) := by
  cases strategy
  · exact ⟨le_rfl, Nat.le_succ _, le_rfl⟩
  · exact ⟨le_rfl, le_rfl, Nat.le_succ _⟩

end GuardStats

/-- The second supply has at least the taken names of the first, and its search is no less far. -/
structure FreshNames.Precedes (names later : FreshNames) : Prop where
  taken_subset : names.taken ⊆ later.taken
  next_le : names.next ≤ later.next

namespace FreshNames

variable {names middle later : FreshNames}

theorem Precedes.of_eq (h : later = names) : names.Precedes later :=
  h ▸ ⟨List.Subset.refl _, le_rfl⟩

theorem Precedes.trans (h : names.Precedes middle) (h' : middle.Precedes later) :
    names.Precedes later :=
  ⟨List.Subset.trans h.taken_subset h'.taken_subset, h.next_le.trans h'.next_le⟩

theorem precedes_fresh (names : FreshNames) : names.Precedes names.fresh.2 := by
  obtain ⟨skipped, -, hposition, -⟩ := firstFree_spec names.taken names.next names.taken.length
  have hnext : names.fresh.2.next = names.next + skipped + 1 := congrArg (· + 1) hposition
  exact ⟨taken_fresh names ▸ List.subset_cons_self _ _, by omega⟩

end FreshNames

section Supplies

variable {defs : Definitions} {emptyCollections : Bool}

theorem after_shortCircuit_names (ty : Ty) (supplies : Supplies) :
    (Supplies.after (shortCircuit defs emptyCollections ty) supplies).2.names = supplies.names := by
  rw [after_shortCircuit_eq]
  cases emptyCollections <;> rfl

theorem after_protect_precedes (receiver : Expr) (ty : Ty) (rebuild : Expr → Expr)
    (supplies : Supplies) :
    supplies.names.Precedes (Supplies.after
      (protect defs emptyCollections receiver ty rebuild) supplies).2.names := by
  cases hanswer : (supplies.cache.fallback? defs receiver.ty).1 with
  | some recipe =>
    rw [after_protect_of_answer hanswer]
    exact .of_eq rfl
  | none =>
    let short := Supplies.after (shortCircuit defs emptyCollections ty)
      { supplies with cache := (supplies.cache.fallback? defs receiver.ty).2 }
    have hshort : short.2.names = supplies.names := after_shortCircuit_names ty _
    rw [after_protect_of_no_answer hanswer]
    cases receiver with
    | param => exact .of_eq hshort
    | _ => exact (FreshNames.Precedes.of_eq hshort).trans (FreshNames.precedes_fresh _)

end Supplies

namespace Walk

/-- Nothing that the walk has taken or counted is given back in the later state. -/
structure Precedes (walk later : Walk) : Prop where
  names : walk.supplies.names.Precedes later.supplies.names
  stats : walk.stats.AtMost later.stats

theorem Precedes.refl (walk : Walk) : walk.Precedes walk :=
  ⟨.of_eq rfl, .refl _⟩

theorem Precedes.trans {walk middle later : Walk} (h : walk.Precedes middle)
    (h' : middle.Precedes later) : walk.Precedes later :=
  ⟨h.names.trans h'.names, h.stats.trans h'.stats⟩

theorem precedes_deeper (walk : Walk) : walk.Precedes walk.deeper :=
  ⟨.of_eq rfl, Nat.le_succ _, le_rfl, le_rfl⟩

theorem keptBySteps_precedes (defs : Definitions) (options : GuardOptions) :
    KeptBySteps defs options Precedes where
  refl := .refl
  trans := .trans
  enter {walk _} h := ⟨h.names, (precedes_deeper walk).stats.trans h.stats⟩
  knowing h := ⟨h.names, h.stats⟩
  attach receiver ty rebuild walk := by
    rw [runAt_attach]
    split
    · exact .refl walk
    · exact ⟨after_protect_precedes receiver ty rebuild walk.supplies,
        GuardStats.atMost_count walk.stats _⟩

end Walk

/-! ## The moments of a walk -/

namespace Walk

/-- The moments of an action and, if it succeeds, those of what comes behind it. -/
def andThen {α : Type} (action : GuardM α) (moments : Walk → List Walk)
    (next : α → Walk → List Walk) (walk : Walk) : List Walk :=
  moments walk ++
    match action.runAt walk with
    | (.ok a, middle) => next a middle
    | (.error _, _) => []

/-- The moments with other knowledge of parameters. -/
def informed (change : List String → List String) (moments : Walk → List Walk) (walk : Walk) :
    List Walk :=
  moments { walk with nonNull := change walk.nonNull }

/-- The moments of visits one after the other, up to the first that fails. -/
def inTurn (visit : Expr → GuardM Expr) :
    (items : List Expr) → ((item : Expr) → item ∈ items → Walk → List Walk) → Walk → List Walk
  | [], _ => fun _ => []
  | item :: items, moments =>
    andThen (visit item) (moments item List.mem_cons_self) fun _ =>
      inTurn visit items fun other hother => moments other (List.mem_cons_of_mem item hother)

/-- The moments of the parts of a node, each part being visited with what is known there. -/
def partMoments (defs : Definitions) (options : GuardOptions) (e : Expr)
    (moments : (part : Expr) → part ∈ e.children → Walk → List Walk) : Walk → List Walk :=
  match e, moments with
  | .cond _ test ifTrue ifFalse, moments =>
    andThen (test.visit defs options) (moments test (.head _)) fun test' =>
      andThen (branch test' true (ifTrue.visit defs options))
        (informed (test'.learned true ++ ·) (moments ifTrue (.tail _ (.head _)))) fun _ =>
          informed (test'.learned false ++ ·) (moments ifFalse (.tail _ (.tail _ (.head _))))
  | .lambda _ params body, moments =>
    informed (Expr.unbound · (params.map (·.name))) (moments body (.head _))
  | .bind _ var value body, moments =>
    andThen (value.visit defs options) (moments value (.head _)) fun _ =>
      informed (Expr.unbound · [var.name]) (moments body (.tail _ (.head _)))
  | e, moments => inTurn (Expr.visit defs options) e.children moments

end Walk

open Walk in
/-- The states in which the visit of a node and the visits below it begin and end, in order. -/
def Expr.moments (defs : Definitions) (options : GuardOptions) (e : Expr) (walk : Walk) :
    List Walk :=
  let inner :=
    if walk.depth < options.maxDepth then
      partMoments defs options e (fun part _ => part.moments defs options) walk.deeper
    else []
  walk :: inner ++ [((e.visit defs options).runAt walk).2]
termination_by sizeOf e
decreasing_by exact sizeOf_lt_of_mem_children ‹_›

namespace Walk

variable {α β : Type} {defs : Definitions} {options : GuardOptions} {action : GuardM α}
  {moments : Walk → List Walk}

theorem precedes_runAt_bind {next : α → GuardM β} (hnext : ∀ a, (next a).Keeps Precedes)
    (walk : Walk) : (action.runAt walk).2.Precedes ((action >>= next).runAt walk).2 := by
  rw [GuardM.runAt_bind]
  rcases action.runAt walk with ⟨error | a, middle⟩
  · exact .refl middle
  · exact hnext a middle

/-! ### The order of the moments -/

/-- Nothing is given back from the start of an action to its first moment, from any moment to the
next ones, and from its last moment to its end. -/
structure Passes (action : GuardM α) (moments : Walk → List Walk) : Prop where
  keeps : action.Keeps Precedes
  sorted (walk : Walk) : (moments walk).Pairwise Precedes
  between (walk : Walk) : ∀ moment ∈ moments walk,
    walk.Precedes moment ∧ moment.Precedes (action.runAt walk).2

theorem Passes.none (h : action.Keeps Precedes) : Passes action fun _ => [] :=
  ⟨h, fun _ => .nil, nofun⟩

theorem Passes.bind {next : α → GuardM β} (h : Passes action moments)
    (hnext : ∀ a, (next a).Keeps Precedes) : Passes (action >>= next) moments where
  keeps walk := (h.keeps walk).trans (precedes_runAt_bind hnext walk)
  sorted := h.sorted
  between walk moment hmoment :=
    ⟨(h.between walk moment hmoment).1,
      (h.between walk moment hmoment).2.trans (precedes_runAt_bind hnext walk)⟩

theorem Passes.andThen {next : α → GuardM β} {later : α → Walk → List Walk}
    (h : Passes action moments) (hnext : ∀ a, Passes (next a) (later a)) :
    Passes (action >>= next) (andThen action moments later) := by
  have hbind := h.bind fun a => (hnext a).keeps
  refine ⟨hbind.keeps, fun walk => ?_, fun walk moment hmoment => ?_⟩
  · have hends := h.between walk
    unfold Walk.andThen
    rcases hrun : action.runAt walk with ⟨error | a, middle⟩
    all_goals rw [hrun] at hends
    · simpa using h.sorted walk
    · refine List.pairwise_append.mpr ⟨h.sorted walk, (hnext a).sorted middle, ?_⟩
      exact fun first hfirst second hsecond =>
        (hends first hfirst).2.trans ((hnext a).between middle second hsecond).1
  · rcases List.mem_append.mp hmoment with hfirst | hsecond
    · exact hbind.between walk moment hfirst
    · have hkept := h.keeps walk
      rw [GuardM.runAt_bind]
      rcases hrun : action.runAt walk with ⟨error | a, middle⟩
      all_goals rw [hrun] at hsecond hkept
      · cases hsecond
      · obtain ⟨hstart, hend⟩ := (hnext a).between middle moment hsecond
        exact ⟨hkept.trans hstart, hend⟩

theorem Passes.knowing (h : Passes action moments) (change : List String → List String) :
    Passes (knowing change action) (informed change moments) := by
  refine ⟨fun walk => ?_, fun walk => h.sorted _, fun walk moment hmoment => ?_⟩
  · have hkept := h.keeps { walk with nonNull := change walk.nonNull }
    exact ⟨hkept.names, hkept.stats⟩
  · obtain ⟨hstart, hend⟩ := h.between { walk with nonNull := change walk.nonNull } moment hmoment
    exact ⟨⟨hstart.names, hstart.stats⟩, ⟨hend.names, hend.stats⟩⟩

theorem passes_inTurn {visit : Expr → GuardM Expr} {items : List Expr}
    {moments : (item : Expr) → item ∈ items → Walk → List Walk}
    (h : ∀ item hitem, Passes (visit item) (moments item hitem)) :
    Passes (items.mapM visit) (inTurn visit items moments) := by
  induction items with
  | nil => exact .none fun walk => .refl walk
  | cons item items ih =>
    rw [List.mapM_cons]
    refine (h item _).andThen fun r => ?_
    exact (ih fun other hother => h other _).bind fun _ walk => .refl walk

theorem passes_visitParts {e : Expr}
    {moments : (part : Expr) → part ∈ e.children → Walk → List Walk}
    (h : ∀ part hpart, Passes (part.visit defs options) (moments part hpart)) :
    Passes (visitParts defs options e) (partMoments defs options e moments) := by
  have hpure {γ : Type} (c : γ) : (pure c : GuardM γ).Keeps Precedes := fun walk => .refl walk
  cases e with
  | cond ty test ifTrue ifFalse =>
    refine (h test _).andThen fun test' => ?_
    have htrue := (h ifTrue (.tail _ (.head _))).knowing (test'.learned true ++ ·)
    have hfalse := (h ifFalse (.tail _ (.tail _ (.head _)))).knowing (test'.learned false ++ ·)
    rw [branch_eq_inBranch ifTrue.visit_sameContext]
    exact htrue.andThen fun _ => hfalse.bind fun _ => hpure _
  | lambda ty params body =>
    exact ((h body _).knowing _).bind fun _ => hpure _
  | bind ty var value body =>
    exact (h value _).andThen fun _ => ((h body _).knowing _).bind fun _ => hpure _
  | _ => exact passes_inTurn h

theorem passes_visitNode {e : Expr}
    {moments : (part : Expr) → part ∈ e.children → Walk → List Walk}
    (h : ∀ part hpart, Passes (part.visit defs options) (moments part hpart)) :
    Passes (visitNode defs options e) (partMoments defs options e moments) := by
  have hclosed := (keptBySteps_precedes defs options).closed
  have hcomplete : Passes (do
      let parts ← visitParts defs options e
      sealNode defs options (e.withChildren parts)) (partMoments defs options e moments) :=
    (passes_visitParts h).bind fun parts => hclosed.sealNode (e.withChildren parts)
  cases e with
  | freeCall ty method args =>
    cases args with
    -- without arguments there may be no receiver, but there are no parts to visit either
    | nil => exact .none (hclosed.visitNode nofun)
    | cons receiver rest => simpa [visitNode, checkReceiver] using hcomplete
  | _ => exact hcomplete

end Walk

open Walk

variable {defs : Definitions} {options : GuardOptions}

theorem Expr.exists_moments_between {e : Expr}
    (h : ∀ part ∈ e.children, Passes (part.visit defs options) (part.moments defs options))
    (walk : Walk) :
    ∃ inner, e.moments defs options walk =
        walk :: inner ++ [((e.visit defs options).runAt walk).2] ∧
      inner.Pairwise Precedes ∧
      ∀ moment ∈ inner,
        walk.Precedes moment ∧ moment.Precedes ((e.visit defs options).runAt walk).2 := by
  refine ⟨_, by rw [moments], ?_⟩
  by_cases hdepth : walk.depth < options.maxDepth
  · have hnode := passes_visitNode h
    rw [if_pos hdepth, visit_eq, runAt_enter_of_lt _ hdepth]
    refine ⟨hnode.sorted walk.deeper, fun moment hmoment => ?_⟩
    obtain ⟨hstart, hend⟩ := hnode.between walk.deeper moment hmoment
    exact ⟨(precedes_deeper walk).trans hstart, hend.names, hend.stats⟩
  · rw [if_neg hdepth]
    exact ⟨.nil, nofun⟩

theorem Expr.passes_visit (e : Expr) : Passes (e.visit defs options) (e.moments defs options) := by
  induction e using Expr.induction_children with
  | step e ih =>
    have hkeeps := e.visit_keeps (keptBySteps_precedes defs options)
    refine ⟨hkeeps, fun walk => ?_, fun walk => ?_⟩
    all_goals
      obtain ⟨inner, hmoments, hsorted, hbetween⟩ := exists_moments_between ih walk
      rw [hmoments]
    · rw [List.cons_append, List.pairwise_cons, List.forall_mem_append, List.pairwise_append]
      simp only [List.forall_mem_singleton]
      exact ⟨⟨fun moment hmoment => (hbetween moment hmoment).1, hkeeps walk⟩, hsorted,
        List.pairwise_singleton .., fun moment hmoment => (hbetween moment hmoment).2⟩
    · rw [List.forall_mem_append, List.forall_mem_cons, List.forall_mem_singleton]
      exact ⟨⟨⟨.refl walk, hkeeps walk⟩, hbetween⟩, hkeeps walk, .refl _⟩

/-- However a visit ends, the depth and the knowledge of the walk are what they were, and from each
moment of the walk to each later one nothing that is taken or counted is given back. -/
theorem Expr.visit_restores (defs : Definitions) (options : GuardOptions) (e : Expr) (walk : Walk) :
    let after := ((e.visit defs options).runAt walk).2
    (after.depth = walk.depth ∧ after.nonNull = walk.nonNull) ∧
      (e.moments defs options walk).head? = some walk ∧
      (e.moments defs options walk).getLast? = some after ∧
      (e.moments defs options walk).Pairwise Precedes := by
  have hcontext : walk.SameContext ((e.visit defs options).runAt walk).2 := e.visit_sameContext walk
  refine ⟨⟨hcontext.depth_eq, hcontext.nonNull_eq⟩, ?_, ?_, e.passes_visit.sorted walk⟩
  · rw [moments]
    rfl
  · rw [moments, List.getLast?_concat]

end NullGuard
