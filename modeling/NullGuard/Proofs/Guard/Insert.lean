import NullGuard.Proofs.Guard.FreshNames
import NullGuard.Proofs.Guard.Protect
import NullGuard.Proofs.Guard.Walk

/-! # A walk that succeeds guards the tree

The walk keeps all names that may be known or used among the taken ones, so that the name of a
guard is fresh where it is used. -/

namespace NullGuard

open List (Forall₂)

namespace Walk

variable {rules : GuardRules} {options : GuardOptions} {walk middle after : Walk}

/-- The names that no guard may use. -/
def taken (walk : Walk) : List String :=
  walk.supplies.names.taken

/-- A state from which guards can be inserted by the rules. -/
structure Ready (rules : GuardRules) (options : GuardOptions) (walk : Walk) : Prop where
  follow : walk.supplies.Follow rules options
  known_taken : walk.nonNull ⊆ walk.taken

/-- A later state of the walk, at a node with the same knowledge. -/
structure Leads (rules : GuardRules) (options : GuardOptions) (walk after : Walk) : Prop where
  follow : after.supplies.Follow rules options
  nonNull_eq : after.nonNull = walk.nonNull
  taken_subset : walk.taken ⊆ after.taken

theorem Ready.refl (h : walk.Ready rules options) : walk.Leads rules options walk :=
  ⟨h.follow, rfl, List.Subset.refl _⟩

theorem Leads.trans (h : walk.Leads rules options middle) (h' : middle.Leads rules options after) :
    walk.Leads rules options after :=
  ⟨h'.follow, h'.nonNull_eq.trans h.nonNull_eq, List.Subset.trans h.taken_subset h'.taken_subset⟩

theorem Leads.ready (h : walk.Leads rules options after) (hready : walk.Ready rules options) :
    after.Ready rules options :=
  ⟨h.follow, h.nonNull_eq ▸ List.Subset.trans hready.known_taken h.taken_subset⟩

/-! ## Sealing -/

/-- A parameter that is known not to be null. -/
def isKnown (walk : Walk) : Expr → Bool
  | .param _ name => walk.nonNull.contains name
  | _ => false

theorem needsNoGuard_iff {defs : Definitions} {receiver : Expr} :
    receiver.NeedsNoGuard defs walk.nonNull ↔
      (receiver.isSafe defs || walk.isKnown receiver) = true := by
  rw [Bool.or_eq_true]
  refine or_congr_right ⟨?_, fun h => ?_⟩
  · rintro ⟨ty, name, rfl, hname⟩
    simpa [isKnown] using hname
  · cases receiver with
    | param ty name => exact ⟨ty, name, rfl, by simpa [isKnown] using h⟩
    | _ => cases h

section Attach

variable {defs : Definitions} {receiver : Expr} (ty : Ty) (rebuild : Expr → Expr)

theorem runAt_attach :
    (attach defs options receiver ty rebuild).runAt walk =
      if receiver.isSafe defs || walk.isKnown receiver then (.ok (rebuild receiver), walk)
      else
        let ((r, strategy), left) := Supplies.after
          (protect defs options.emptyCollections receiver ty rebuild) walk.supplies
        (.ok r, { walk with supplies := left, stats := walk.stats.count strategy }) := by
  change (if receiver.isSafe defs || walk.isKnown receiver then pure (rebuild receiver)
    else _ : GuardM Expr).runAt walk = _
  split <;> rfl

theorem runAt_attach_of_needsNoGuard (h : receiver.NeedsNoGuard defs walk.nonNull) :
    (attach defs options receiver ty rebuild).runAt walk = (.ok (rebuild receiver), walk) := by
  rw [runAt_attach, if_pos (needsNoGuard_iff.mp h)]

theorem runAt_attach_of_protect (h : ¬ receiver.NeedsNoGuard defs walk.nonNull) {r : Expr}
    {strategy : GuardStrategy} {left : Supplies}
    (hprotect : Supplies.after (protect defs options.emptyCollections receiver ty rebuild)
      walk.supplies = ((r, strategy), left)) :
    (attach defs options receiver ty rebuild).runAt walk =
      (.ok r, { walk with supplies := left, stats := walk.stats.count strategy }) := by
  rw [runAt_attach, if_neg (mt needsNoGuard_iff.mpr h), hprotect]

end Attach

theorem names_shortCircuit (rules : GuardRules) (ty : Ty) : (rules.shortCircuit ty).names = [] := by
  have hmissing : (missingValue rules.defs ty).names = [] := by
    unfold missingValue
    split <;> simp [Expr.names, Expr.fold_eq, Expr.children, Expr.ownNames, Expr.null]
  unfold GuardRules.shortCircuit
  split
  · cases hfallback : rules.fallback ty with
    | none => exact hmissing
    | some recipe => exact (rules.emptyInstance hfallback).names_eq_nil
  · exact hmissing

theorem names_nullCheck_subset {names : List String} {ty resultTy : Ty} {name : String}
    {node : Expr} (hname : name ∈ names) (hnode : node.names ⊆ names) :
    (nullCheck (.param ty name) (rules.shortCircuit resultTy) node resultTy).names ⊆ names := by
  have htest : (Expr.binaryOf .eq (.param ty name) (.null ty)).names = [name] := by
    simp [Expr.names, Expr.fold_eq, Expr.binaryOf, Expr.null, Expr.children, Expr.ownNames]
  refine Expr.names_subset_iff.mpr ⟨List.nil_subset _, fun part hpart => ?_⟩
  rcases hpart with _ | ⟨_, _ | ⟨_, _ | ⟨_, _ | _⟩⟩⟩
  · exact htest ▸ List.cons_subset.mpr ⟨hname, List.nil_subset _⟩
  · rw [names_shortCircuit]
    exact List.nil_subset _
  · exact hnode

theorem names_withReceiver_subset {names : List String} {node receiver other : Expr}
    (h : node.receiver? = some receiver) (hnode : node.names ⊆ names)
    (hother : other.names ⊆ names) : (node.withReceiver other).names ⊆ names := by
  rw [Expr.names_subset_iff, Expr.children_withReceiver h,
    Expr.ownNames_of_receiver? (Expr.receiver?_withReceiver h other), List.forall_mem_cons]
  refine ⟨List.nil_subset _, hother, fun part hpart => ?_⟩
  exact List.Subset.trans (Expr.names_subset_of_mem_children (List.mem_of_mem_tail hpart)) hnode

theorem names_coalesced_subset {node receiver recipe : Expr}
    (h : node.receiver? = some receiver) (hfallback : rules.fallback receiver.ty = some recipe) :
    (node.withReceiver (.coalesceOf receiver recipe)).names ⊆ node.names := by
  refine names_withReceiver_subset h (List.Subset.refl _) ?_
  refine Expr.names_subset_iff.mpr ⟨List.nil_subset _, fun part hpart => ?_⟩
  rcases hpart with _ | ⟨_, _ | ⟨_, _ | _⟩⟩
  · exact Expr.names_subset_of_receiver? h
  · exact (rules.emptyInstance hfallback).names_eq_nil ▸ List.nil_subset _

theorem names_tested_subset {node : Expr} {ty resultTy : Ty} {name : String}
    (h : node.receiver? = some (.param ty name)) :
    (nullCheck (.param ty name) (rules.shortCircuit resultTy) node resultTy).names ⊆ node.names :=
  names_nullCheck_subset (Expr.names_subset_of_receiver? h (by simp)) (List.Subset.refl _)

/-- A guard that holds its receiver uses the name for that and the names of its node. -/
theorem names_held_subset {node receiver : Expr} {resultTy : Ty} {name : String}
    (h : node.receiver? = some receiver) :
    (Expr.bindTo name receiver (nullCheck (.param receiver.ty name) (rules.shortCircuit resultTy)
      (node.withReceiver (.param receiver.ty name)) resultTy)).names ⊆ name :: node.names := by
  have hnode : node.names ⊆ name :: node.names := List.subset_cons_self _ _
  refine Expr.names_subset_iff.mpr ⟨?_, fun part hpart => ?_⟩
  · exact List.cons_subset.mpr ⟨List.mem_cons_self, List.nil_subset _⟩
  · rcases hpart with _ | ⟨_, _ | ⟨_, _ | _⟩⟩
    · exact List.Subset.trans (Expr.names_subset_of_receiver? h) hnode
    · refine names_nullCheck_subset List.mem_cons_self (names_withReceiver_subset h hnode ?_)
      simp

/-- What sealing a node gives and the state that it leaves. Only a guard that holds its receiver
takes a name. -/
inductive Sealing (rules : GuardRules) (options : GuardOptions) (walk : Walk) (node : Expr) :
    Expr → Walk → Prop where
  | free (hnone : node.receiver? = none) : Sealing rules options walk node node walk
  | kept {receiver} (hreceiver : node.receiver? = some receiver)
      (hsafe : receiver.NeedsNoGuard rules.defs walk.nonNull) :
      Sealing rules options walk node node walk
  | coalesced {receiver recipe} {left : Supplies} (hreceiver : node.receiver? = some receiver)
      (hneeds : ¬ receiver.NeedsNoGuard rules.defs walk.nonNull)
      (hfallback : rules.fallback receiver.ty = some recipe)
      (hfollow : left.Follow rules options) (hleft : left.names.taken = walk.taken) :
      Sealing rules options walk node (node.withReceiver (.coalesceOf receiver recipe))
        { walk with supplies := left, stats := walk.stats.count .coalesce }
  | tested {ty name} {left : Supplies} (hreceiver : node.receiver? = some (.param ty name))
      (hneeds : ¬ (Expr.param ty name).NeedsNoGuard rules.defs walk.nonNull)
      (hfallback : rules.fallback ty = none)
      (hfollow : left.Follow rules options) (hleft : left.names.taken = walk.taken) :
      Sealing rules options walk node
        (nullCheck (.param ty name) (rules.shortCircuit node.ty) node node.ty)
        { walk with supplies := left, stats := walk.stats.count .conditional }
  | held {receiver name} {left : Supplies} (hreceiver : node.receiver? = some receiver)
      (hneeds : ¬ receiver.NeedsNoGuard rules.defs walk.nonNull)
      (hfallback : rules.fallback receiver.ty = none)
      (hparam : ∀ ty other, receiver ≠ .param ty other) (hname : name ∉ walk.taken)
      (hfollow : left.Follow rules options) (hleft : left.names.taken = name :: walk.taken) :
      Sealing rules options walk node
        (.bindTo name receiver
          (nullCheck (.param receiver.ty name) (rules.shortCircuit node.ty)
            (node.withReceiver (.param receiver.ty name)) node.ty))
        { walk with supplies := left, stats := walk.stats.count .conditional }

theorem sealing_of_runAt {node r : Expr} (hfollow : walk.supplies.Follow rules options)
    (hrun : (sealNode rules.defs options node).runAt walk = (.ok r, after)) :
    walk.Sealing rules options node r after := by
  unfold sealNode at hrun
  cases hreceiver : node.receiver? with
  | none =>
    rw [hreceiver] at hrun
    cases hrun
    exact .free hreceiver
  | some receiver =>
    simp only [hreceiver] at hrun
    by_cases hsafe : receiver.NeedsNoGuard rules.defs walk.nonNull
    · rw [runAt_attach_of_needsNoGuard _ _ hsafe, Expr.withReceiver_self hreceiver] at hrun
      cases hrun
      exact .kept hreceiver hsafe
    cases hfallback : rules.fallback receiver.ty with
    | some recipe =>
      obtain ⟨left, hfollow', hleft, hprotect⟩ :=
        after_protect_of_some hfollow receiver node.ty node.withReceiver hfallback
      rw [runAt_attach_of_protect _ _ hsafe hprotect] at hrun
      cases hrun
      exact .coalesced hreceiver hsafe hfallback hfollow' (congrArg FreshNames.taken hleft)
    | none =>
      by_cases hparam : ∃ ty name, receiver = .param ty name
      · obtain ⟨ty, name, rfl⟩ := hparam
        obtain ⟨left, hfollow', hleft, hprotect⟩ :=
          after_protect_of_param hfollow ty node.withReceiver hfallback node.ty
        rw [Expr.withReceiver_self hreceiver] at hprotect
        rw [runAt_attach_of_protect _ _ hsafe hprotect] at hrun
        cases hrun
        exact .tested hreceiver hsafe hfallback hfollow' (congrArg FreshNames.taken hleft)
      · have hparam' : ∀ ty name, receiver ≠ .param ty name :=
          fun ty name heq => hparam ⟨ty, name, heq⟩
        obtain ⟨left, hfollow', hleft, hprotect⟩ :=
          after_protect_of_not_param hfollow receiver node.ty node.withReceiver hfallback hparam'
        rw [runAt_attach_of_protect _ _ hsafe hprotect] at hrun
        cases hrun
        exact .held hreceiver hsafe hfallback hparam' (FreshNames.fresh_not_mem _) hfollow'
          (hleft ▸ FreshNames.taken_fresh _)

section Sealing

variable {node r : Expr} (h : walk.Sealing rules options node r after)

include h

theorem Sealing.leads (hready : walk.Ready rules options) : walk.Leads rules options after := by
  cases h with
  | free | kept => exact hready.refl
  | coalesced _ _ _ hfollow hleft | tested _ _ _ hfollow hleft =>
    refine ⟨hfollow, rfl, ?_⟩
    simp only [taken, hleft]
    exact List.Subset.refl _
  | held _ _ _ _ _ hfollow hleft =>
    refine ⟨hfollow, rfl, ?_⟩
    simp only [taken, hleft]
    exact List.subset_cons_self _ _

variable (hnames : node.names ⊆ walk.taken)

include hnames

theorem Sealing.seals (hready : walk.Ready rules options) : Seals rules walk.nonNull node r := by
  cases h with
  | free hnone => exact .free hnone
  | kept hreceiver hsafe => exact .kept hreceiver hsafe
  | coalesced hreceiver hneeds hfallback => exact .coalesced hreceiver hneeds hfallback
  | tested hreceiver hneeds hfallback => exact .tested hreceiver hneeds hfallback
  | held hreceiver hneeds hfallback hparam hname =>
    exact .held hreceiver hneeds hfallback hparam (fun hused => hname (hnames hused))
      fun hknown => hname (hready.known_taken hknown)

theorem Sealing.names_taken : r.names ⊆ after.taken := by
  cases h with
  | free | kept => exact hnames
  | coalesced hreceiver _ hfallback _ hleft =>
    simp only [taken, hleft]
    exact List.Subset.trans (names_coalesced_subset hreceiver hfallback) hnames
  | tested hreceiver _ _ _ hleft =>
    simp only [taken, hleft]
    exact List.Subset.trans (names_tested_subset hreceiver) hnames
  | held hreceiver _ _ _ _ _ hleft =>
    simp only [taken, hleft]
    exact List.Subset.trans (names_held_subset hreceiver) (List.cons_subset_cons _ hnames)

end Sealing

/-! ## Visiting -/

/-- What visiting an expression achieves, where the parameters `known` are not null. -/
structure GuardsTo (rules : GuardRules) (options : GuardOptions) (walk : Walk)
    (known : List String) (e r : Expr) (after : Walk) : Prop where
  guards : Guards rules known e r
  names_taken : r.names ⊆ after.taken
  leads : walk.Leads rules options after

/-- The action guards the expression whenever it succeeds. -/
def Inserts (rules : GuardRules) (options : GuardOptions) (e : Expr) (action : GuardM Expr) :
    Prop :=
  ∀ walk r after, walk.Ready rules options → e.names ⊆ walk.taken →
    action.runAt walk = (.ok r, after) → walk.GuardsTo rules options walk.nonNull e r after

section Inserts

variable {e r : Expr} {action : GuardM Expr} (h : Inserts rules options e action)
  (hready : walk.Ready rules options) (hnames : e.names ⊆ walk.taken)

include h hready hnames

theorem Inserts.knowing {change : List String → List String}
    (hknown : change walk.nonNull ⊆ walk.taken)
    (hrun : (Walk.knowing change action).runAt walk = (.ok r, after)) :
    walk.GuardsTo rules options (change walk.nonNull) e r after := by
  obtain ⟨inner, hinner, rfl⟩ := runAt_knowing_eq_ok.mp hrun
  obtain ⟨hguards, htaken, hleads⟩ :=
    h { walk with nonNull := change walk.nonNull } r inner ⟨hready.follow, hknown⟩ hnames hinner
  exact ⟨hguards, htaken, hleads.follow, rfl, hleads.taken_subset⟩

theorem Inserts.inBranch {test : Expr} {outcome : Bool} (htest : test.names ⊆ walk.taken)
    (hrun : (Walk.inBranch test outcome action).runAt walk = (.ok r, after)) :
    walk.GuardsTo rules options (test.learned outcome ++ walk.nonNull) e r after := by
  have hknown : test.learned outcome ++ walk.nonNull ⊆ walk.taken :=
    List.append_subset.mpr
      ⟨List.Subset.trans (Expr.learned_subset_names test outcome) htest, hready.known_taken⟩
  exact h.knowing hready hnames hknown hrun

theorem Inserts.below {bound : List String}
    (hrun : (Walk.below bound action).runAt walk = (.ok r, after)) :
    walk.GuardsTo rules options (Expr.unbound walk.nonNull bound) e r after :=
  h.knowing hready hnames
    (List.Subset.trans (Expr.unbound_subset_self _ _) hready.known_taken) hrun

end Inserts

/-- What visiting some of the parts of a node achieves. -/
structure GuardsAllTo (rules : GuardRules) (options : GuardOptions) (walk : Walk)
    (scopes : List (List String × Expr)) (parts : List Expr) (after : Walk) : Prop where
  guards : Forall₂ (fun part part' => Guards rules part.1 part.2 part') scopes parts
  names_taken : ∀ part ∈ parts, part.names ⊆ after.taken
  leads : walk.Leads rules options after

theorem GuardsAllTo.nil (hready : walk.Ready rules options) :
    walk.GuardsAllTo rules options [] [] walk :=
  ⟨.nil, nofun, hready.refl⟩

theorem GuardsTo.cons {known : List String} {e r : Expr} {scopes : List (List String × Expr)}
    {parts : List Expr} (h : walk.GuardsTo rules options known e r middle)
    (hrest : middle.GuardsAllTo rules options scopes parts after) :
    walk.GuardsAllTo rules options ((known, e) :: scopes) (r :: parts) after := by
  refine ⟨.cons h.guards hrest.guards, ?_, h.leads.trans hrest.leads⟩
  exact List.forall_mem_cons.mpr
    ⟨List.Subset.trans h.names_taken hrest.leads.taken_subset, hrest.names_taken⟩

theorem mapM_guardsAllTo {items parts : List Expr} {visit : Expr → GuardM Expr}
    (h : ∀ item ∈ items, Inserts rules options item (visit item))
    (hready : walk.Ready rules options) (hnames : ∀ item ∈ items, item.names ⊆ walk.taken)
    (hrun : (items.mapM visit).runAt walk = (.ok parts, after)) :
    walk.GuardsAllTo rules options (items.map fun item => (walk.nonNull, item)) parts after := by
  induction items generalizing walk parts with
  | nil =>
    obtain ⟨rfl, rfl⟩ : [] = parts ∧ walk = after := by simpa using hrun
    exact .nil hready
  | cons item items ih =>
    rw [List.forall_mem_cons] at h hnames
    rw [List.mapM_cons] at hrun
    obtain ⟨r, middle, hitem, hrun⟩ := GuardM.runAt_bind_eq_ok.mp hrun
    obtain ⟨rest, last, hitems, hrun⟩ := GuardM.runAt_bind_eq_ok.mp hrun
    obtain ⟨rfl, rfl⟩ : r :: rest = parts ∧ last = after := by simpa using hrun
    have hhead := h.1 walk r middle hready hnames.1 hitem
    have htail := ih h.2 (hhead.leads.ready hready)
      (fun item hitem => List.Subset.trans (hnames.2 item hitem) hhead.leads.taken_subset) hitems
    rw [hhead.leads.nonNull_eq] at htail
    exact hhead.cons htail

theorem visitParts_guardsAllTo {e : Expr} {parts : List Expr}
    (h : ∀ part ∈ e.children, Inserts rules options part (part.visit rules.defs options))
    (hready : walk.Ready rules options) (hnames : e.names ⊆ walk.taken)
    (hrun : (visitParts rules.defs options e).runAt walk = (.ok parts, after)) :
    walk.GuardsAllTo rules options (e.scopes walk.nonNull) parts after := by
  replace hnames := (Expr.names_subset_iff.mp hnames).2
  cases e with
  | cond ty test ifTrue ifFalse =>
    simp only [Expr.children, List.forall_mem_cons] at h hnames
    obtain ⟨test', middle, htest, hrun⟩ := GuardM.runAt_bind_eq_ok.mp hrun
    obtain ⟨ifTrue', middle', htrue, hrun⟩ := GuardM.runAt_bind_eq_ok.mp hrun
    obtain ⟨ifFalse', middle'', hfalse, hrun⟩ := GuardM.runAt_bind_eq_ok.mp hrun
    obtain ⟨rfl, rfl⟩ : [test', ifTrue', ifFalse'] = parts ∧ middle'' = after := by
      simpa using hrun
    have hfirst := h.1 walk test' middle hready hnames.1 htest
    have hready' := hfirst.leads.ready hready
    have hsecond := h.2.1.inBranch hready'
      (List.Subset.trans hnames.2.1 hfirst.leads.taken_subset) hfirst.names_taken htrue
    have hready'' := hsecond.leads.ready hready'
    have hthird := h.2.2.1.inBranch hready''
      (List.Subset.trans hnames.2.2.1
        (List.Subset.trans hfirst.leads.taken_subset hsecond.leads.taken_subset))
      (List.Subset.trans hfirst.names_taken hsecond.leads.taken_subset) hfalse
    have hrest := hsecond.cons (hthird.cons (.nil (hthird.leads.ready hready'')))
    simp only [hfirst.guards.learned_eq, hsecond.leads.nonNull_eq, hfirst.leads.nonNull_eq] at hrest
    exact hfirst.cons hrest
  | lambda ty params body =>
    simp only [Expr.children, List.forall_mem_cons] at h hnames
    obtain ⟨body', middle, hbody, hrun⟩ := GuardM.runAt_bind_eq_ok.mp hrun
    obtain ⟨rfl, rfl⟩ : [body'] = parts ∧ middle = after := by simpa using hrun
    have hfirst := h.1.below hready hnames.1 hbody
    exact hfirst.cons (.nil (hfirst.leads.ready hready))
  | bind ty var value body =>
    simp only [Expr.children, List.forall_mem_cons] at h hnames
    obtain ⟨value', middle, hvalue, hrun⟩ := GuardM.runAt_bind_eq_ok.mp hrun
    obtain ⟨body', middle', hbody, hrun⟩ := GuardM.runAt_bind_eq_ok.mp hrun
    obtain ⟨rfl, rfl⟩ : [value', body'] = parts ∧ middle' = after := by simpa using hrun
    have hfirst := h.1 walk value' middle hready hnames.1 hvalue
    have hready' := hfirst.leads.ready hready
    have hsecond := h.2.1.below hready'
      (List.Subset.trans hnames.2.1 hfirst.leads.taken_subset) hbody
    have hrest := hsecond.cons (.nil (hsecond.leads.ready hready'))
    rw [hfirst.leads.nonNull_eq] at hrest
    exact hfirst.cons hrest
  | _ => exact mapM_guardsAllTo h hready hnames hrun

theorem runAt_checkReceiver {e : Expr} {done : Unit}
    (hrun : (checkReceiver e).runAt walk = (.ok done, after)) :
    e.lacksReceiver = false ∧ after = walk := by
  cases e with
  | freeCall ty method args =>
    simp only [checkReceiver] at hrun
    split at hrun
    · cases hrun
    · rename_i h
      exact ⟨by simpa [Expr.lacksReceiver] using h, by simpa [eq_comm] using hrun⟩
  | _ => exact ⟨rfl, by simpa [checkReceiver, eq_comm] using hrun⟩

end Walk

open Walk in
theorem Expr.visit_inserts (rules : GuardRules) (options : GuardOptions) (e : Expr) :
    Inserts rules options e (e.visit rules.defs options) := by
  induction e using Expr.induction_children with
  | step e ih =>
    intro walk r after hready hnames hrun
    rw [visit_eq, runAt_enter_eq_ok] at hrun
    obtain ⟨_, inner, hrun, rfl⟩ := hrun
    obtain ⟨_, first, hcheck, hrun⟩ := GuardM.runAt_bind_eq_ok.mp hrun
    obtain ⟨hcomplete, rfl⟩ := runAt_checkReceiver hcheck
    obtain ⟨parts, middle, hparts, hrun⟩ := GuardM.runAt_bind_eq_ok.mp hrun
    have hready' : walk.deeper.Ready rules options := ⟨hready.follow, hready.known_taken⟩
    have hvisited := visitParts_guardsAllTo ih hready' hnames hparts
    have hnode : (e.withChildren parts).names ⊆ middle.taken := by
      rw [names_subset_iff, ownNames_withChildren,
        children_withChildren (GuardsParts.length_eq hvisited.guards)]
      exact ⟨List.Subset.trans (names_subset_iff.mp hnames).1 hvisited.leads.taken_subset,
        hvisited.names_taken⟩
    have hready'' := hvisited.leads.ready hready'
    have hsealing := sealing_of_runAt hready''.follow hrun
    have hleads := hvisited.leads.trans (hsealing.leads hready'')
    refine ⟨.node hcomplete hvisited.guards ?_, hsealing.names_taken hnode,
      hleads.follow, hleads.nonNull_eq, hleads.taken_subset⟩
    exact hvisited.leads.nonNull_eq ▸ hsealing.seals hnode hready''

/-- The rules of an insertion that starts from a cache. -/
def FallbackCache.rules (cache : FallbackCache) (defs : Definitions) (options : GuardOptions)
    (h : cache.Computed) : GuardRules where
  defs := defs
  fallback := cache.answer defs
  emptyCollections := options.emptyCollections
  emptyInstance := h.emptyInstance

/-- The state from which the guards of an expression are inserted. -/
def Walk.start (cache : FallbackCache) (e : Expr) : Walk :=
  ⟨⟨cache, .reserving e⟩, [], 0, .zero⟩

theorem Expr.insertGuards_eq (defs : Definitions) (options : GuardOptions) (cache : FallbackCache)
    (e : Expr) :
    e.insertGuards defs options cache =
      (((e.visit defs options).runAt (.start cache e)).1.map fun expr =>
        ⟨expr, ((e.visit defs options).runAt (.start cache e)).2.stats⟩,
        ((e.visit defs options).runAt (.start cache e)).2.supplies.cache) :=
  rfl

theorem Expr.insertGuards_eq_ok {defs : Definitions} {options : GuardOptions}
    {cache left : FallbackCache} {e : Expr} {guarded : Guarded} :
    e.insertGuards defs options cache = (.ok guarded, left) ↔
      ∃ after, (e.visit defs options).runAt (.start cache e) = (.ok guarded.expr, after) ∧
        after.stats = guarded.stats ∧ after.supplies.cache = left := by
  obtain ⟨r, stats⟩ := guarded
  rw [insertGuards_eq]
  rcases (e.visit defs options).runAt (.start cache e) with ⟨error | r', after⟩
  · simp [Except.map]
  · simp [Except.map, and_assoc]

theorem Expr.insertGuards_guards {defs : Definitions} {options : GuardOptions}
    {cache left : FallbackCache} {e : Expr} {guarded : Guarded} (h : cache.Computed)
    (hinsert : e.insertGuards defs options cache = (.ok guarded, left)) :
    Guards (cache.rules defs options h) [] e guarded.expr := by
  obtain ⟨after, hvisit, _⟩ := insertGuards_eq_ok.mp hinsert
  have hready : (Walk.start cache e).Ready (cache.rules defs options h) options :=
    ⟨⟨h, rfl, rfl⟩, List.nil_subset _⟩
  exact (e.visit_inserts (cache.rules defs options h) options _ _ _ hready (List.Subset.refl _)
    hvisit).guards

/-! ## The cache that is left -/

open Walk in
/-- An insertion leaves a computed cache computed, with the same answers, also when it fails. -/
theorem Expr.insertGuards_keeps {defs : Definitions} {options : GuardOptions}
    {cache : FallbackCache} (h : cache.Computed) (e : Expr) :
    (e.insertGuards defs options cache).2.Computed ∧
      (e.insertGuards defs options cache).2.answer defs = cache.answer defs := by
  have hkept : KeptBySteps defs options fun walk after => walk.supplies.cache.Computed →
      after.supplies.cache.Computed ∧
        after.supplies.cache.answer defs = walk.supplies.cache.answer defs := by
    refine ⟨fun _ h => ⟨h, rfl⟩, fun first second h => ?_, id, id,
      fun receiver ty rebuild walk hwalk => ?_⟩
    · obtain ⟨hmiddle, hanswer⟩ := first h
      obtain ⟨hafter, hanswer'⟩ := second hmiddle
      exact ⟨hafter, hanswer'.trans hanswer⟩
    · rw [runAt_attach]
      split
      · exact ⟨hwalk, rfl⟩
      · have hfollow : walk.supplies.Follow (walk.supplies.cache.rules defs options hwalk)
            options := ⟨hwalk, rfl, rfl⟩
        obtain ⟨_, _, hprotect⟩ :=
          exists_after_protect _ options walk.supplies.names receiver ty rebuild
        obtain ⟨left, hleft, _, hprotect⟩ := hprotect walk.supplies hfollow rfl
        have hafter := congrArg (·.2.cache) hprotect
        exact ⟨hafter ▸ hleft.computed, hafter ▸ hleft.answer_eq⟩
  exact e.visit_keeps hkept (.start cache e) h

/-- A cache that is used with the same definitions throughout agrees with them. -/
theorem Expr.insertGuards_agrees {defs : Definitions} {options : GuardOptions}
    {cache : FallbackCache} (h : cache.Agrees defs) (e : Expr) :
    (e.insertGuards defs options cache).2.Agrees defs := by
  exact FallbackCache.agrees_iff.mpr ((insertGuards_keeps h.computed e).2.trans h.answer_eq)

end NullGuard
