import NullGuard.Proofs.Guard.Insert

/-! # Inserting guards twice

A tree is settled if each of its receivers goes without a guard where it stands. Guards leave a
settled tree behind, and a walk over a settled tree changes nothing, whatever its options are. -/

namespace NullGuard

open List (Forall₂)

/-- A node that is kept as it is where the parameters `known` are not null. -/
def Expr.Settled (defs : Definitions) (known : List String) (node : Expr) : Prop :=
  node.lacksReceiver = false ∧
    ∀ receiver, node.receiver? = some receiver → receiver.NeedsNoGuard defs known

/-! ## Guards leave a settled tree -/

namespace Expr

theorem NeedsNoGuard.mono {defs : Definitions} {known other : List String} {receiver : Expr}
    (h : receiver.NeedsNoGuard defs known) (hknown : known ⊆ other) :
    receiver.NeedsNoGuard defs other :=
  h.imp_right fun ⟨ty, name, heq, hname⟩ => ⟨ty, name, heq, hknown hname⟩

theorem settled_of_receiver? {defs : Definitions} {known : List String} {node receiver : Expr}
    (h : node.receiver? = some receiver) (hsafe : receiver.NeedsNoGuard defs known) :
    node.Settled defs known := by
  refine ⟨lacksReceiver_of_receiver? h, fun other hother => ?_⟩
  cases h.symm.trans hother
  exact hsafe

theorem settled_of_isPlain {defs : Definitions} {known : List String} {e : Expr}
    (h : e.isPlain = true) : e.Settled defs known := by
  cases e with
  | member | call | freeCall => cases h
  | _ => exact ⟨rfl, nofun⟩

end Expr

theorem GuardedReceiver.needsNoGuard {defs : Definitions} {known : List String} {receiver : Expr}
    (h : GuardedReceiver known receiver) : receiver.NeedsNoGuard defs known := by
  cases h with
  | alternative hrecipe =>
    exact .inl (by simp [Expr.coalesceOf, Expr.isSafe, hrecipe.isSafe])
  | known hname => exact .inr ⟨_, _, rfl, hname⟩

theorem Guards.settled {rules : GuardRules} {known : List String} {e r : Expr}
    (h : Guards rules known e r) : r.Throughout (Expr.Settled rules.defs) known := by
  refine h.throughout ?mono Expr.settled_of_isPlain ?guarded (Expr.every ?kept e)
  case mono =>
    intro known other e hknown hsettled
    exact ⟨hsettled.1, fun receiver hreceiver => (hsettled.2 receiver hreceiver).mono hknown⟩
  case guarded =>
    intro known node receiver hreceiver hguarded
    exact Expr.settled_of_receiver? hreceiver hguarded.needsNoGuard
  case kept =>
    intro node known parts hcomplete hparts hsafe
    exact ⟨(Expr.lacksReceiver_withChildren (GuardsParts.length_eq hparts)).trans hcomplete, hsafe⟩

/-! ## A walk over a settled tree -/

namespace Walk

variable {defs : Definitions} {options : GuardOptions} {walk : Walk}

/-- The state after a walk over that many nodes that inserts nothing. -/
def counting (walk : Walk) (nodes : Nat) : Walk :=
  { walk with stats := { walk.stats with nodesVisited := walk.stats.nodesVisited + nodes } }

@[simp] theorem counting_zero (walk : Walk) : walk.counting 0 = walk :=
  rfl

@[simp] theorem counting_counting (walk : Walk) (first second : Nat) :
    (walk.counting first).counting second = walk.counting (first + second) := by
  simp [counting, Nat.add_assoc]

/-- The action gives the expression back if there is room for it and it is settled. -/
def Stays (defs : Definitions) (options : GuardOptions) (e : Expr) (action : GuardM Expr) : Prop :=
  ∀ walk, e.Throughout (Expr.Settled defs) walk.nonNull →
    walk.depth + e.depth ≤ options.maxDepth →
    action.runAt walk = (.ok e, walk.counting e.nodeCount)

theorem Stays.knowing {e : Expr} {action : GuardM Expr} (h : Stays defs options e action)
    {change : List String → List String}
    (hsettled : e.Throughout (Expr.Settled defs) (change walk.nonNull))
    (hdepth : walk.depth + e.depth ≤ options.maxDepth) :
    (Walk.knowing change action).runAt walk = (.ok e, walk.counting e.nodeCount) := by
  rw [runAt_knowing, h { walk with nonNull := change walk.nonNull } hsettled hdepth]
  rfl

theorem mapM_stays {items : List Expr} {visit : Expr → GuardM Expr}
    (h : ∀ item ∈ items, Stays defs options item (visit item))
    (hsettled : ∀ item ∈ items, item.Throughout (Expr.Settled defs) walk.nonNull)
    (hdepth : ∀ item ∈ items, walk.depth + item.depth ≤ options.maxDepth) :
    (items.mapM visit).runAt walk =
      (.ok items, walk.counting (Expr.total (items.map Expr.nodeCount))) := by
  induction items generalizing walk with
  | nil => rfl
  | cons item items ih =>
    rw [List.forall_mem_cons] at h hsettled hdepth
    have hrest : (items.mapM visit).runAt (walk.counting item.nodeCount) = _ :=
      ih h.2 hsettled.2 hdepth.2
    rw [List.mapM_cons, GuardM.runAt_bind_of_ok (h.1 walk hsettled.1 hdepth.1),
      GuardM.runAt_bind_of_ok hrest]
    simp

theorem visitParts_stays {e : Expr}
    (h : ∀ part ∈ e.children, Stays defs options part (part.visit defs options))
    (hsettled : ∀ part ∈ e.scopes walk.nonNull, part.2.Throughout (Expr.Settled defs) part.1)
    (hdepth : ∀ part ∈ e.children, walk.depth + part.depth ≤ options.maxDepth) :
    (visitParts defs options e).runAt walk =
      (.ok e.children, walk.counting (Expr.total (e.children.map Expr.nodeCount))) := by
  cases e with
  | cond ty test ifTrue ifFalse =>
    simp only [Expr.children, Expr.scopes, List.forall_mem_cons] at h hsettled hdepth
    have htrue : (inBranch test true (ifTrue.visit defs options)).runAt
        (walk.counting test.nodeCount) = _ := h.2.1.knowing hsettled.2.1 hdepth.2.1
    have hfalse : (inBranch test false (ifFalse.visit defs options)).runAt
        ((walk.counting test.nodeCount).counting ifTrue.nodeCount) = _ :=
      h.2.2.1.knowing hsettled.2.2.1 hdepth.2.2.1
    unfold visitParts
    rw [GuardM.runAt_bind_of_ok (h.1 walk hsettled.1 hdepth.1), GuardM.runAt_bind_of_ok htrue,
      GuardM.runAt_bind_of_ok hfalse]
    simp [Expr.children, Nat.add_assoc]
  | lambda ty params body =>
    simp only [Expr.children, Expr.scopes, List.forall_mem_cons] at h hsettled hdepth
    have hbody : (below (params.map (·.name)) (body.visit defs options)).runAt walk = _ :=
      h.1.knowing hsettled.1 hdepth.1
    unfold visitParts
    rw [GuardM.runAt_bind_of_ok hbody]
    simp [Expr.children]
  | bind ty var value body =>
    simp only [Expr.children, Expr.scopes, List.forall_mem_cons] at h hsettled hdepth
    have hbody : (below [var.name] (body.visit defs options)).runAt
        (walk.counting value.nodeCount) = _ := h.2.1.knowing hsettled.2.1 hdepth.2.1
    unfold visitParts
    rw [GuardM.runAt_bind_of_ok (h.1 walk hsettled.1 hdepth.1), GuardM.runAt_bind_of_ok hbody]
    simp [Expr.children]
  | _ => exact mapM_stays h (by simpa [Expr.scopes] using hsettled) hdepth

theorem runAt_checkReceiver_of_complete {e : Expr} (h : e.lacksReceiver = false) :
    (checkReceiver e).runAt walk = (.ok (), walk) := by
  cases e with
  | freeCall ty method args =>
    simp only [Expr.lacksReceiver] at h
    simp [checkReceiver, h]
  | _ => rfl

theorem sealNode_stays {node : Expr} (h : node.Settled defs walk.nonNull) :
    (sealNode defs options node).runAt walk = (.ok node, walk) := by
  unfold sealNode
  cases hreceiver : node.receiver? with
  | none => rfl
  | some receiver =>
    dsimp only
    rw [runAt_attach_of_needsNoGuard node.ty node.withReceiver (h.2 receiver hreceiver),
      Expr.withReceiver_self hreceiver]

end Walk

open Walk in
theorem Expr.visit_stays (defs : Definitions) (options : GuardOptions) (e : Expr) :
    Stays defs options e (e.visit defs options) := by
  induction e using Expr.induction_children with
  | step e ih =>
    intro walk hsettled hdepth
    have hroom : walk.depth < options.maxDepth := by
      rw [depth_eq] at hdepth
      omega
    have hparts : ∀ part ∈ e.children, walk.deeper.depth + part.depth ≤ options.maxDepth := by
      intro part hpart
      have := depth_lt_of_mem_children hpart
      simp only [deeper]
      omega
    have hvisit : (visitParts defs options e).runAt walk.deeper = _ :=
      visitParts_stays ih (fun _ => hsettled.of_mem_scopes) hparts
    have hseal : (sealNode defs options e).runAt
        (walk.deeper.counting (total (e.children.map nodeCount))) = _ :=
      sealNode_stays hsettled.here
    rw [visit_eq, runAt_enter_of_lt _ hroom,
      GuardM.runAt_bind_of_ok (runAt_checkReceiver_of_complete hsettled.here.1),
      GuardM.runAt_bind_of_ok hvisit, withChildren_children, hseal, nodeCount_eq]
    simp [counting, deeper]
    omega

/-- Inserting guards into an expression that has its guards changes nothing, also with other
options and with a cache that has seen other types, as long as the depth allows for the guards. -/
theorem Expr.insertGuards_of_insertGuards {defs : Definitions} {options options' : GuardOptions}
    {cache cache' left : FallbackCache} {e : Expr} {first : Guarded} (hcache : cache.Computed)
    (hfirst : e.insertGuards defs options cache = (.ok first, left))
    (hdepth : first.expr.depth ≤ options'.maxDepth) :
    ∃ second, first.expr.insertGuards defs options' cache' = (.ok second, cache') ∧
      second.expr = first.expr ∧ second.stats.guards = 0 := by
  have hsettled := (insertGuards_guards hcache hfirst).settled
  have hvisit := first.expr.visit_stays defs options' (.start cache' first.expr) hsettled
    (by simpa [Walk.start] using hdepth)
  exact ⟨⟨first.expr, ⟨_, 0, 0⟩⟩, insertGuards_eq_ok.mpr ⟨_, hvisit, rfl, rfl⟩, rfl, rfl⟩

/-- `p.Age.Value` for an object `p`. -/
def nestedRead : Expr :=
  .member .int (.member (.nullable .int) (.param .object "p") "Age" .object) "Value"
    (.nullable .int)

/-- The second walk, in which short circuits prefer empty instances, leaves both guards of the
first one as they are. -/
theorem insertGuards_nestedRead_twice :
    ∃ first left, nestedRead.insertGuards .empty {} .empty = (.ok first, left) ∧
      first.stats.guards = 2 ∧
      ∃ second, first.expr.insertGuards .empty ⟨6, true⟩ .empty = (.ok second, .empty) ∧
        second.expr = first.expr ∧ second.stats.guards = 0 := by
  have hfirst : ∃ first left, nestedRead.insertGuards .empty {} .empty = (.ok first, left) ∧
      first.stats.guards = 2 ∧ first.expr.depth ≤ 6 := ⟨_, _, by cbv, by cbv, by cbv⟩
  obtain ⟨first, left, hfirst, hguards, hdepth⟩ := hfirst
  exact ⟨first, left, hfirst, hguards,
    Expr.insertGuards_of_insertGuards FallbackCache.empty_computed hfirst hdepth⟩

end NullGuard
