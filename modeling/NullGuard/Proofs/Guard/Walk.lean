import NullGuard.Guard.Insert
import NullGuard.Proofs.Expr.Parts
import NullGuard.Proofs.Guard.Scope
import NullGuard.Proofs.Run

/-! # The walk that inserts guards

Every node is treated in the same three steps: its receiver must be there, its parts are visited,
and the node around them is sealed at its receiver. The walk undoes by hand what it changes of its
context for a part. That comes to putting the earlier context back, since the parts restore it too,
and the form that puts it back is the one to reason with. -/

namespace NullGuard

/-! ## Steps of a walk -/

/-- The outcome of an action at a state of the walk, and the state that it leaves. -/
def GuardM.runAt {α : Type} (action : GuardM α) (walk : Walk) : Except GuardError α × Walk :=
  action.run walk

namespace GuardM

variable {α β : Type} {walk after : Walk}

@[simp] theorem runAt_pure (a : α) (walk : Walk) : (pure a : GuardM α).runAt walk = (.ok a, walk) :=
  rfl

theorem runAt_get (walk : Walk) : (get : GuardM Walk).runAt walk = (.ok walk, walk) :=
  rfl

theorem runAt_bind (action : GuardM α) (next : α → GuardM β) (walk : Walk) :
    (action >>= next).runAt walk =
      match action.runAt walk with
      | (.ok a, middle) => (next a).runAt middle
      | (.error error, middle) => (.error error, middle) := by
  rcases haction : action.runAt walk with ⟨error | a, middle⟩
  · exact runFrom_bind_of_error haction
  · exact runFrom_bind_of_ok haction

theorem runAt_bind_eq_ok {action : GuardM α} {next : α → GuardM β} {b : β} :
    (action >>= next).runAt walk = (.ok b, after) ↔
      ∃ a middle, action.runAt walk = (.ok a, middle) ∧ (next a).runAt middle = (.ok b, after) :=
  runFrom_bind_eq_ok

theorem runAt_bind_of_ok {action : GuardM α} {next : α → GuardM β} {a : α} {middle : Walk}
    (h : action.runAt walk = (.ok a, middle)) :
    (action >>= next).runAt walk = (next a).runAt middle :=
  runFrom_bind_of_ok h

end GuardM

/-! ## Putting the context back -/

namespace Walk

/-- Counts a node and runs an action one level deeper, unless the level is too deep, and puts the
depth back. -/
def enter {α : Type} (maxDepth : Nat) (action : GuardM α) : GuardM α := do
  let depth := (← get).depth
  if maxDepth ≤ depth then
    throw (.depthExceeded maxDepth)
  modify fun walk =>
    { walk with
      depth := depth + 1
      stats := { walk.stats with nodesVisited := walk.stats.nodesVisited + 1 } }
  finishing (fun walk => { walk with depth }) action

/-- Runs an action with other knowledge of parameters and puts the present one back. -/
def knowing {α : Type} (change : List String → List String) (action : GuardM α) : GuardM α :=
  ExceptT.mk fun walk =>
    let (result, after) := action.run { walk with nonNull := change walk.nonNull }
    (result, { after with nonNull := walk.nonNull })

/-- Runs an action with what the branch of a condition tells. -/
def inBranch {α : Type} (test : Expr) (outcome : Bool) (action : GuardM α) : GuardM α :=
  knowing (test.learned outcome ++ ·) action

/-- Runs an action without what is known about names that are bound there. -/
def below {α : Type} (bound : List String) (action : GuardM α) : GuardM α :=
  knowing (Expr.unbound · bound) action

variable {α : Type}

/-- The state in which the parts of a node are visited, the node itself being counted. -/
def deeper (walk : Walk) : Walk :=
  { walk with
    depth := walk.depth + 1
    stats := { walk.stats with nodesVisited := walk.stats.nodesVisited + 1 } }

theorem runAt_enter_of_le {maxDepth : Nat} (action : GuardM α) {walk : Walk}
    (h : maxDepth ≤ walk.depth) :
    (enter maxDepth action).runAt walk = (.error (.depthExceeded maxDepth), walk) := by
  unfold enter
  rw [GuardM.runAt_bind_of_ok (GuardM.runAt_get walk)]
  simp only [h, if_true]
  rfl

theorem runAt_enter_of_lt {maxDepth : Nat} (action : GuardM α) {walk : Walk}
    (h : walk.depth < maxDepth) :
    (enter maxDepth action).runAt walk =
      ((action.runAt walk.deeper).1,
        { (action.runAt walk.deeper).2 with depth := walk.depth }) := by
  unfold enter
  rw [GuardM.runAt_bind_of_ok (GuardM.runAt_get walk)]
  simp only [Nat.not_le.mpr h, if_false]
  rfl

theorem runAt_enter_eq_ok {maxDepth : Nat} {action : GuardM α} {walk after : Walk} {a : α} :
    (enter maxDepth action).runAt walk = (.ok a, after) ↔
      walk.depth < maxDepth ∧
        ∃ inner, action.runAt walk.deeper = (.ok a, inner) ∧
          { inner with depth := walk.depth } = after := by
  by_cases h : walk.depth < maxDepth
  · rw [runAt_enter_of_lt action h]
    rcases action.runAt walk.deeper with ⟨result, inner⟩
    simp [h, and_comm]
  · rw [runAt_enter_of_le action (Nat.not_lt.mp h)]
    simp [h]

theorem runAt_knowing (change : List String → List String) (action : GuardM α) (walk : Walk) :
    (knowing change action).runAt walk =
      ((action.runAt { walk with nonNull := change walk.nonNull }).1,
        { (action.runAt { walk with nonNull := change walk.nonNull }).2 with
          nonNull := walk.nonNull }) :=
  rfl

theorem runAt_knowing_eq_ok {change : List String → List String} {action : GuardM α}
    {walk after : Walk} {a : α} :
    (knowing change action).runAt walk = (.ok a, after) ↔
      ∃ inner, action.runAt { walk with nonNull := change walk.nonNull } = (.ok a, inner) ∧
        { inner with nonNull := walk.nonNull } = after := by
  rw [runAt_knowing]
  rcases action.runAt { walk with nonNull := change walk.nonNull } with ⟨result, inner⟩
  simp

/-! ## The steps of a node -/

/-- Stops at an extension call without arguments. -/
def checkReceiver : Expr → GuardM Unit
  | .freeCall _ method args =>
    if method.isExtension && args.isEmpty then throw (.missingReceiver method.name) else pure ()
  | _ => pure ()

/-- Visits the direct parts of a node in order, each with what is known there. -/
def visitParts (defs : Definitions) (options : GuardOptions) : Expr → GuardM (List Expr)
  | .cond _ test ifTrue ifFalse => do
    let test ← test.visit defs options
    let ifTrue ← inBranch test true (ifTrue.visit defs options)
    let ifFalse ← inBranch test false (ifFalse.visit defs options)
    return [test, ifTrue, ifFalse]
  | .lambda _ params body => do
    return [← below (params.map (·.name)) (body.visit defs options)]
  | .bind _ var value body => do
    let value ← value.visit defs options
    let body ← below [var.name] (body.visit defs options)
    return [value, body]
  | e => e.children.mapM fun part => part.visit defs options

/-- Guards a node whose parts are visited already, if it has a receiver. -/
def sealNode (defs : Definitions) (options : GuardOptions) (node : Expr) : GuardM Expr :=
  match node.receiver? with
  | some receiver => attach defs options receiver node.ty node.withReceiver
  | none => pure node

/-- Treats a node after its parts. -/
def visitNode (defs : Definitions) (options : GuardOptions) (e : Expr) : GuardM Expr := do
  checkReceiver e
  let parts ← visitParts defs options e
  sealNode defs options (e.withChildren parts)

end Walk

/-! ## What holds of all walks -/

/-- A property of actions that the steps of a walk have and that passes from actions to what is
made of them. -/
structure GuardM.Closed (defs : Definitions) (options : GuardOptions)
    (P : {α : Type} → GuardM α → Prop) : Prop where
  ok {α : Type} (a : α) : P (pure a : GuardM α)
  error {α : Type} (error : GuardError) : P (throw error : GuardM α)
  bind {α β : Type} {action : GuardM α} {next : α → GuardM β} : P action → (∀ a, P (next a)) →
    P (action >>= next)
  enter {α : Type} {action : GuardM α} (maxDepth : Nat) : P action → P (Walk.enter maxDepth action)
  knowing {α : Type} {action : GuardM α} (change : List String → List String) : P action →
    P (Walk.knowing change action)
  attach (receiver : Expr) (ty : Ty) (rebuild : Expr → Expr) :
    P (Walk.attach defs options receiver ty rebuild)

section Closed

open Walk

variable {α β : Type} {defs : Definitions} {options : GuardOptions}
  {P : {α : Type} → GuardM α → Prop} (h : GuardM.Closed defs options P)

include h

theorem GuardM.Closed.mapM {items : List α} {visit : α → GuardM β}
    (hitems : ∀ item ∈ items, P (visit item)) : P (items.mapM visit) := by
  induction items with
  | nil => exact h.ok []
  | cons item items ih =>
    rw [List.forall_mem_cons] at hitems
    rw [List.mapM_cons]
    exact h.bind hitems.1 fun _ => h.bind (ih hitems.2) fun _ => h.ok _

theorem GuardM.Closed.checkReceiver (e : Expr) : P (Walk.checkReceiver e) := by
  unfold Walk.checkReceiver
  split
  · split
    · exact h.error _
    · exact h.ok ()
  · exact h.ok ()

theorem GuardM.Closed.visitParts {e : Expr}
    (hparts : ∀ part ∈ e.children, P (part.visit defs options)) :
    P (Walk.visitParts defs options e) := by
  cases e with
  | cond ty test ifTrue ifFalse =>
    simp only [Expr.children, List.forall_mem_cons] at hparts
    exact h.bind hparts.1 fun test' => h.bind (h.knowing _ hparts.2.1) fun _ =>
      h.bind (h.knowing _ hparts.2.2.1) fun _ => h.ok _
  | lambda ty params body =>
    simp only [Expr.children, List.forall_mem_cons] at hparts
    exact h.bind (h.knowing _ hparts.1) fun _ => h.ok _
  | bind ty var value body =>
    simp only [Expr.children, List.forall_mem_cons] at hparts
    exact h.bind hparts.1 fun _ => h.bind (h.knowing _ hparts.2.1) fun _ => h.ok _
  | _ => exact h.mapM hparts

theorem GuardM.Closed.sealNode (node : Expr) : P (Walk.sealNode defs options node) := by
  unfold Walk.sealNode
  split
  · exact h.attach _ _ _
  · exact h.ok _

theorem GuardM.Closed.visitNode {e : Expr}
    (hparts : ∀ part ∈ e.children, P (part.visit defs options)) :
    P (Walk.visitNode defs options e) :=
  h.bind (h.checkReceiver e) fun _ => h.bind (h.visitParts hparts) fun _ => h.sealNode _

end Closed

/-! ### What a walk keeps -/

/-- However the action ends, its last state is related to its first one. -/
def GuardM.Keeps {α : Type} (rel : Walk → Walk → Prop) (action : GuardM α) : Prop :=
  ∀ walk, rel walk (action.runAt walk).2

/-- A relation that holds between the first and the last state of each step of a walk. -/
structure Walk.KeptBySteps (defs : Definitions) (options : GuardOptions)
    (rel : Walk → Walk → Prop) : Prop where
  refl (walk : Walk) : rel walk walk
  trans {walk middle after : Walk} : rel walk middle → rel middle after → rel walk after
  enter {walk inner : Walk} : rel walk.deeper inner → rel walk { inner with depth := walk.depth }
  knowing {walk inner : Walk} {known : List String} :
    rel { walk with nonNull := known } inner → rel walk { inner with nonNull := walk.nonNull }
  attach (receiver : Expr) (ty : Ty) (rebuild : Expr → Expr) :
    (Walk.attach defs options receiver ty rebuild).Keeps rel

section Keeps

open Walk

variable {defs : Definitions} {options : GuardOptions} {rel : Walk → Walk → Prop}
  (h : Walk.KeptBySteps defs options rel)

include h

theorem Walk.KeptBySteps.closed : GuardM.Closed defs options fun action => action.Keeps rel where
  ok _ := h.refl
  error _ := h.refl
  bind := by
    intro α β action next haction hnext walk
    have hfirst := haction walk
    rw [GuardM.runAt_bind]
    rcases hrun : action.runAt walk with ⟨error | a, middle⟩
    all_goals rw [hrun] at hfirst
    · exact hfirst
    · exact h.trans hfirst (hnext a middle)
  enter := by
    intro α action maxDepth haction walk
    by_cases hdepth : walk.depth < maxDepth
    · rw [runAt_enter_of_lt action hdepth]
      exact h.enter (haction walk.deeper)
    · rw [runAt_enter_of_le action (Nat.not_lt.mp hdepth)]
      exact h.refl walk
  knowing change haction walk := h.knowing (haction { walk with nonNull := change walk.nonNull })
  attach := h.attach

end Keeps

/-! ## The context of a walk -/

/-- The depth and the knowledge of a walk are what they were. -/
structure Walk.SameContext (walk after : Walk) : Prop where
  depth_eq : after.depth = walk.depth
  nonNull_eq : after.nonNull = walk.nonNull

namespace Walk

variable {α : Type} {defs : Definitions} {options : GuardOptions} {action : GuardM α}

theorem SameContext.with_nonNull {walk after : Walk} (h : walk.SameContext after) :
    { after with nonNull := walk.nonNull } = after := by
  rw [← h.nonNull_eq]

theorem attach_sameContext (receiver : Expr) (ty : Ty) (rebuild : Expr → Expr) :
    (attach defs options receiver ty rebuild).Keeps SameContext := by
  intro walk
  unfold attach
  rw [GuardM.runAt_bind_of_ok (GuardM.runAt_get walk)]
  dsimp only
  generalize (receiver.isSafe defs || _) = safe
  cases safe <;> exact ⟨rfl, rfl⟩

theorem keptBySteps_sameContext (defs : Definitions) (options : GuardOptions) :
    KeptBySteps defs options SameContext where
  refl _ := ⟨rfl, rfl⟩
  trans h h' := ⟨h'.depth_eq.trans h.depth_eq, h'.nonNull_eq.trans h.nonNull_eq⟩
  enter h := ⟨rfl, h.nonNull_eq⟩
  knowing h := ⟨h.depth_eq, rfl⟩
  attach := attach_sameContext

/-! ### What is undone by hand -/

theorem descend_eq_enter (h : action.Keeps SameContext) (maxDepth : Nat) :
    descend maxDepth action = enter maxDepth action := by
  funext walk
  by_cases hdepth : walk.depth < maxDepth
  · have hback : (action.runAt walk.deeper).2.depth - 1 = walk.depth := by
      rw [(h walk.deeper).depth_eq, deeper, Nat.add_sub_cancel]
    refine Eq.trans ?_ (runAt_enter_of_lt action hdepth).symm
    change (descend maxDepth action).runAt walk = _
    unfold descend
    rw [GuardM.runAt_bind_of_ok (GuardM.runAt_get walk), if_neg (Nat.not_le.mpr hdepth), ← hback]
    rfl
  · refine Eq.trans ?_ (runAt_enter_of_le action (Nat.not_lt.mp hdepth)).symm
    change (descend maxDepth action).runAt walk = _
    unfold descend
    rw [GuardM.runAt_bind_of_ok (GuardM.runAt_get walk), if_pos (Nat.not_lt.mp hdepth)]
    rfl

theorem assuming_eq_knowing (h : action.Keeps SameContext) (name : String) :
    assuming name action = knowing (name :: ·) action := by
  funext walk
  let entered : Walk := { walk with nonNull := name :: walk.nonNull }
  have hback : (action.runAt entered).2.nonNull.tail = walk.nonNull := by
    rw [(h entered).nonNull_eq, List.tail_cons]
  refine Eq.trans ?_ (runAt_knowing (name :: ·) action walk).symm
  exact Prod.ext rfl
    (congrArg (fun known => { (action.runAt entered).2 with nonNull := known }) hback)

theorem branch_eq_inBranch (h : action.Keeps SameContext) (test : Expr) (outcome : Bool) :
    branch test outcome action = inBranch test outcome action := by
  have hnothing : action = knowing (fun known => known) action := by
    funext walk
    exact Prod.ext rfl (h walk).with_nonNull.symm
  unfold branch inBranch Expr.learned
  cases htest : test.nullTest? with
  | none => exact hnothing
  | some found =>
    obtain ⟨name, whenNull⟩ := found
    by_cases houtcome : whenNull = outcome
    · simpa only [if_pos houtcome, List.nil_append] using hnothing
    · simpa only [if_neg houtcome, List.singleton_append] using assuming_eq_knowing h name

theorem rebinding_eq_below (h : action.Keeps SameContext) (bound : List String) :
    rebinding bound action = below bound action := by
  funext walk
  change (rebinding bound action).runAt walk = (below bound action).runAt walk
  unfold rebinding
  rw [GuardM.runAt_bind_of_ok (GuardM.runAt_get walk)]
  dsimp only
  split
  · rfl
  next hnone =>
    have hsame : Expr.unbound walk.nonNull bound = walk.nonNull := by
      rw [Expr.unbound, List.filter_eq_self]
      simpa using hnone
    unfold below
    rw [runAt_knowing, hsame]
    exact Prod.ext rfl (h walk).with_nonNull.symm

end Walk

open Walk

variable {defs : Definitions} {options : GuardOptions}

theorem Expr.visit_eq_descend {e : Expr}
    (hparts : ∀ part ∈ e.children, (part.visit defs options).Keeps SameContext) :
    e.visit defs options = descend options.maxDepth (visitNode defs options e) := by
  cases e with
  | member | call =>
    rw [Expr.visit]
    simp [visitNode, checkReceiver, visitParts, children, mapMembersM_eq_mapM]
    rfl
  | freeCall ty method args =>
    rw [Expr.visit]
    by_cases hext : method.isExtension = true
    · cases args with
      | nil => simp [visitNode, checkReceiver, hext]
      | cons receiver rest =>
        simp [visitNode, checkReceiver, visitParts, sealNode, receiver?, withChildren, children,
          mapMembersM_eq_mapM, hext]
        rfl
    · rw [Bool.not_eq_true] at hext
      simp [visitNode, checkReceiver, visitParts, sealNode, receiver?, withChildren, children,
        mapMembersM_eq_mapM, hext]
  | cond ty test ifTrue ifFalse =>
    simp only [children, List.forall_mem_cons] at hparts
    rw [Expr.visit]
    simp [visitNode, checkReceiver, visitParts, withChildren, sealNode, receiver?,
      branch_eq_inBranch hparts.2.1, branch_eq_inBranch hparts.2.2.1]
  | lambda ty params body =>
    simp only [children, List.forall_mem_cons] at hparts
    rw [Expr.visit]
    simp [visitNode, checkReceiver, visitParts, withChildren, sealNode, receiver?,
      rebinding_eq_below hparts.1]
  | bind ty var value body =>
    simp only [children, List.forall_mem_cons] at hparts
    rw [Expr.visit]
    simp [visitNode, checkReceiver, visitParts, withChildren, sealNode, receiver?,
      rebinding_eq_below hparts.2.1]
  | _ =>
    rw [Expr.visit, mapChildrenM_eq]
    · simp [visitNode, checkReceiver, visitParts, sealNode, receiver?, withChildren, children]
      try rfl
    all_goals
      intros
      contradiction

/-- Every path out of a visit undoes what it has changed. -/
theorem Expr.visit_sameContext (e : Expr) : (e.visit defs options).Keeps SameContext := by
  induction e using Expr.induction_children with
  | step e ih =>
    have hclosed := (keptBySteps_sameContext defs options).closed
    rw [visit_eq_descend ih, descend_eq_enter (hclosed.visitNode ih)]
    exact hclosed.enter _ (hclosed.visitNode ih)

theorem Expr.visit_eq (defs : Definitions) (options : GuardOptions) (e : Expr) :
    e.visit defs options = enter options.maxDepth (do
      checkReceiver e
      let parts ← visitParts defs options e
      sealNode defs options (e.withChildren parts)) := by
  have hparts : ∀ part ∈ e.children, (part.visit defs options).Keeps SameContext :=
    fun part _ => part.visit_sameContext
  rw [visit_eq_descend hparts,
    descend_eq_enter ((keptBySteps_sameContext defs options).closed.visitNode hparts)]
  rfl

theorem Expr.visit_closed {P : {α : Type} → GuardM α → Prop} (h : GuardM.Closed defs options P)
    (e : Expr) : P (e.visit defs options) := by
  induction e using Expr.induction_children with
  | step e ih =>
    rw [visit_eq]
    exact h.enter _ (h.visitNode ih)

theorem Expr.visit_keeps {rel : Walk → Walk → Prop} (h : KeptBySteps defs options rel) (e : Expr) :
    (e.visit defs options).Keeps rel :=
  e.visit_closed h.closed

end NullGuard
