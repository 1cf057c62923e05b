import NullGuard.Expr.Basic

/-!
Walks over the parts of an expression: folding a tree from its leaves up, and replacing the
direct parts of a node in the order of evaluation.
-/

namespace NullGuard

/-- Runs an action on the items of a list in order. The action knows that its item is one. -/
def mapMembersM {m : Type → Type} [Monad m] {α β : Type} :
    (items : List α) → ((item : α) → item ∈ items → m β) → m (List β)
  | [], _ => pure []
  | item :: items, f => do
    let first ← f item List.mem_cons_self
    let rest ← mapMembersM items fun other h => f other (List.mem_cons_of_mem item h)
    return first :: rest

namespace Expr

/-- Replaces each direct part by what the action gives for it. Type and all else of the node
stay. -/
def mapChildrenM {m : Type → Type} [Monad m] (e : Expr)
    (f : (child : Expr) → child ∈ e.children → m Expr) : m Expr :=
  match e, f with
  | param ty name, _ => pure (param ty name)
  | literal ty value, _ => pure (literal ty value)
  | default ty, _ => pure (default ty)
  | staticMember ty name declaring, _ => pure (staticMember ty name declaring)
  | member ty target name declaring, f => do
    return member ty (← f target (by simp [children])) name declaring
  | call ty object method args, f => do
    let object' ← f object (by simp [children])
    let args' ← mapMembersM args fun arg h => f arg (by simp [children, h])
    return call ty object' method args'
  | freeCall ty method args, f => do
    return freeCall ty method (← mapMembersM args f)
  | lambda ty params body, f => do
    return lambda ty params (← f body (by simp [children]))
  | binary ty op left right, f => do
    let left' ← f left (by simp [children])
    let right' ← f right (by simp [children])
    return binary ty op left' right'
  | unary ty op operand, f => do
    return unary ty op (← f operand (by simp [children]))
  | coalesce ty left right, f => do
    let left' ← f left (by simp [children])
    let right' ← f right (by simp [children])
    return coalesce ty left' right'
  | cond ty test ifTrue ifFalse, f => do
    let test' ← f test (by simp [children])
    let ifTrue' ← f ifTrue (by simp [children])
    let ifFalse' ← f ifFalse (by simp [children])
    return cond ty test' ifTrue' ifFalse'
  | convert ty operand, f => do
    return convert ty (← f operand (by simp [children]))
  | construct ty args, f => do
    return construct ty (← mapMembersM args f)
  | newArray ty elements, f => do
    return newArray ty (← mapMembersM elements f)
  | index ty target position, f => do
    let target' ← f target (by simp [children])
    let position' ← f position (by simp [children])
    return index ty target' position'
  | bind ty var value body, f => do
    let value' ← f value (by simp [children])
    let body' ← f body (by simp [children])
    return bind ty var value' body'

/-- The value of a tree from the node and the values of its direct parts. -/
def fold {α : Type} (f : Expr → List α → α) (e : Expr) : α :=
  f e (e.children.attach.map fun child => fold f child.val)
termination_by sizeOf e
decreasing_by exact sizeOf_lt_of_mem_children child.property

theorem fold_eq {α : Type} (f : Expr → List α → α) (e : Expr) :
    fold f e = f e (e.children.map (fold f)) := by
  rw [fold, List.attach_map_val]

/-- Induction in which the direct parts are reached by membership. -/
theorem induction_children {motive : Expr → Prop}
    (step : ∀ e, (∀ child ∈ e.children, motive child) → motive e) (e : Expr) : motive e :=
  step e fun child _ => induction_children step child
termination_by sizeOf e
decreasing_by exact sizeOf_lt_of_mem_children ‹_›

/-! ### Measures -/

/-- The counts of all parts together. -/
def total (counts : List Nat) : Nat :=
  counts.foldr (· + ·) 0

@[simp] theorem total_nil : total [] = 0 := rfl

@[simp] theorem total_cons (count : Nat) (counts : List Nat) :
    total (count :: counts) = count + total counts := rfl

@[simp] theorem total_append (counts others : List Nat) :
    total (counts ++ others) = total counts + total others := by
  induction counts with
  | nil => simp
  | cons count counts ih => simp [ih, Nat.add_assoc]

/-- The number of nodes. -/
def nodeCount : Expr → Nat :=
  fold fun _ counts => total counts + 1

/-- The number of nodes on the longest path from the root to a leaf. -/
def depth : Expr → Nat :=
  fold fun _ depths => depths.foldl max 0 + 1

/-- Whether any node satisfies the test. -/
def anyNode (test : Expr → Bool) : Expr → Bool :=
  fold fun e results => test e || results.any id

theorem nodeCount_eq (e : Expr) : e.nodeCount = total (e.children.map nodeCount) + 1 :=
  fold_eq _ e

theorem depth_eq (e : Expr) : e.depth = (e.children.map depth).foldl max 0 + 1 :=
  fold_eq _ e

theorem anyNode_eq (test : Expr → Bool) (e : Expr) :
    e.anyNode test = (test e || e.children.any (anyNode test)) := by
  rw [anyNode, fold_eq, List.any_map]
  rfl

/-! ### Names -/

/-- Whether the node is the parameter `name`. -/
def isParamNamed (name : String) : Expr → Bool
  | param _ other => other = name
  | _ => false

/-- Whether a parameter `name` stands anywhere in the tree, under whichever binder. -/
def mentions (name : String) (e : Expr) : Bool :=
  e.anyNode (isParamNamed name)

/-- The names that a node itself uses or binds. -/
def ownNames : Expr → List String
  | param _ name => [name]
  | lambda _ params _ => params.map (·.name)
  | bind _ var _ _ => [var.name]
  | _ => []

/-- All names of parameters, lambda parameters and bound variables in the tree. -/
def names : Expr → List String :=
  fold fun e results => e.ownNames ++ results.flatten

end Expr

end NullGuard
