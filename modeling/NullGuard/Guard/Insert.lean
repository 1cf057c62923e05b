import NullGuard.Guard.Protect

/-!
The insertion of guards, which makes a query null-safe. The parts of a node are treated before the
node itself; member reads and calls are then guarded unless their receiver, as it is by then, is
safe. A parameter is also safe in the branch of a condition that has tested it, so guards that are
there already, written by hand or inserted earlier, get no guard again.
-/

namespace NullGuard

/-- `maxDepth` is the deepest level of nodes that is accepted. With `emptyCollections` a node that
has a fallback for its own type yields that when its receiver is null. -/
structure GuardOptions where
  maxDepth : Nat := 500
  emptyCollections : Bool := false
  deriving DecidableEq, Inhabited

inductive GuardError where
  | missingExpression
  | missingReceiver (method : String)
  | depthExceeded (limit : Nat)
  deriving DecidableEq, Inhabited

def GuardError.message : GuardError → String
  | .missingExpression => "no expression to rewrite"
  | .missingReceiver method => s!"extension call `{method}` has no receiver argument"
  | .depthExceeded limit => s!"expression nesting exceeds the limit of {limit}"

structure GuardStats where
  nodesVisited : Nat
  coalesceGuards : Nat
  conditionalGuards : Nat
  deriving DecidableEq, Inhabited

namespace GuardStats

def zero : GuardStats := ⟨0, 0, 0⟩

def guards (stats : GuardStats) : Nat :=
  stats.coalesceGuards + stats.conditionalGuards

def count (stats : GuardStats) : GuardStrategy → GuardStats
  | .coalesce => { stats with coalesceGuards := stats.coalesceGuards + 1 }
  | .conditional => { stats with conditionalGuards := stats.conditionalGuards + 1 }

end GuardStats

/-- The state of a walk: the supplies of guards, the parameters that are known not to be null, the
number of nodes above the present one, and the counts so far. -/
structure Walk where
  supplies : Supplies
  nonNull : List String
  depth : Nat
  stats : GuardStats
  deriving Inhabited

abbrev GuardM := ExceptT GuardError (StateM Walk)

namespace Walk

/-- Runs an action and then changes the state, also when the action fails. -/
def finishing {α : Type} (change : Walk → Walk) (action : GuardM α) : GuardM α :=
  ExceptT.mk fun walk =>
    let (result, walk) := action.run walk
    (result, change walk)

/-- Counts a node and runs an action one level deeper, unless the level is too deep. -/
def descend {α : Type} (maxDepth : Nat) (action : GuardM α) : GuardM α := do
  if maxDepth ≤ (← get).depth then
    throw (.depthExceeded maxDepth)
  modify fun walk =>
    { walk with
      depth := walk.depth + 1
      stats := { walk.stats with nodesVisited := walk.stats.nodesVisited + 1 } }
  finishing (fun walk => { walk with depth := walk.depth - 1 }) action

/-- Runs an action while one more parameter is known not to be null. The latest one comes first
and is forgotten behind the action. -/
def assuming {α : Type} (name : String) (action : GuardM α) : GuardM α := do
  modify fun walk => { walk with nonNull := name :: walk.nonNull }
  finishing (fun walk => { walk with nonNull := walk.nonNull.tail }) action

/-- Runs an action in a branch of a condition. The test tells about a parameter if it compares
that with null, and the branch is taken when the test is `outcome`. -/
def branch {α : Type} (test : Expr) (outcome : Bool) (action : GuardM α) : GuardM α :=
  match test.nullTest? with
  | some (name, whenNull) => if whenNull = outcome then action else assuming name action
  | none => action

/-- Runs an action below a binder. What is known about the names that it binds is of the outer
ones, and is known again behind the action. -/
def rebinding {α : Type} (bound : List String) (action : GuardM α) : GuardM α := do
  let known := (← get).nonNull
  if known.any bound.contains then
    modify fun walk => { walk with nonNull := known.filter fun name => !bound.contains name }
    finishing (fun walk => { walk with nonNull := known }) action
  else
    action

/-- Makes a node from its receiver, with a guard if the receiver needs one. -/
def attach (defs : Definitions) (options : GuardOptions) (receiver : Expr) (ty : Ty)
    (rebuild : Expr → Expr) : GuardM Expr := do
  let walk ← get
  let known := match receiver with
    | .param _ name => walk.nonNull.contains name
    | _ => false
  if receiver.isSafe defs || known then
    return rebuild receiver
  let ((guarded, strategy), supplies) :=
    (protect defs options.emptyCollections receiver ty rebuild).run walk.supplies
  set { walk with supplies, stats := walk.stats.count strategy }
  return guarded

end Walk

open Walk in
/-- Inserts guards within the state of a walk. -/
def Expr.visit (defs : Definitions) (options : GuardOptions) (e : Expr) : GuardM Expr :=
  descend options.maxDepth do
    match e with
    | .member ty target name declaring =>
      let target ← target.visit defs options
      attach defs options target ty fun target => .member ty target name declaring
    | .call ty object method args =>
      let object ← object.visit defs options
      let args ← mapMembersM args fun arg _ => arg.visit defs options
      attach defs options object ty fun object => .call ty object method args
    | .freeCall ty method args =>
      if method.isExtension && args.isEmpty then
        throw (.missingReceiver method.name)
      let args ← mapMembersM args fun arg _ => arg.visit defs options
      match method.isExtension, args with
      | true, receiver :: rest =>
        attach defs options receiver ty fun receiver => .freeCall ty method (receiver :: rest)
      | _, args => return .freeCall ty method args
    | .cond ty test ifTrue ifFalse =>
      let test ← test.visit defs options
      let ifTrue ← branch test true (ifTrue.visit defs options)
      let ifFalse ← branch test false (ifFalse.visit defs options)
      return .cond ty test ifTrue ifFalse
    | .lambda ty params body =>
      return .lambda ty params (← rebinding (params.map (·.name)) (body.visit defs options))
    | .bind ty var value body =>
      let value ← value.visit defs options
      let body ← rebinding [var.name] (body.visit defs options)
      return .bind ty var value body
    | e => e.mapChildrenM fun child _ => child.visit defs options
termination_by sizeOf e
decreasing_by
  all_goals apply sizeOf_lt_of_mem_children
  all_goals first | assumption | simp [children, *]

/-- An expression with its guards and what the walk over it has counted. -/
structure Guarded where
  expr : Expr
  stats : GuardStats

/-- Inserts all guards that an expression needs. The cache is returned also when that fails. -/
def Expr.insertGuards (defs : Definitions) (options : GuardOptions) (cache : FallbackCache)
    (e : Expr) : Except GuardError Guarded × FallbackCache :=
  let start : Walk := ⟨⟨cache, .reserving e⟩, [], 0, .zero⟩
  let (result, walk) := (e.visit defs options).run start
  (result.map fun expr => ⟨expr, walk.stats⟩, walk.supplies.cache)

end NullGuard
