import NullGuard.Expr.Build
import NullGuard.Guard.Cache
import NullGuard.Guard.FreshNames
import NullGuard.Guard.Safety

/-!
The guard around one node. A receiver whose type has a fallback becomes `receiver ?? fallback`;
otherwise the node becomes `receiver == null ? short circuit : node`, where a receiver other than
a parameter is bound to a fresh name first and so evaluated once.
-/

namespace NullGuard

inductive GuardStrategy where
  | coalesce | conditional
  deriving DecidableEq, Inhabited

/-- What guards draw on: remembered fallbacks and unused names. -/
structure Supplies where
  cache : FallbackCache
  names : FreshNames
  deriving Inhabited

def Supplies.fallback? (defs : Definitions) (ty : Ty) : StateM Supplies (Option Expr) :=
  modifyGet fun supplies =>
    let (found, cache) := supplies.cache.fallback? defs ty
    (found, { supplies with cache })

def Supplies.fresh : StateM Supplies String :=
  modifyGet fun supplies =>
    let (name, names) := supplies.names.fresh
    (name, { supplies with names })

/-- `null` where the type can hold it, else the type's default. -/
def missingValue (defs : Definitions) (ty : Ty) : Expr :=
  if ty.canBeNull defs then .null ty else .default ty

/-- The value of a node whose receiver is null. With `emptyCollections` it is the empty instance
of the node's type, if there is one. -/
def shortCircuit (defs : Definitions) (emptyCollections : Bool) (ty : Ty) :
    StateM Supplies Expr := do
  if emptyCollections then
    if let some empty ← Supplies.fallback? defs ty then
      return empty
  return missingValue defs ty

/-- `receiver == null ? whenNull : node`. -/
def nullCheck (receiver whenNull node : Expr) (ty : Ty) : Expr :=
  .cond ty (.binaryOf .eq receiver (.null receiver.ty)) whenNull node

/-- Guards a node of type `ty`. `rebuild` makes the node from its receiver. -/
def protect (defs : Definitions) (emptyCollections : Bool) (receiver : Expr) (ty : Ty)
    (rebuild : Expr → Expr) : StateM Supplies (Expr × GuardStrategy) := do
  match ← Supplies.fallback? defs receiver.ty with
  | some fallback => return (rebuild (.coalesceOf receiver fallback), .coalesce)
  | none =>
    let whenNull ← shortCircuit defs emptyCollections ty
    match receiver with
    | .param _ _ => return (nullCheck receiver whenNull (rebuild receiver) ty, .conditional)
    | _ =>
      let name ← Supplies.fresh
      let held := Expr.param receiver.ty name
      return (.bindTo name receiver (nullCheck held whenNull (rebuild held) ty), .conditional)

end NullGuard
