import NullGuard.Expr.Basic
import NullGuard.Ty.Nullability

/-!
Receivers that need no guard.
-/

namespace NullGuard.Expr

/-- Whether the expression may be a receiver as it is. Results of calls, literals and new
instances are trusted, and so is a conversion of a safe operand and an alternative that is safe
itself; any other expression is safe if its type cannot hold null. -/
def isSafe (defs : Definitions) : Expr → Bool
  | call .. | freeCall .. | literal .. | construct .. | newArray .. => true
  | convert _ operand => operand.isSafe defs
  | coalesce ty _ right => right.isSafe defs || !ty.canBeNull defs
  | e => !e.ty.canBeNull defs

/-- The parameter that a test compares with null, and whether the test holds when it is null. -/
def nullTest? : Expr → Option (String × Bool)
  | binary _ op left right =>
    match op, left, right with
    | .eq, param _ name, literal _ .null | .eq, literal _ .null, param _ name => some (name, true)
    | .ne, param _ name, literal _ .null | .ne, literal _ .null, param _ name => some (name, false)
    | _, _, _ => none
  | _ => none

end NullGuard.Expr
