import NullGuard.Expr.Basic
import NullGuard.Ty.Hierarchy

/-!
Empty instances that can stand for a missing collection or array, so that a query over it keeps
its natural result instead of becoming null as a whole.
-/

namespace NullGuard

/-- `(ty)new definition<element>()`, if that collection can stand for `ty`. -/
def emptyCollection? (defs : Definitions) (definition : DefId) (element ty : Ty) : Option Expr :=
  let collection := Ty.named definition [element]
  if collection.isConstructible defs && collection.isAssignable defs ty then
    some (.convert ty (.construct collection []))
  else none

/-- A type with one argument falls back to a list, or to a set where no list fits; an array to an
array without elements. No other type has a fallback. -/
def fallback? (defs : Definitions) (ty : Ty) : Option Expr :=
  match ty.singleArg?, ty.element? with
  | some element, _ =>
    emptyCollection? defs Collection.list element ty <|>
      emptyCollection? defs Collection.hashSet element ty
  | none, some _ => some (.newArray ty [])
  | none, none => none

/-! ### Types made on the way -/

def madeByEmptyCollection (defs : Definitions) (definition : DefId) (element ty : Ty) : List Ty :=
  let collection := Ty.named definition [element]
  collection ::
    (if collection.isConstructible defs then Ty.madeByAssignability defs collection ty else [])

def madeByFallback (defs : Definitions) (ty : Ty) : List Ty :=
  match ty.singleArg? with
  | none => []
  | some element =>
    madeByEmptyCollection defs Collection.list element ty ++
      (if (emptyCollection? defs Collection.list element ty).isSome then []
        else madeByEmptyCollection defs Collection.hashSet element ty)

end NullGuard
