import NullGuard.Ty.Definition

/-!
Which types can hold null, and which have a default instance.
-/

namespace NullGuard.Ty

/-- Numbers, `bool` and the like, structs, and all nullable forms. -/
def isValueType (defs : Definitions) : Ty → Bool
  | .intrinsic kind => kind.isValueType
  | .nullable _ => true
  | .named definition _ => defs.kind? definition = some .structType
  | .array _ | .param _ | .unknown _ => false

/-- Whether an expression of the type may evaluate to null. A type parameter counts as a
reference; a number that stands for no type does not. -/
def canBeNull (defs : Definitions) : Ty → Bool
  | .nullable _ => true
  | .unknown _ => false
  | ty => !ty.isValueType defs

/-- `T?`. A type that can hold null anyway, or whose nature is not known, stays as it is. -/
def makeNullable (defs : Definitions) (ty : Ty) : Ty :=
  if ty.isValueType defs ∧ ty.underlying? = none then .nullable ty else ty

/-- Whether a default instance can be made. A class needs a default constructor and as many
arguments as it has parameters. -/
def isConstructible (defs : Definitions) : Ty → Bool
  | .named definition args =>
    match defs.kind? definition with
    | some .structType => true
    | some .classType =>
      defs.hasDefaultConstructor definition && defs.arity? definition = some args.length
    | some .interfaceType | none => false
  | .intrinsic kind => kind.isValueType
  | .nullable _ => true
  | .array _ | .param _ | .unknown _ => false

theorem makeNullable_makeNullable (defs : Definitions) (ty : Ty) :
    (ty.makeNullable defs).makeNullable defs = ty.makeNullable defs := by
  unfold makeNullable
  split <;> simp_all [underlying?]

end NullGuard.Ty
