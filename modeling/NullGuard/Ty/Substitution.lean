import NullGuard.Ty.Nullability

/-!
Arguments in place of type parameters.
-/

namespace NullGuard.Ty

mutual

/-- Puts `args[i]` for the parameter `i`. A parameter without an argument stays, and nullable
forms are made anew, since `T?` is `T` where the argument is a reference. -/
def subst (defs : Definitions) (args : List Ty) : Ty → Ty
  | .param index => args.getD index (.param index)
  | .nullable underlying => (underlying.subst defs args).makeNullable defs
  | .array element => .array (element.subst defs args)
  | .named definition own => .named definition (substAll defs args own)
  | .intrinsic kind => .intrinsic kind
  | .unknown number => .unknown number

def substAll (defs : Definitions) (args : List Ty) : List Ty → List Ty
  | [] => []
  | ty :: tys => ty.subst defs args :: substAll defs args tys

end

/-- Without arguments there is nothing to substitute, and the type is returned unseen. -/
def instantiate (defs : Definitions) (ty : Ty) (args : List Ty) : Ty :=
  if args.isEmpty then ty else ty.subst defs args

@[simp]
theorem substAll_eq_map (defs : Definitions) (args tys : List Ty) :
    substAll defs args tys = tys.map (subst defs args) := by
  induction tys with
  | nil => rfl
  | cons ty tys ih => simp [substAll, ih]

end NullGuard.Ty
