import NullGuard.Ty.Collection
import NullGuard.Ty.Substitution

/-!
Bases, assignability and inherited members. Base lists may be cyclic and may grow with each
step, so a search looks at a type at most once and follows chains of bounded length.
-/

namespace NullGuard.Ty

/-- The number of steps from a type to its bases after which a search goes no further. -/
def maxBaseDepth : Nat := 64

/-- The bases that the definition lists, with the type's arguments put in. -/
def baseTypes (defs : Definitions) : Ty → List Ty
  | .named definition args =>
    match defs.get? definition with
    | some found => found.bases.map fun base => base.instantiate defs args
    | none => []
  | _ => []

/-- The type of a field that the type's own definition declares. -/
def declaredField? (defs : Definitions) (name : String) : Ty → Option Ty
  | .named definition args =>
    match (defs.get? definition).bind fun found => found.fieldType? name with
    | some declared => some (declared.instantiate defs args)
    | none => none
  | _ => none

/-! ### Searches

The state of a search holds the types that it has looked at. -/

/-- Whether `target` is met, depth first and left to right, in at most `steps` steps from the
source. The source itself is compared before anything else is tried. -/
def derivesFrom (defs : Definitions) (target : Ty) : Nat → Ty → StateM (List Ty) Bool
  | steps, source =>
    if source = target then pure true
    else match steps with
      | 0 => pure false
      | steps + 1 => do
        if (← get).contains source then
          return false
        modify (source :: ·)
        (source.baseTypes defs).anyM (derivesFrom defs target steps)

/-- The first declared field of that name, the type itself first, then its bases depth first
and left to right. -/
def findField (defs : Definitions) (name : String) : Nat → Ty → StateM (List Ty) (Option Ty)
  | 0, _ => pure none
  | steps + 1, ty => do
    if (← get).contains ty then
      return none
    modify (ty :: ·)
    match ty.declaredField? defs name with
    | some declared => return some declared
    | none => (ty.baseTypes defs).findSomeM? (findField defs name steps)

/-! ### Assignability -/

/-- `T[]` implements the array interfaces at `T`. -/
def arrayImplements (element : Ty) : Ty → Bool
  | .named definition args => args = [element] && Collection.arrayInterfaces.contains definition
  | _ => false

def assignability (defs : Definitions) (source target : Ty) : Bool × List Ty :=
  if source = target ∨ target = .object ∨ target.underlying? = some source then (true, [])
  else match source with
    | .array element => (arrayImplements element target, [])
    | .named _ _ => (derivesFrom defs target (maxBaseDepth + 1) source).run []
    | _ => (false, [])

/-- Whether a value of type `source` can stand where `target` is expected. -/
def isAssignable (defs : Definitions) (source target : Ty) : Bool :=
  (assignability defs source target).1

/-! ### Members -/

def fieldSearch (defs : Definitions) (name : String) : Ty → Option Ty × List Ty
  | .array _ => (if name = "Length" then some .int else none, [])
  | .nullable underlying =>
    (if name = "HasValue" then some .bool
      else if name = "Value" then some underlying
      else none, [])
  | .string => (if name = "Length" then some .int else none, [])
  | .named definition args =>
    (findField defs name (maxBaseDepth + 1) (.named definition args)).run []
  | _ => (none, [])

/-- The type of the member `name`. Arrays and strings have a `Length`, nullable forms a
`HasValue` and a `Value`, and a defined type has its fields and those of its bases. -/
def fieldType? (defs : Definitions) (ty : Ty) (name : String) : Option Ty :=
  (fieldSearch defs name ty).1

/-! ### Types that a search makes -/

/-- The bases that a search for a base type has put arguments into. -/
def madeByAssignability (defs : Definitions) (source target : Ty) : List Ty :=
  (assignability defs source target).2.flatMap (baseTypes defs)

/-- The field type that a search for a field has found, and the bases it has tried before. -/
def madeByFieldSearch (defs : Definitions) (ty : Ty) (name : String) : List Ty :=
  (fieldSearch defs name ty).2.flatMap fun seen =>
    match seen.declaredField? defs name with
    | some declared => [declared]
    | none => seen.baseTypes defs

end NullGuard.Ty
