/-!
Static types. A type is a built-in one, a nullable or an array form of another type, a defined
type with its arguments, or a type parameter of the definition that it occurs in.
-/

namespace NullGuard

/-- The built-in types that need no definition. -/
inductive Intrinsic where
  | void | bool | int | long | double | decimal | char | dateTime | string | object
  deriving DecidableEq, Inhabited

namespace Intrinsic

def all : List Intrinsic :=
  [void, bool, int, long, double, decimal, char, dateTime, string, object]

theorem mem_all (kind : Intrinsic) : kind ∈ all := by
  cases kind <;> decide

/-- The keyword that a type name uses for the type. -/
def name : Intrinsic → String
  | void => "void"
  | bool => "bool"
  | int => "int"
  | long => "long"
  | double => "double"
  | decimal => "decimal"
  | char => "char"
  | dateTime => "DateTime"
  | string => "string"
  | object => "object"

def ofName? (name : String) : Option Intrinsic :=
  all.find? fun kind => kind.name = name

/-- The reserved number of the type, counted from one. -/
def number : Intrinsic → Nat
  | void => 1
  | bool => 2
  | int => 3
  | long => 4
  | double => 5
  | decimal => 6
  | char => 7
  | dateTime => 8
  | string => 9
  | object => 10

def ofNumber? (number : Nat) : Option Intrinsic :=
  all.find? fun kind => kind.number = number

/-- Text and `object` are references. An expression of type `void` has no value that could be
null, so `void` counts as a value type. -/
def isValueType : Intrinsic → Bool
  | string | object => false
  | _ => true

theorem ofName?_name (kind : Intrinsic) : ofName? kind.name = some kind := by
  cases kind <;> decide

theorem ofNumber?_number (kind : Intrinsic) : ofNumber? kind.number = some kind := by
  cases kind <;> decide

end Intrinsic

/-- The number of a definition, counted from one. -/
structure DefId where
  number : Nat
  deriving DecidableEq, Inhabited

/-- `unknown` is a number that stands for no type, and `unknown 0` the absence of a type. -/
inductive Ty where
  | unknown (number : Nat)
  | intrinsic (kind : Intrinsic)
  | nullable (underlying : Ty)
  | array (element : Ty)
  | named (definition : DefId) (args : List Ty)
  | param (index : Nat)
  deriving Inhabited

namespace Ty

@[match_pattern] abbrev void : Ty := .intrinsic .void
@[match_pattern] abbrev bool : Ty := .intrinsic .bool
@[match_pattern] abbrev int : Ty := .intrinsic .int
@[match_pattern] abbrev long : Ty := .intrinsic .long
@[match_pattern] abbrev double : Ty := .intrinsic .double
@[match_pattern] abbrev string : Ty := .intrinsic .string
@[match_pattern] abbrev object : Ty := .intrinsic .object
@[match_pattern] abbrev absent : Ty := .unknown 0

/-- Induction in which the arguments of a defined type are reached by membership. -/
@[induction_eliminator]
theorem ind {motive : Ty → Prop}
    (unknown : ∀ number, motive (.unknown number))
    (intrinsic : ∀ kind, motive (.intrinsic kind))
    (nullable : ∀ underlying, motive underlying → motive (.nullable underlying))
    (array : ∀ element, motive element → motive (.array element))
    (named : ∀ definition args, (∀ arg ∈ args, motive arg) → motive (.named definition args))
    (param : ∀ index, motive (.param index)) : ∀ ty, motive ty := fun ty =>
  Ty.rec (motive_1 := motive) (motive_2 := fun args => ∀ arg ∈ args, motive arg)
    unknown intrinsic nullable array named param
    (fun _ h => nomatch h)
    (fun _ _ ihHead ihTail _ h => by
      cases h with
      | head => exact ihHead
      | tail _ h => exact ihTail _ h)
    ty

/-- The type that a raw number stands for. Only built-in types have fixed numbers. -/
def ofNumber (number : Nat) : Ty :=
  match Intrinsic.ofNumber? number with
  | some kind => .intrinsic kind
  | none => .unknown number

/-- Numbers below one hundred are kept for built-in types, more of them than there are. -/
def hasReservedNumber : Ty → Bool
  | .intrinsic _ => true
  | .unknown number => 0 < number && number < 100
  | _ => false

/-- A defined type without its arguments' names: the definition and the arguments. -/
def named? : Ty → Option (DefId × List Ty)
  | .named definition args => some (definition, args)
  | _ => none

/-- `T` for `T?`. -/
def underlying? : Ty → Option Ty
  | .nullable underlying => some underlying
  | _ => none

/-- `E` for `E[]`. -/
def element? : Ty → Option Ty
  | .array element => some element
  | _ => none

/-- The arguments of a defined type; no other type has any. -/
def args : Ty → List Ty
  | .named _ args => args
  | _ => []

/-- The argument of a defined type that has exactly one. -/
def singleArg? : Ty → Option Ty
  | .named _ [arg] => some arg
  | _ => none

end Ty

end NullGuard
