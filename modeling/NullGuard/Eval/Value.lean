import NullGuard.Expr.Equality
import NullGuard.Expr.Text
import NullGuard.Text.Quoted
import NullGuard.Ty.Nullability

/-!
Values of queries. Objects hold only the fields that were given to them, and a closure holds the
bindings that its lambda was evaluated under.
-/

namespace NullGuard

inductive CollectionKind where
  | list | set | array
  deriving DecidableEq, Inhabited

/-- In the fields of an object and in the bindings of a closure no name stands twice. -/
inductive Value where
  | null
  | bool (value : Bool)
  | int (value : Int64)
  | double (value : Float)
  | string (value : String)
  | object (ty : Ty) (fields : List (String × Value))
  | collection (kind : CollectionKind) (items : List Value)
  | closure (params : List Param) (body : Expr) (env : List (String × Value))
  deriving Inhabited

/-- The values of parameters, each name once. -/
abbrev Env := List (String × Value)

/-- Binds a name, instead of an earlier binding of it if there is one. -/
def Env.insert (env : Env) (name : String) (value : Value) : Env :=
  (name, value) :: env.filter fun binding => binding.1 ≠ name

namespace Value

def isNull : Value → Bool
  | null => true
  | _ => false

/-- The word for the kind of a value in error texts. -/
def kindName : Value → String
  | null => "null"
  | bool _ => "bool"
  | int _ => "int"
  | double _ => "double"
  | string _ => "string"
  | object .. => "object"
  | collection .. => "collection"
  | closure .. => "closure"

def ofLiteral : Literal → Value
  | .null => null
  | .bool value => bool value
  | .int value => int value
  | .double value => double value
  | .string value => string value

/-- The number that an `int` or a `double` stands for. -/
def toFloat? : Value → Option Float
  | int value => some value.toFloat
  | double value => some value
  | _ => none

/-! ### Equality -/

mutual

/-- Equality of values of one kind. Doubles compare as numbers, and the order of fields does not
matter. -/
def same : Value → Value → Bool
  | null, null => true
  | bool a, bool b => a = b
  | int a, int b => a = b
  | double a, double b => a == b
  | string a, string b => a = b
  | object ty fields, object ty' fields' =>
    ty = ty' && fields.length = fields'.length && sameFields fields fields'
  | collection kind items, collection kind' items' => kind = kind' && sameItems items items'
  | closure params body env, closure params' body' env' =>
    params = params' && body.same body' && env.length = env'.length && sameFields env env'
  | _, _ => false

def sameItems : List Value → List Value → Bool
  | [], [] => true
  | item :: items, item' :: items' => item.same item' && sameItems items items'
  | _, _ => false

/-- Whether each field has the same value among the other fields. -/
def sameFields : List (String × Value) → List (String × Value) → Bool
  | [], _ => true
  | (name, value) :: fields, fields' =>
    (match fields'.lookup name with
      | some value' => value.same value'
      | none => false) && sameFields fields fields'

end

/-- Equality as queries see it, in which an `int` and a `double` may be equal. -/
def looselyEquals : Value → Value → Bool
  | int a, double b | double b, int a => a.toFloat == b
  | a, b => a.same b

/-! ### Construction -/

def list (items : List Value) : Value :=
  collection .list items

def array (items : List Value) : Value :=
  collection .array items

/-- Appends an item unless an equal one is there. -/
def insertUnique (items : List Value) (item : Value) : List Value :=
  if items.any (looselyEquals · item) then items else items ++ [item]

/-- A set keeps the first of equal items. -/
def set (items : List Value) : Value :=
  collection .set (items.foldl insertUnique [])

/-- The value of a type that nothing was assigned to: null where the type can hold it. -/
def default (defs : Definitions) (ty : Ty) : Value :=
  if ty.canBeNull defs then null
  else match ty with
    | .intrinsic .bool => bool false
    | .intrinsic .double | .intrinsic .decimal => double 0.0
    | .intrinsic .int | .intrinsic .long | .intrinsic .char | .intrinsic .dateTime => int 0
    | .named definition _ =>
      if defs.kind? definition = some .structType then object ty [] else null
    | _ => null

/-! ### Text -/

/-- Parts with commas between them. -/
def commaSeparated (parts : List String) : String :=
  ", ".intercalate parts

/-- The fields of an object in the order of their names. -/
def fieldsText (fields : List (String × String)) : String :=
  let sorted := fields.mergeSort fun a b => a.1 ≤ b.1
  "\x7b" ++ ",".intercalate (sorted.map fun field => " " ++ field.1 ++ ": " ++ field.2) ++ " \x7d"

mutual

def text : Value → String
  | null => "null"
  | bool value => if value then "true" else "false"
  | int value => toString value.toInt
  | double value => Decimal.display.text value
  | string value => Text.quoted value
  | object _ fields => fieldsText (fieldTexts fields)
  | collection _ items => "[" ++ commaSeparated (itemTexts items) ++ "]"
  | closure params _ _ => s!"<closure/{params.length}>"

def itemTexts : List Value → List String
  | [] => []
  | item :: items => item.text :: itemTexts items

def fieldTexts : List (String × Value) → List (String × String)
  | [] => []
  | (name, value) :: fields => (name, value.text) :: fieldTexts fields

end

end Value

end NullGuard
