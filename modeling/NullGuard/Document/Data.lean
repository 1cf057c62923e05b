import NullGuard.Document.Lower
import NullGuard.Eval.Value

/-!
JSON data as values of given types, and the bindings of a document's parameters.
-/

namespace NullGuard

/-- Collections that are sets. -/
def Ty.isSet : Ty → Bool
  | .named definition _ => definition = Collection.hashSet || definition = Collection.setInterface
  | _ => false

/-- The type of the items of a collection. -/
def Ty.itemType (ty : Ty) : Ty :=
  (ty.element? <|> ty.singleArg?).getD .object

/-- The collection of a type with these items, a list unless the type says otherwise. -/
def Value.collectionOf (ty : Ty) (items : List Value) : Value :=
  if ty.element?.isSome then .array items
  else if ty.isSet then .set items
  else .list items

/-- Conversion of data. The state collects the members that were looked up, the latest first. -/
abbrev DataM := ExceptT DocumentError (StateM (List (Ty × String)))

/-- The type of a member of an object, which has to exist. -/
def memberType (defs : Definitions) (ty : Ty) (name : String) : DataM Ty := do
  modify ((ty, name) :: ·)
  match ty.fieldType? defs name with
  | some fieldTy => return fieldTy
  | none => throw (.of (.noMember (ty.text defs) name))

namespace Json

/-- The data for a nullable type is that for the type itself. -/
def dataType (ty : Ty) : Ty :=
  ty.underlying?.getD ty

mutual

/-- The value of JSON data for a type, which decides about doubles, kinds of collections and the
types of members. Other data are taken as they are. -/
def toValueM (defs : Definitions) (ty : Ty) : Json → DataM Value
  | null => return .null
  | bool b => return .bool b
  | string s => return .string s
  | int i => return .ofLiteral (integerLiteral i (dataType ty).isFloating)
  | double d => return .double d
  | array items => do
    let items ← itemsM defs (dataType ty).itemType items
    return .collectionOf (dataType ty) items
  | object members => do
    let fields ← membersM defs (dataType ty) members
    return .object (dataType ty) fields

def itemsM (defs : Definitions) (ty : Ty) : List Json → DataM (List Value)
  | [] => return []
  | item :: items => do
    let value ← item.toValueM defs ty
    return value :: (← itemsM defs ty items)

def membersM (defs : Definitions) (ty : Ty) : List (String × Json) → DataM (List (String × Value))
  | [] => return []
  | (name, member) :: members => do
    let value ← member.toValueM defs (← memberType defs ty name)
    return (name, value) :: (← membersM defs ty members)

end

/-- The value of data in which no key is repeated. -/
def toValue (json : Json) (defs : Definitions) (ty : Ty) : DocumentM Value :=
  ((json.toValueM defs ty).run []).1

/-- The members that are looked up on the way, the latest first. -/
def lookups (json : Json) (defs : Definitions) (ty : Ty) : List (Ty × String) :=
  ((json.toValueM defs ty).run []).2

end Json

/-- The bindings of all parameters, taken in the order of their names. One without data has the
default of its type. The order counts only where the data of several parameters is wrong: the error
is that of the first of them, and another order may report another one. -/
def Document.environment (document : Document) (defs : Definitions) : DocumentM Env := do
  let parameters ← document.parameterTypes defs
  let isDeclared (name : String) : Bool := (parameters.lookup name).isSome
  if let some (stray, _) := document.data.find? fun entry => !isDeclared entry.1 then
    DocumentM.fail (.strayData stray)
  parameters.mapM fun (name, ty) =>
    match document.data.lookup name with
    | some json => do
      return (name, ← DocumentM.within (.data name) (json.toValue defs ty))
    | none => return (name, .default defs ty)

end NullGuard
