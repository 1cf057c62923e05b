import NullGuard.Expr.Basic
import NullGuard.Ty.Hierarchy

/-!
Constructors that give a node its type. Those that need the definitions refuse to build a node
that makes no sense.
-/

namespace NullGuard

inductive BuildError where
  | unknownMember (ty : Ty) (member : String)
  | nonBooleanCondition (found : Ty)
  | branchTypeMismatch (ifTrue ifFalse : Ty)
  | notAnArray (ty : Ty)
  | elementTypeMismatch (expected found : Ty)
  | missingReceiver (method : String)
  deriving DecidableEq, Inhabited

/-- The type that a literal has by itself. A bare `null` is an `object`. -/
def Literal.ty : Literal → Ty
  | .null => .object
  | .bool _ => .bool
  | .int _ => .int
  | .double _ => .double
  | .string _ => .string

namespace Expr

/-- `target.name` of a known type. -/
def memberOf (target : Expr) (name : String) (ty : Ty) : Expr :=
  .member ty target name target.ty

/-- `target.name`, with the type that the member has on the target's type. -/
def member? (defs : Definitions) (target : Expr) (name : String) : Except BuildError Expr :=
  match target.ty.fieldType? defs name with
  | some ty => .ok (target.memberOf name ty)
  | none => .error (.unknownMember target.ty name)

def instanceCall (object : Expr) (name : String) (args : List Expr) (ty : Ty) : Expr :=
  .call ty object ⟨name, none, false⟩ args

/-- A call of an extension method, whose first argument is the receiver. -/
def extensionCall? (owner name : String) (args : List Expr) (ty : Ty) : Except BuildError Expr :=
  if args.isEmpty then .error (.missingReceiver name)
  else .ok (.freeCall ty ⟨name, some owner, true⟩ args)

def staticCall (owner name : String) (args : List Expr) (ty : Ty) : Expr :=
  .freeCall ty ⟨name, some owner, false⟩ args

def null (ty : Ty) : Expr :=
  .literal ty .null

/-- A lambda is an `object`. -/
def lambdaOf (params : List Param) (body : Expr) : Expr :=
  .lambda .object params body

/-- Comparisons and logical operators give a `bool`, arithmetic the type of the left operand. -/
def binaryOf (op : BinaryOp) (left right : Expr) : Expr :=
  .binary (if op.isPredicate then .bool else left.ty) op left right

def unaryOf (op : UnaryOp) (operand : Expr) : Expr :=
  match op with
  | .not => .unary .bool .not operand
  | .neg => .unary operand.ty .neg operand

/-- `left ?? right`, of the left operand's type. -/
def coalesceOf (left right : Expr) : Expr :=
  .coalesce left.ty left right

/-- Asks for a `bool` test and for branches of one type. -/
def cond? (test ifTrue ifFalse : Expr) : Except BuildError Expr :=
  if test.ty ≠ .bool then .error (.nonBooleanCondition test.ty)
  else if ifTrue.ty ≠ ifFalse.ty then .error (.branchTypeMismatch ifTrue.ty ifFalse.ty)
  else .ok (.cond ifTrue.ty test ifTrue ifFalse)

/-- Holds a value under a name of the value's type while the body runs. -/
def bindTo (name : String) (value body : Expr) : Expr :=
  .bind body.ty ⟨name, value.ty⟩ value body

/-- Whether an element may stand in an array. A `null` may stand anywhere. -/
def fitsElement (defs : Definitions) (expected : Ty) (element : Expr) : Bool :=
  element.isNull || element.ty.isAssignable defs expected

def newArray? (defs : Definitions) (ty : Ty) (elements : List Expr) : Except BuildError Expr :=
  match ty.element? with
  | none => .error (.notAnArray ty)
  | some expected =>
    match elements.find? fun element => !fitsElement defs expected element with
    | some bad => .error (.elementTypeMismatch expected bad.ty)
    | none => .ok (.newArray ty elements)

def index? (target position : Expr) : Except BuildError Expr :=
  match target.ty.element? with
  | none => .error (.notAnArray target.ty)
  | some element => .ok (.index element target position)

/-! ### Types made while a node is built -/

def madeByMember (defs : Definitions) (target : Expr) (name : String) : List Ty :=
  Ty.madeByFieldSearch defs target.ty name

/-- Elements are compared up to the first one that does not fit. -/
def madeByNewArray (defs : Definitions) (ty : Ty) (elements : List Expr) : List Ty :=
  match ty.element? with
  | none => []
  | some expected =>
    let fitting := (elements.takeWhile (fitsElement defs expected)).length
    ((elements.take (fitting + 1)).filter fun element => !element.isNull).flatMap fun element =>
      Ty.madeByAssignability defs element.ty expected

end Expr

end NullGuard
