import NullGuard.Document.Declare
import NullGuard.Json.Text

/-!
The typed expression of a document's query.
-/

namespace NullGuard

/-- Whether numbers of the type are doubles. -/
def Ty.isFloating : Ty → Bool
  | .intrinsic .double | .intrinsic .decimal => true
  | _ => false

/-- The double nearest to an integer of 64 bits, with or without a sign. -/
def floatOfInt (value : Int) : Float :=
  if value < 0 then (Int64.ofInt value).toFloat else (UInt64.ofNat value.toNat).toFloat

/-- A JSON integer. It stays one unless doubles are asked for or it needs the 64th bit. -/
def integerLiteral (value : Int) (floating : Bool) : Literal :=
  if floating ∨ 0x8000000000000000 ≤ value then .double (floatOfInt value)
  else .int (Int64.ofInt value)

/-- A literal of the declared type, or of its own type if none is declared. -/
def lowerConstant (value : Json) (declared : Option Ty) : DocumentM Expr :=
  let floating := declared.any (·.isFloating)
  let literal : Option Literal :=
    match value with
    | .null => some .null
    | .bool b => some (.bool b)
    | .string s => some (.string s)
    | .int i => some (integerLiteral i floating)
    | .double d => some (.double d)
    | .array _ | .object _ => none
  match literal with
  | some literal => .ok (.literal (declared.getD literal.ty) literal)
  | none => DocumentM.fail (.notScalar value.compact)

def lowerBinaryOp (symbol : String) : DocumentM BinaryOp :=
  match BinaryOp.ofSymbol? symbol with
  | some op => .ok op
  | none => DocumentM.fail (.unknownBinary symbol)

def lowerUnaryOp (symbol : String) : DocumentM UnaryOp :=
  match UnaryOp.ofSymbol? symbol with
  | some op => .ok op
  | none => DocumentM.fail (.unknownUnary symbol)

/-- The parameters in scope, the innermost first. -/
abbrev Scope := List (String × Ty)

namespace QueryNode

mutual

/-- The expression of a node. Lambda parameters hide outer ones, and of equal names in one lambda
the last counts. -/
def lower (defs : Definitions) (scope : Scope) : QueryNode → DocumentM Expr
  | param name =>
    match scope.lookup name with
    | some ty => .ok (.param ty name)
    | none => DocumentM.fail (.undeclaredParameter name)
  | const value ty => do
    lowerConstant value (← ty.mapM (resolveType defs))
  | null ty => return .null (← resolveType defs ty)
  | default ty => return .default (← resolveType defs ty)
  | member target name => do
    let target ← target.lower defs scope
    DocumentM.ofBuild (Expr.member? defs target name)
  | staticMember owner name ty => do
    let owner ← resolveType defs owner
    return .staticMember (← resolveType defs ty) name owner
  | call object method args returns => do
    let object ← object.lower defs scope
    let args ← lowerAll defs scope args
    return .instanceCall object method args (← resolveType defs returns)
  | extension owner method args returns => do
    let args ← lowerAll defs scope args
    DocumentM.ofBuild (Expr.extensionCall? owner method args (← resolveType defs returns))
  | staticCall owner method args returns => do
    let args ← lowerAll defs scope args
    return .staticCall owner method args (← resolveType defs returns)
  | lambda params body => do
    let params ← params.mapM fun param => do
      return { name := param.name, ty := ← resolveType defs param.ty : Param }
    let inner := params.reverse.map fun param => (param.name, param.ty)
    return .lambdaOf params (← body.lower defs (inner ++ scope))
  | binary op left right => do
    let op ← lowerBinaryOp op
    let left ← left.lower defs scope
    return .binaryOf op left (← right.lower defs scope)
  | unary op operand => do
    let op ← lowerUnaryOp op
    return .unaryOf op (← operand.lower defs scope)
  | coalesce left right => do
    let left ← left.lower defs scope
    return .coalesceOf left (← right.lower defs scope)
  | condition test ifTrue ifFalse => do
    let test ← test.lower defs scope
    let ifTrue ← ifTrue.lower defs scope
    let ifFalse ← ifFalse.lower defs scope
    DocumentM.ofBuild (Expr.cond? test ifTrue ifFalse)
  | convert operand ty => do
    let operand ← operand.lower defs scope
    return .convert (← resolveType defs ty) operand
  | construct ty => return .construct (← resolveType defs ty) []
  | newArray ty elements => do
    let elements ← lowerAll defs scope elements
    DocumentM.ofBuild (Expr.newArray? defs (← resolveType defs ty) elements)
  | index target position => do
    let target ← target.lower defs scope
    let position ← position.lower defs scope
    DocumentM.ofBuild (Expr.index? target position)

def lowerAll (defs : Definitions) (scope : Scope) : List QueryNode → DocumentM (List Expr)
  | [] => .ok []
  | node :: nodes => do
    let e ← node.lower defs scope
    return e :: (← lowerAll defs scope nodes)

end

end QueryNode

/-- The query of a document whose types are declared. -/
def Document.expr (document : Document) (defs : Definitions) : DocumentM Expr := do
  let parameters ← document.parameterTypes defs
  document.query.lower defs parameters

end NullGuard
