import NullGuard.Eval.Builtin
import NullGuard.Eval.Operator
import NullGuard.Ty.Hierarchy

/-!
Evaluation of queries in memory. Reading a member of null or calling a method on it is an error,
and so is an extension call whose receiver is null. Logical operators, alternatives and
conditions evaluate only the operands that they need.
-/

namespace NullGuard

/-- What an evaluation is relative to. -/
structure Context where
  defs : Definitions
  methods : MethodTable

/-- How an expression is evaluated one level below. -/
abbrev Run := Expr → Env → EvalM Value

namespace Context

/-- Binds a closure's parameters on top of the bindings that it holds and runs its body. -/
def invoke (run : Run) (callee : Value) (args : List Value) : EvalM Value :=
  match callee with
  | .closure params body env =>
    if params.length ≠ args.length then
      EvalM.fail (.typeMismatch s!"lambda taking {params.length} argument(s)"
        "matching argument count" "different argument count")
    else
      let bind (env : Env) (pair : Param × Value) := env.insert pair.1.name pair.2
      run body ((params.zip args).foldl bind env)
  | other => EvalM.fail (.mismatch "invocation" "closure" other)

/-- A field that an object does not hold but that its type declares has the default value. -/
def readField (context : Context) (objectTy : Ty) (fields : List (String × Value))
    (name : String) (ty : Ty) : EvalM Value := do
  match fields.lookup name with
  | some value => return value
  | none =>
    EvalM.recordLookup objectTy name
    if (objectTy.fieldType? context.defs name).isSome then
      return .default context.defs ty
    EvalM.fail (.unknownMember name (objectTy.text context.defs))

/-- Reads a member of type `ty` from a value of static type `targetTy`. `HasValue` may be read
from a nullable value that is null. -/
def readMember (context : Context) (value : Value) (targetTy : Ty) (name : String) (ty : Ty) :
    EvalM Value := do
  let isNullable := targetTy.underlying?.isSome
  if value.isNull then
    if name = "HasValue" && isNullable then
      EvalM.record (.member name)
      return .bool false
    EvalM.fail (.nullReference name)
  EvalM.record (.member name)
  match value with
  | .object objectTy fields => context.readField objectTy fields name ty
  | .string s =>
    if name = "Length" then return .int (Int64.ofNat s.length)
    else readNullable isNullable name value
  | .collection _ items =>
    if name = "Count" || name = "Length" then return .int (Int64.ofNat items.length)
    else readNullable isNullable name value
  | value => readNullable isNullable name value
where
  /-- The members that any value has. -/
  readNullable (isNullable : Bool) (name : String) (value : Value) : EvalM Value :=
    if name = "HasValue" then return .bool true
    else if name = "Value" && isNullable then return value
    else EvalM.fail (.unknownMember name value.kindName)

def readStatic (context : Context) (declaring : Ty) (name : String) (ty : Ty) : EvalM Value := do
  EvalM.record (.member name)
  if declaring = .string && name = "Empty" then
    return .string ""
  if ty = .void then
    return .null
  EvalM.fail (.unknownMember name (declaring.text context.defs))

/-- Runs the method that is registered under `key`. -/
def callMethod (context : Context) (run : Run) (key : String) (site : CallSite)
    (receiver : Value) (args : List Value) : EvalM Value :=
  match context.methods.get? key with
  | none => EvalM.fail (.unknownMethod key receiver.kindName)
  | some builtin => do
    EvalM.record (.call site.method)
    builtin.run context.defs (invoke run) site receiver args

/-- Calls a method on an object. -/
def callOn (context : Context) (run : Run) (method : Method) (ty : Ty) (object : Value)
    (args : List Value) : EvalM Value :=
  if object.isNull then EvalM.fail (.nullReference method.name)
  else context.callMethod run method.name ⟨method.name, ty⟩ object args

/-- Calls a method without an object: an extension method on its first argument, any other method
under its owner's name. -/
def callFree (context : Context) (run : Run) (method : Method) (ty : Ty) (args : List Value) :
    EvalM Value :=
  if method.isExtension then
    match args with
    | [] => EvalM.fail (.nullReceiver method.name)
    | receiver :: rest =>
      if receiver.isNull then EvalM.fail (.nullReceiver method.name)
      else context.callMethod run method.name ⟨method.name, ty⟩ receiver rest
  else
    let key := match method.owner with
      | some owner => owner ++ "." ++ method.name
      | none => method.name
    context.callMethod run key ⟨method.name, ty⟩ .null args

/-- A truth value for the operator. -/
def truth (op : BinaryOp) : Value → EvalM Bool
  | .bool b => return b
  | other => EvalM.fail (.mismatch op.symbol "bool" other)

def ofExcept : Except EvalError Value → EvalM Value
  | .ok value => return value
  | .error error => EvalM.fail error

/-- Evaluates a node, where `run` evaluates its parts. -/
def evalNode (context : Context) (run : Run) (e : Expr) (env : Env) : EvalM Value := do
  match e with
  | .param _ name =>
    match env.lookup name with
    | some value => return value
    | none => EvalM.fail (.unboundParameter name)
  | .literal _ value => return .ofLiteral value
  | .default ty => return .default context.defs ty
  | .member ty target name _ =>
    let value ← run target env
    context.readMember value target.ty name ty
  | .staticMember ty name declaring => context.readStatic declaring name ty
  | .call ty object method args =>
    let object ← run object env
    let args ← args.mapM fun arg => run arg env
    context.callOn run method ty object args
  | .freeCall ty method args =>
    let args ← args.mapM fun arg => run arg env
    context.callFree run method ty args
  | .lambda _ params body => return .closure params body env
  | .binary _ op left right =>
    if op = .and || op = .or then
      let first ← truth op (← run left env)
      if first = (op = .or) then
        return .bool first
      return .bool (← truth op (← run right env))
    let first ← run left env
    let second ← run right env
    ofExcept (op.apply first second)
  | .unary _ op operand =>
    let value ← run operand env
    ofExcept (op.apply value)
  | .coalesce _ left right =>
    let value ← run left env
    if value.isNull then run right env else return value
  | .cond _ test ifTrue ifFalse =>
    match ← run test env with
    | .bool true => run ifTrue env
    | .bool false => run ifFalse env
    | other => EvalM.fail (.mismatch "conditional test" "bool" other)
  | .convert ty operand =>
    let value ← run operand env
    return value.convert ty
  | .construct ty args =>
    let _ ← args.mapM fun arg => run arg env
    return .construct context.defs ty
  | .newArray _ elements =>
    return .array (← elements.mapM fun element => run element env)
  | .index _ target position =>
    let target ← run target env
    let position ← run position env
    ofExcept (target.elementAt position)
  | .bind _ var value body =>
    let value ← run value env
    run body (env.insert var.name value)

/-- Evaluates with at most `fuel` levels below each other. -/
def eval (context : Context) : Nat → Run
  | 0, _, _ => throw .outOfFuel
  | fuel + 1, e, env => context.evalNode (context.eval fuel) e env

/-- More levels than an evaluation that ends in practice needs. -/
def plenty : Nat := 1000000

def evaluate (context : Context) (e : Expr) (env : Env) (trace : Trace) :
    Except Stop Value × Trace :=
  (context.eval plenty e env).run trace

def call (context : Context) (callee : Value) (args : List Value) (trace : Trace) :
    Except Stop Value × Trace :=
  (invoke (context.eval plenty) callee args).run trace

end Context

end NullGuard
