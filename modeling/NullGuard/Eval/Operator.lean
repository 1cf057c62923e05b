import NullGuard.Eval.Error
import NullGuard.Ty.Collection

/-!
Operators on values. Null is never less or greater than anything, and arithmetic on null is null;
integers wrap around at 64 bits.
-/

namespace NullGuard

/-- Text in a concatenation: strings as they are, nothing for null. -/
def Value.concatText : Value → String
  | .null => ""
  | .string s => s
  | value => value.text

def UnaryOp.apply : UnaryOp → Value → Except EvalError Value
  | .not, .bool b => .ok (.bool !b)
  | .neg, .int i => .ok (.int (-i))
  | .neg, .double d => .ok (.double (-d))
  | _, .null => .ok .null
  | .not, value => .error (.mismatch "!" "bool" value)
  | .neg, value => .error (.mismatch "-" "number" value)

/-- The order of two values, if they have one. A double that is no number is equal to all. -/
def compareValues (symbol : String) : Value → Value → Except EvalError Ordering
  | .int a, .int b => .ok (compare a b)
  | .string a, .string b => .ok (compare a b)
  | a, b =>
    match a.toFloat?, b.toFloat? with
    | some x, some y => .ok (if x < y then .lt else if y < x then .gt else .eq)
    | none, _ => .error (.mismatch symbol "comparable" a)
    | _, none => .error (.mismatch symbol "comparable" b)

def comparison (op : BinaryOp) (a b : Value) : Except EvalError Value :=
  if a.isNull || b.isNull then .ok (.bool false)
  else do
    let order ← compareValues op.symbol a b
    return .bool <| match op with
      | .lt => order = .lt
      | .le => order ≠ .gt
      | .gt => order = .gt
      | _ => order ≠ .lt

def intArithmetic (op : BinaryOp) (a b : Int64) : Except EvalError Value :=
  match op with
  | .add => .ok (.int (a + b))
  | .sub => .ok (.int (a - b))
  | .mul => .ok (.int (a * b))
  | _ =>
    if b = 0 ∨ (a = Int64.minValue ∧ b = -1) then .error .divideByZero else .ok (.int (a / b))

def floatArithmetic (op : BinaryOp) (a b : Float) : Value :=
  match op with
  | .add => .double (a + b)
  | .sub => .double (a - b)
  | .mul => .double (a * b)
  | _ => .double (a / b)

def arithmetic (op : BinaryOp) (a b : Value) : Except EvalError Value :=
  match op, a, b with
  | .add, .string s, b => .ok (.string (s ++ b.concatText))
  | .add, a, .string s => .ok (.string (a.concatText ++ s))
  | _, .null, _ | _, _, .null => .ok .null
  | op, .int a, .int b => intArithmetic op a b
  | op, a, b =>
    match a.toFloat?, b.toFloat? with
    | some x, some y => .ok (floatArithmetic op x y)
    | none, _ => .error (.mismatch op.symbol "number" a)
    | _, none => .error (.mismatch op.symbol "number" b)

/-- The operators that need both operands. -/
def BinaryOp.apply (op : BinaryOp) (a b : Value) : Except EvalError Value :=
  match op with
  | .eq => .ok (.bool (a.looselyEquals b))
  | .ne => .ok (.bool !(a.looselyEquals b))
  | .lt | .le | .gt | .ge => comparison op a b
  | .add | .sub | .mul | .div => arithmetic op a b
  | .and | .or =>
    match a, b with
    | .bool x, .bool y => .ok (.bool (if op = .and then x && y else x || y))
    | a, _ => .error (.mismatch op.symbol "bool" a)

/-- Conversions between integers and floats, the latter without their fraction. All other values
stay as they are. -/
def Value.convert (value : Value) (ty : Ty) : Value :=
  match value, ty with
  | .int i, .intrinsic .double | .int i, .intrinsic .decimal => .double i.toFloat
  | .double d, .intrinsic .int | .double d, .intrinsic .long => .int d.toInt64
  | value, _ => value

def Value.elementAt (target position : Value) : Except EvalError Value :=
  match target, position with
  | .null, _ => .error (.nullReference "[]")
  | .collection _ items, .int i =>
    let found := if i < 0 then none else items[i.toInt.toNat]?
    match found with
    | some item => .ok item
    | none => .error (.indexOutOfRange i.toInt items.length)
  | .collection _ _, position => .error (.mismatch "index" "int" position)
  | target, _ => .error (.mismatch "index" "collection" target)

/-- An instance made without arguments being looked at. -/
def Value.construct (defs : Definitions) (ty : Ty) : Value :=
  match ty with
  | .named definition _ =>
    if definition = Collection.list then .list []
    else if definition = Collection.hashSet then .collection .set []
    else
      let value := Value.default defs ty
      if value.isNull then .object ty [] else value
  | ty => Value.default defs ty

end NullGuard
