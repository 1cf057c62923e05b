import NullGuard.Eval.Trace
import NullGuard.Text.Uppercase

/-!
The methods that queries may call. One method serves the instance form `xs.Count()` and the
extension form `Enumerable.Count(xs)`; a static method has no receiver and gets null for it.
-/

namespace NullGuard

inductive Builtin where
  | count | any | first | firstOrDefault | filter | select | sum | contains | toUpper | length
  | isNullOrEmpty
  deriving DecidableEq, Inhabited

namespace Builtin

def all : List Builtin :=
  [count, any, first, firstOrDefault, filter, select, sum, contains, toUpper, length,
    isNullOrEmpty]

/-- The name that the method is called by. -/
def name : Builtin → String
  | count => "Count"
  | any => "Any"
  | first => "First"
  | firstOrDefault => "FirstOrDefault"
  | filter => "Where"
  | select => "Select"
  | sum => "Sum"
  | contains => "Contains"
  | toUpper => "ToUpper"
  | length => "Length"
  | isNullOrEmpty => "String.IsNullOrEmpty"

def ofName? (name : String) : Option Builtin :=
  all.find? fun builtin => builtin.name = name

end Builtin

/-- The methods by the names that they are called by, each name once. -/
structure MethodTable where
  entries : List (String × Builtin)
  deriving Inhabited

namespace MethodTable

def empty : MethodTable := ⟨[]⟩

def builtin : MethodTable :=
  ⟨Builtin.all.map fun method => (method.name, method)⟩

def get? (table : MethodTable) (name : String) : Option Builtin :=
  table.entries.lookup name

def size (table : MethodTable) : Nat :=
  table.entries.length

/-- Adds a method, instead of an earlier one of that name if there is one. -/
def register (table : MethodTable) (name : String) (method : Builtin) : MethodTable :=
  ⟨(name, method) :: table.entries.filter fun entry => entry.1 ≠ name⟩

end MethodTable

/-- Keeps the items that pass a test, in order. -/
def keepM {m : Type → Type} [Monad m] {α : Type} (test : α → m Bool) : List α → m (List α)
  | [] => pure []
  | item :: items => do
    let accepted ← test item
    let kept ← keepM test items
    return if accepted then item :: kept else kept

/-- The call that a method runs for: the name it was called by, and the static type of the call. -/
structure CallSite where
  method : String
  ty : Ty

namespace CallSite

def fail {α : Type} (site : CallSite) (expected : String) (found : Value) : EvalM α :=
  EvalM.fail (.mismatch site.method expected found)

def items (site : CallSite) : Value → EvalM (List Value)
  | .collection _ items => return items
  | other => site.fail "collection" other

end CallSite

/-- How a method calls a closure. -/
abbrev Invoke := Value → List Value → EvalM Value

/-- The answer of a predicate to an item. -/
def CallSite.test (site : CallSite) (invoke : Invoke) (predicate item : Value) : EvalM Bool := do
  match ← invoke predicate [item] with
  | .bool answer => return answer
  | other => site.fail "bool" other

/-- The items that the predicate accepts, or all items without a predicate. -/
def CallSite.matching (site : CallSite) (invoke : Invoke) (receiver : Value)
    (args : List Value) : EvalM (List Value) := do
  let items ← site.items receiver
  match args with
  | [] => return items
  | predicate :: _ => keepM (site.test invoke predicate) items

/-- A running total, kept both as an integer and as a float. -/
structure Total where
  whole : Int64
  real : Float
  isReal : Bool

/-- Nulls are skipped, and one double makes the total a double. -/
def Total.add (site : CallSite) (total : Total) : Value → EvalM Total
  | .null => return total
  | .int i => return { total with whole := total.whole + i, real := total.real + i.toFloat }
  | .double d => return { total with real := total.real + d, isReal := true }
  | other => site.fail "number" other

def Total.value (total : Total) : Value :=
  if total.isReal then .double total.real else .int total.whole

/-- Whether `part` stands somewhere in the list as it is. -/
def hasSublist (part : List Char) : List Char → Bool
  | [] => part.isEmpty
  | c :: cs => part.isPrefixOf (c :: cs) || hasSublist part cs

def Builtin.run (defs : Definitions) (invoke : Invoke) (site : CallSite) (receiver : Value)
    (args : List Value) : Builtin → EvalM Value
  | count => do
    let kept ← site.matching invoke receiver args
    return .int (Int64.ofNat kept.length)
  | any => do
    let kept ← site.matching invoke receiver args
    return .bool !kept.isEmpty
  | first => do
    match ← site.matching invoke receiver args with
    | [] => EvalM.fail (.emptySequence site.method)
    | item :: _ => return item
  | firstOrDefault => do
    match ← site.matching invoke receiver args with
    | [] => return .default defs site.ty
    | item :: _ => return item
  | filter => do
    if args.isEmpty then
      site.fail "closure" .null
    return .list (← site.matching invoke receiver args)
  | select => do
    let items ← site.items receiver
    return .list (← items.mapM fun item => invoke (args.headD .null) [item])
  | sum => do
    let items ← site.items receiver
    let start : Total := ⟨0, 0.0, site.ty = .double || site.ty = .intrinsic .decimal⟩
    let total ← items.foldlM (fun total item => do
      match args with
      | [] => total.add site item
      | selector :: _ => total.add site (← invoke selector [item])) start
    return total.value
  | contains => do
    match receiver, args.headD .null with
    | .string text, .string part => return .bool (hasSublist part.toList text.toList)
    | .string _, other => site.fail "string" other
    | receiver, item =>
      let items ← site.items receiver
      return .bool (items.any (Value.looselyEquals · item))
  | toUpper =>
    match receiver with
    | .string s => return .string (Text.uppercase s)
    | other => site.fail "string" other
  | length =>
    match receiver with
    | .string s => return .int (Int64.ofNat s.length)
    | .collection _ items => return .int (Int64.ofNat items.length)
    | other => site.fail "string" other
  | isNullOrEmpty =>
    match args with
    | [] | .null :: _ => return .bool true
    | .string s :: _ => return .bool s.isEmpty
    | other :: _ => site.fail "string" other

end NullGuard
