import NullGuard.Ty.Equality

/-!
Query expressions. Every node carries the static type of its value.
-/

namespace NullGuard

inductive Literal where
  | null
  | bool (value : Bool)
  | int (value : Int64)
  | double (value : Float)
  | string (value : String)
  deriving Inhabited

inductive BinaryOp where
  | eq | ne | lt | le | gt | ge | add | sub | mul | div | and | or
  deriving DecidableEq, Inhabited

namespace BinaryOp

def all : List BinaryOp :=
  [eq, ne, lt, le, gt, ge, add, sub, mul, div, and, or]

def symbol : BinaryOp → String
  | eq => "=="
  | ne => "!="
  | lt => "<"
  | le => "<="
  | gt => ">"
  | ge => ">="
  | add => "+"
  | sub => "-"
  | mul => "*"
  | div => "/"
  | and => "&&"
  | or => "||"

def ofSymbol? (symbol : String) : Option BinaryOp :=
  all.find? fun op => op.symbol = symbol

/-- The operators whose value is a `bool`, whatever their operands are. -/
def isPredicate : BinaryOp → Bool
  | add | sub | mul | div => false
  | _ => true

end BinaryOp

inductive UnaryOp where
  | not | neg
  deriving DecidableEq, Inhabited

namespace UnaryOp

def symbol : UnaryOp → String
  | not => "!"
  | neg => "-"

def ofSymbol? : String → Option UnaryOp
  | "!" => some not
  | "-" => some neg
  | _ => none

end UnaryOp

/-- A name bound by a lambda or a `let`, with its static type. -/
structure Param where
  name : String
  ty : Ty
  deriving DecidableEq, Inhabited

/-- A method, with the static class that holds it if it is not an instance method. The first
argument of an extension method is its receiver. -/
structure Method where
  name : String
  owner : Option String
  isExtension : Bool
  deriving DecidableEq, Inhabited

/-- `call` has an object and `freeCall` has none. `convert`, `construct` and `newArray` make
values of the node's type. `bind` evaluates `value` once and holds it under the variable's name
while `body` runs. -/
inductive Expr where
  | param (ty : Ty) (name : String)
  | literal (ty : Ty) (value : Literal)
  | default (ty : Ty)
  | member (ty : Ty) (target : Expr) (name : String) (declaring : Ty)
  | staticMember (ty : Ty) (name : String) (declaring : Ty)
  | call (ty : Ty) (object : Expr) (method : Method) (args : List Expr)
  | freeCall (ty : Ty) (method : Method) (args : List Expr)
  | lambda (ty : Ty) (params : List Param) (body : Expr)
  | binary (ty : Ty) (op : BinaryOp) (left right : Expr)
  | unary (ty : Ty) (op : UnaryOp) (operand : Expr)
  | coalesce (ty : Ty) (left right : Expr)
  | cond (ty : Ty) (test ifTrue ifFalse : Expr)
  | convert (ty : Ty) (operand : Expr)
  | construct (ty : Ty) (args : List Expr)
  | newArray (ty : Ty) (elements : List Expr)
  | index (ty : Ty) (target position : Expr)
  | bind (ty : Ty) (var : Param) (value body : Expr)
  deriving Inhabited

namespace Expr

/-- The static type. -/
def ty : Expr → Ty
  | param ty _ | literal ty _ | default ty | member ty .. | staticMember ty .. | call ty ..
  | freeCall ty .. | lambda ty .. | binary ty .. | unary ty .. | coalesce ty .. | cond ty ..
  | convert ty _ | construct ty _ | newArray ty _ | index ty .. | bind ty .. => ty

def isNull : Expr → Bool
  | literal _ .null => true
  | _ => false

/-- The direct parts in the order in which they are evaluated. -/
def children : Expr → List Expr
  | param .. | literal .. | default _ | staticMember .. => []
  | member _ target _ _ => [target]
  | call _ object _ args => object :: args
  | freeCall _ _ args => args
  | lambda _ _ body => [body]
  | binary _ _ left right => [left, right]
  | unary _ _ operand => [operand]
  | coalesce _ left right => [left, right]
  | cond _ test ifTrue ifFalse => [test, ifTrue, ifFalse]
  | convert _ operand => [operand]
  | construct _ args => args
  | newArray _ elements => elements
  | index _ target position => [target, position]
  | bind _ _ value body => [value, body]

theorem sizeOf_lt_of_mem_children {child e : Expr} (h : child ∈ e.children) :
    sizeOf child < sizeOf e := by
  cases e with
  | param | literal | default | staticMember => simp [children] at h
  | member | lambda | unary | convert =>
    obtain rfl := List.mem_singleton.mp h
    simp +arith
  | call _ object _ args =>
    rcases List.mem_cons.mp h with rfl | h
    · simp +arith
    · have := List.sizeOf_lt_of_mem h
      simp
      omega
  | freeCall | construct | newArray =>
    have := List.sizeOf_lt_of_mem h
    simp only [children] at this
    simp
    omega
  | binary | coalesce | index | bind =>
    simp only [children, List.mem_cons, List.not_mem_nil, or_false] at h
    rcases h with rfl | rfl <;> simp +arith
  | cond =>
    simp only [children, List.mem_cons, List.not_mem_nil, or_false] at h
    rcases h with rfl | rfl | rfl <;> simp +arith

end Expr

end NullGuard
