import NullGuard.Expr.Basic

/-!
Equality of expressions node by node, in which doubles are compared as numbers: the two zeros are
equal, and a tree with a literal that is no number differs even from itself.
-/

namespace NullGuard

def Literal.same : Literal → Literal → Bool
  | .null, .null => true
  | .bool a, .bool b => a = b
  | .int a, .int b => a = b
  | .double a, .double b => a == b
  | .string a, .string b => a = b
  | _, _ => false

namespace Expr

mutual

def same : Expr → Expr → Bool
  | param ty name, param ty' name' => ty = ty' && name = name'
  | literal ty value, literal ty' value' => ty = ty' && value.same value'
  | default ty, default ty' => ty = ty'
  | member ty target name declaring, member ty' target' name' declaring' =>
    ty = ty' && target.same target' && name = name' && declaring = declaring'
  | staticMember ty name declaring, staticMember ty' name' declaring' =>
    ty = ty' && name = name' && declaring = declaring'
  | call ty object method args, call ty' object' method' args' =>
    ty = ty' && object.same object' && method = method' && sameAll args args'
  | freeCall ty method args, freeCall ty' method' args' =>
    ty = ty' && method = method' && sameAll args args'
  | lambda ty params body, lambda ty' params' body' =>
    ty = ty' && params = params' && body.same body'
  | binary ty op left right, binary ty' op' left' right' =>
    ty = ty' && op = op' && left.same left' && right.same right'
  | unary ty op operand, unary ty' op' operand' => ty = ty' && op = op' && operand.same operand'
  | coalesce ty left right, coalesce ty' left' right' =>
    ty = ty' && left.same left' && right.same right'
  | cond ty test ifTrue ifFalse, cond ty' test' ifTrue' ifFalse' =>
    ty = ty' && test.same test' && ifTrue.same ifTrue' && ifFalse.same ifFalse'
  | convert ty operand, convert ty' operand' => ty = ty' && operand.same operand'
  | construct ty args, construct ty' args' => ty = ty' && sameAll args args'
  | newArray ty elements, newArray ty' elements' => ty = ty' && sameAll elements elements'
  | index ty target position, index ty' target' position' =>
    ty = ty' && target.same target' && position.same position'
  | bind ty var value body, bind ty' var' value' body' =>
    ty = ty' && var = var' && value.same value' && body.same body'
  | _, _ => false

def sameAll : List Expr → List Expr → Bool
  | [], [] => true
  | e :: es, e' :: es' => e.same e' && sameAll es es'
  | _, _ => false

end

end Expr

end NullGuard
