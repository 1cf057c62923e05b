import NullGuard.Eval.Value

/-!
What can go wrong in an evaluation.
-/

namespace NullGuard

inductive EvalError where
  | nullReference (member : String)
  | nullReceiver (method : String)
  | unknownMethod (method receiver : String)
  | unknownMember (member receiver : String)
  | unboundParameter (name : String)
  | typeMismatch (context expected found : String)
  | emptySequence (method : String)
  | indexOutOfRange (index : Int) (length : Nat)
  | divideByZero
  deriving DecidableEq, Inhabited

namespace EvalError

def mismatch (context expected : String) (found : Value) : EvalError :=
  .typeMismatch context expected found.kindName

def message : EvalError → String
  | .nullReference member => s!"null reference while accessing `{member}`"
  | .nullReceiver method => s!"`{method}` was called with a null receiver"
  | .unknownMethod method receiver => s!"unknown method `{method}` for {receiver}"
  | .unknownMember member receiver => s!"unknown member `{member}` on {receiver}"
  | .unboundParameter name => s!"parameter `{name}` is not bound"
  | .typeMismatch context expected found =>
    s!"type mismatch in {context}: expected {expected}, found {found}"
  | .emptySequence method => s!"`{method}` found no matching element"
  | .indexOutOfRange index length => s!"index {index} is out of range for length {length}"
  | .divideByZero => "division by zero"

end EvalError

end NullGuard
