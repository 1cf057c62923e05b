import NullGuard.Eval.Error

/-!
The monad of evaluations. An evaluation ends with a value or an error, unless its fuel runs out,
and it leaves a trace of what it has looked at.
-/

namespace NullGuard

/-- A member that was read from a value, or a method that was entered. -/
inductive Access where
  | member (name : String)
  | call (name : String)
  deriving DecidableEq, Inhabited

def Access.text : Access → String
  | .member name => "member " ++ name
  | .call name => "call " ++ name

/-- The accesses, and the fields that were looked up by their declaration because the object did
not hold them. The latest comes first in both. -/
structure Trace where
  accesses : List Access
  lookups : List (Ty × String)
  deriving Inhabited

namespace Trace

def empty : Trace := ⟨[], []⟩

/-- The accesses in order. -/
def log (trace : Trace) : List Access :=
  trace.accesses.reverse

def readMember (trace : Trace) (name : String) : Bool :=
  trace.log.contains (.member name)

def invoked (trace : Trace) (name : String) : Bool :=
  trace.log.contains (.call name)

end Trace

/-- Why an evaluation has no value. -/
inductive Stop where
  | fault (error : EvalError)
  | outOfFuel
  deriving DecidableEq, Inhabited

abbrev EvalM := ExceptT Stop (StateM Trace)

namespace EvalM

def fail {α : Type} (error : EvalError) : EvalM α :=
  throw (.fault error)

def record (access : Access) : EvalM Unit :=
  modify fun trace => { trace with accesses := access :: trace.accesses }

def recordLookup (ty : Ty) (name : String) : EvalM Unit :=
  modify fun trace => { trace with lookups := (ty, name) :: trace.lookups }

end EvalM

end NullGuard
