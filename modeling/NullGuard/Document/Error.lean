import NullGuard.Expr.Build
import NullGuard.Guard.Insert
import NullGuard.TypeName.Resolve

/-!
What can be wrong with a query document: a cause and the places around it, the outermost first.
-/

namespace NullGuard

inductive DocumentCause where
  | malformed
  | unreadable (path : String)
  | typeName (error : TypeNameError)
  | build (error : BuildError)
  | guards (error : GuardError)
  | alreadyDefined (name : String)
  | undeclaredParameter (name : String)
  | strayData (name : String)
  | notScalar (json : String)
  | unknownBinary (symbol : String)
  | unknownUnary (symbol : String)
  | noMember (ty name : String)
  deriving DecidableEq, Inhabited

inductive DocumentPlace where
  | typeName (name : String)
  | bases (name : String)
  | fields (name : String)
  | parameter (name : String)
  | data (name : String)
  | guarding
  deriving DecidableEq, Inhabited

structure DocumentError where
  places : List DocumentPlace
  cause : DocumentCause
  deriving DecidableEq, Inhabited

def DocumentPlace.text : DocumentPlace → String
  | typeName name => s!"invalid type `{name}`"
  | bases name => s!"in the bases of `{name}`"
  | fields name => s!"in the fields of `{name}`"
  | parameter name => s!"in the type of parameter `{name}`"
  | data name => s!"in the data for `{name}`"
  | guarding => "failed to rewrite expression"

/-- The text of a cause. Errors of building a node are reported by their parts and have none. -/
def DocumentCause.text : DocumentCause → String
  | malformed => "invalid query document"
  | unreadable path => "failed to read query document " ++ path
  | typeName error => error.message
  | build _ => ""
  | guards error => error.message
  | alreadyDefined name => s!"type `{name}` is already defined"
  | undeclaredParameter name => s!"parameter `{name}` is not declared"
  | strayData name => s!"data given for undeclared parameter `{name}`"
  | notScalar json => s!"a constant must be a scalar, found `{json}`"
  | unknownBinary symbol => s!"unknown binary operator `{symbol}`"
  | unknownUnary symbol => s!"unknown unary operator `{symbol}`"
  | noMember ty name => s!"`{ty}` has no member `{name}`"

namespace DocumentError

/-- The texts of the places and of the cause, the outermost first. -/
def chain (error : DocumentError) : List String :=
  error.places.map (·.text) ++ [error.cause.text]

def of (cause : DocumentCause) : DocumentError :=
  ⟨[], cause⟩

end DocumentError

abbrev DocumentM := Except DocumentError

namespace DocumentM

def fail {α : Type} (cause : DocumentCause) : DocumentM α :=
  .error (.of cause)

/-- Puts a place around the errors of an action. -/
def within {α : Type} (place : DocumentPlace) : DocumentM α → DocumentM α
  | .ok value => .ok value
  | .error error => .error { error with places := place :: error.places }

def ofBuild {α : Type} : Except BuildError α → DocumentM α
  | .ok value => .ok value
  | .error error => fail (.build error)

end DocumentM

end NullGuard
