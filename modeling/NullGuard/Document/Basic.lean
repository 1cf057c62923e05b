import NullGuard.Json.Basic
import NullGuard.Ty.Definition

/-!
Query documents: types to declare, typed parameters, the query as a tree in which types are
names, and data for the parameters.
-/

namespace NullGuard

/-- A field or a lambda parameter with the name of its type. -/
structure FieldDecl where
  name : String
  ty : String
  deriving DecidableEq, Inhabited

structure TypeDecl where
  name : String
  kind : DefinitionKind
  bases : List String
  fields : List FieldDecl
  isConstructible : Bool
  deriving DecidableEq, Inhabited

inductive QueryNode where
  | param (name : String)
  | const (value : Json) (ty : Option String)
  | null (ty : String)
  | default (ty : String)
  | member (target : QueryNode) (name : String)
  | staticMember (owner name ty : String)
  | call (object : QueryNode) (method : String) (args : List QueryNode) (returns : String)
  | extension (owner method : String) (args : List QueryNode) (returns : String)
  | staticCall (owner method : String) (args : List QueryNode) (returns : String)
  | lambda (params : List FieldDecl) (body : QueryNode)
  | binary (op : String) (left right : QueryNode)
  | unary (op : String) (operand : QueryNode)
  | coalesce (left right : QueryNode)
  | condition (test ifTrue ifFalse : QueryNode)
  | convert (operand : QueryNode) (ty : String)
  | construct (ty : String)
  | newArray (ty : String) (elements : List QueryNode)
  | index (target position : QueryNode)
  deriving Inhabited

/-- Parameters and data stand in the order of their names, each name once. -/
structure Document where
  types : List TypeDecl
  parameters : List (String × String)
  query : QueryNode
  data : List (String × Json)
  deriving Inhabited

end NullGuard
