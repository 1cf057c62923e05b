import NullGuard.Document.Data
import NullGuard.Eval.Evaluate
import NullGuard.Ty.Numbering

/-!
A workspace holds what successive operations share: the definitions, the catalogue of the types
made so far, the remembered fallbacks, the method table and the trace of the evaluations.
-/

namespace NullGuard

structure Workspace where
  defs : Definitions
  catalogue : Catalogue
  cache : FallbackCache
  methods : MethodTable
  trace : Trace
  deriving Inhabited

/-- Operations on a workspace. -/
abbrev WorkspaceM := StateM Workspace

namespace Workspace

/-- The collections are defined, and the types that they mention are in the catalogue. -/
def new : Workspace where
  defs := Collection.definitions
  catalogue :=
    Catalogue.empty.recordAll (Collection.definitions.toList.flatMap fun found => found.bases)
  cache := .empty
  methods := .builtin
  trace := .empty

/-- How many types have been given a number. -/
def typeCount (workspace : Workspace) : Nat :=
  (workspace.catalogue.numbering Shape.shard).size

/-- Enters types into the catalogue. -/
def record (tys : List Ty) : WorkspaceM Unit :=
  modify fun workspace => { workspace with catalogue := workspace.catalogue.recordAll tys }

/-! ### Definitions -/

def define (definition : Definition) : WorkspaceM DefId :=
  modifyGet fun workspace =>
    let (id, defs) := workspace.defs.register definition
    (id, { workspace with defs })

def setFields (id : DefId) (fields : List Field) : WorkspaceM Unit :=
  modify fun workspace => { workspace with defs := workspace.defs.setFields id fields }

def addFields (id : DefId) (fields : List Field) : WorkspaceM Unit :=
  modify fun workspace => { workspace with defs := workspace.defs.addFields id fields }

def setBases (id : DefId) (bases : List Ty) : WorkspaceM Unit :=
  modify fun workspace => { workspace with defs := workspace.defs.setBases id bases }

/-! ### Types -/

/-- Makes a type of types that are made already. -/
def makeType (ty : Ty) : WorkspaceM Ty := do
  record [ty]
  return ty

def makeNullable (ty : Ty) : WorkspaceM Ty := do
  makeType (ty.makeNullable (← get).defs)

/-- Reads a type name. The types that it has made stay in the catalogue also if it fails. -/
def parseType (input : String) : WorkspaceM (Except TypeNameError Ty) := do
  let reading := TypeName.read (← get).defs input
  record reading.built
  return reading.result

def instantiate (ty : Ty) (args : List Ty) : WorkspaceM Ty := do
  makeType (ty.instantiate (← get).defs args)

def baseTypes (ty : Ty) : WorkspaceM (List Ty) := do
  let bases := ty.baseTypes (← get).defs
  record bases
  return bases

def isAssignable (source target : Ty) : WorkspaceM Bool := do
  let defs := (← get).defs
  record (Ty.madeByAssignability defs source target)
  return source.isAssignable defs target

def fieldType? (ty : Ty) (name : String) : WorkspaceM (Option Ty) := do
  let defs := (← get).defs
  record (Ty.madeByFieldSearch defs ty name)
  return ty.fieldType? defs name

/-- Looks up fields whose types do not matter further. -/
def recordLookups (lookups : List (Ty × String)) : WorkspaceM Unit := do
  let defs := (← get).defs
  record (lookups.flatMap fun (ty, name) => Ty.madeByFieldSearch defs ty name)

/-! ### Expressions -/

def member? (target : Expr) (name : String) : WorkspaceM (Except BuildError Expr) := do
  let defs := (← get).defs
  record (Expr.madeByMember defs target name)
  return Expr.member? defs target name

def newArray? (ty : Ty) (elements : List Expr) : WorkspaceM (Except BuildError Expr) := do
  let defs := (← get).defs
  record (Expr.madeByNewArray defs ty elements)
  return Expr.newArray? defs ty elements

/-! ### Guards -/

/-- The fallback of a type, worked out anew. -/
def fallback? (ty : Ty) : WorkspaceM (Option Expr) := do
  let defs := (← get).defs
  record (madeByFallback defs ty)
  return NullGuard.fallback? defs ty

/-- Takes a later state of the cache. Each entry that has come in was worked out. -/
def setCache (cache : FallbackCache) : WorkspaceM Unit := do
  let workspace ← get
  record ((cache.newSince workspace.cache).flatMap (madeByFallback workspace.defs))
  modify fun workspace => { workspace with cache }

/-- The fallback of a type by way of the cache. -/
def cachedFallback? (ty : Ty) : WorkspaceM (Option Expr) := do
  let workspace ← get
  let (found, cache) := workspace.cache.fallback? workspace.defs ty
  setCache cache
  return found

/-- Guards one node whose receiver uses its names alone. -/
def protect (emptyCollections : Bool) (receiver : Expr) (ty : Ty) (rebuild : Expr → Expr) :
    WorkspaceM (Expr × GuardStrategy) := do
  let workspace ← get
  let supplies : Supplies := ⟨workspace.cache, .reserving receiver⟩
  let (guarded, supplies) :=
    (NullGuard.protect workspace.defs emptyCollections receiver ty rebuild).run supplies
  setCache supplies.cache
  return guarded

def insertGuards (options : GuardOptions) (e : Expr) :
    WorkspaceM (Except GuardError Guarded) := do
  let workspace ← get
  let (result, cache) := e.insertGuards workspace.defs options workspace.cache
  setCache cache
  return result

/-! ### Evaluation -/

/-- Starts a new trace. -/
def clearTrace : WorkspaceM Unit :=
  modify fun workspace => { workspace with trace := .empty }

/-- Takes the result and the trace of an evaluation. -/
def finish (outcome : Except Stop Value × Trace) : WorkspaceM (Except Stop Value) := do
  let (result, trace) := outcome
  recordLookups trace.lookups
  modify fun workspace => { workspace with trace := { trace with lookups := [] } }
  return result

def context (workspace : Workspace) : Context :=
  ⟨workspace.defs, workspace.methods⟩

def evaluate (e : Expr) (env : Env) : WorkspaceM (Except Stop Value) := do
  let workspace ← get
  finish (workspace.context.evaluate e env workspace.trace)

def call (callee : Value) (args : List Value) : WorkspaceM (Except Stop Value) := do
  let workspace ← get
  finish (workspace.context.call callee args workspace.trace)

def registerMethod (name : String) (method : Builtin) : WorkspaceM Unit :=
  modify fun workspace => { workspace with methods := workspace.methods.register name method }

/-- Forgets all methods and the trace. -/
def clearMethods : WorkspaceM Unit :=
  modify fun workspace => { workspace with methods := .empty, trace := .empty }

/-- The value of JSON data for a type. -/
def dataValue (ty : Ty) (json : Json) : WorkspaceM (DocumentM Value) := do
  let defs := (← get).defs
  recordLookups (json.lookups defs ty)
  return json.toValue defs ty

end Workspace

end NullGuard
