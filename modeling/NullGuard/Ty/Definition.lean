import NullGuard.Ty.Equality

/-!
Definitions of classes, structs and interfaces. A definition may be registered before its fields
and bases are known, so that definitions can refer to each other.
-/

namespace NullGuard

inductive DefinitionKind where
  | classType | structType | interfaceType
  deriving DecidableEq, Inhabited

structure Field where
  name : String
  ty : Ty
  deriving DecidableEq, Inhabited

/-- Bases and field types may mention the definition's parameters by their positions. -/
structure Definition where
  kind : DefinitionKind
  name : String
  params : List String
  bases : List Ty
  fields : List Field
  hasDefaultConstructor : Bool
  deriving DecidableEq, Inhabited

namespace Definition

/-- A definition without bases and fields. Structs have no parameters, and only an interface
lacks a default constructor. -/
def ofKind (kind : DefinitionKind) (name : String) (params : List String) : Definition where
  kind := kind
  name := name
  params := if kind = .structType then [] else params
  bases := []
  fields := []
  hasDefaultConstructor := kind ≠ .interfaceType

def arity (definition : Definition) : Nat :=
  definition.params.length

/-- The type of the first field of that name. Bases are not searched. -/
def fieldType? (definition : Definition) (name : String) : Option Ty :=
  (definition.fields.find? fun field => field.name = name).map Field.ty

end Definition

/-- The definitions in the order of their numbers. -/
structure Definitions where
  toList : List Definition
  deriving DecidableEq, Inhabited

namespace Definitions

def empty : Definitions := ⟨[]⟩

def size (defs : Definitions) : Nat :=
  defs.toList.length

def get? (defs : Definitions) (id : DefId) : Option Definition :=
  match id.number with
  | 0 => none
  | position + 1 => defs.toList[position]?

/-- The latest definition of that name. -/
def find? (defs : Definitions) (name : String) : Option DefId :=
  (defs.toList.reverse.findIdx? fun definition => definition.name = name).map
    fun later => ⟨defs.size - later⟩

def register (defs : Definitions) (definition : Definition) : DefId × Definitions :=
  (⟨defs.size + 1⟩, ⟨defs.toList ++ [definition]⟩)

/-- A number without a definition leaves everything as it is. -/
def modify (defs : Definitions) (id : DefId) (change : Definition → Definition) : Definitions :=
  match id.number with
  | 0 => defs
  | position + 1 => ⟨defs.toList.modify position change⟩

def setFields (defs : Definitions) (id : DefId) (fields : List Field) : Definitions :=
  defs.modify id fun definition => { definition with fields }

def addFields (defs : Definitions) (id : DefId) (fields : List Field) : Definitions :=
  defs.modify id fun definition => { definition with fields := definition.fields ++ fields }

def setBases (defs : Definitions) (id : DefId) (bases : List Ty) : Definitions :=
  defs.modify id fun definition => { definition with bases }

def kind? (defs : Definitions) (id : DefId) : Option DefinitionKind :=
  (defs.get? id).map (·.kind)

def arity? (defs : Definitions) (id : DefId) : Option Nat :=
  (defs.get? id).map (·.arity)

def hasDefaultConstructor (defs : Definitions) (id : DefId) : Bool :=
  (defs.get? id).any (·.hasDefaultConstructor)

@[simp]
theorem register_fst (defs : Definitions) (definition : Definition) :
    (defs.register definition).1 = ⟨defs.size + 1⟩ := rfl

end Definitions

end NullGuard
