import NullGuard.Document.Basic
import NullGuard.Document.Error

/-!
The types that a document declares and the types of its parameters. All declared names are
registered before any base or field is resolved, so declarations may refer to each other.
-/

namespace NullGuard

/-- The type that a document means by a name. -/
def resolveType (defs : Definitions) (name : String) : DocumentM Ty :=
  match Ty.parse defs name with
  | .ok ty => .ok ty
  | .error error => .error ⟨[.typeName name], .typeName error⟩

namespace TypeDecl

/-- The definition without its bases and fields. -/
def outline (decl : TypeDecl) : Definition :=
  let definition := Definition.ofKind decl.kind decl.name []
  if decl.isConstructible then definition
  else { definition with hasDefaultConstructor := false }

/-- Registers the outline. Neither a keyword nor a name that is taken can be declared. -/
def register (defs : Definitions) (decl : TypeDecl) : DocumentM Definitions :=
  if (Intrinsic.ofName? decl.name).isSome ∨ (defs.find? decl.name).isSome then
    DocumentM.fail (.alreadyDefined decl.name)
  else .ok (defs.register decl.outline).2

/-- Resolves the bases and the fields of a registered declaration. -/
def complete (defs : Definitions) (id : DefId) (decl : TypeDecl) : DocumentM Definitions := do
  let bases ← DocumentM.within (.bases decl.name) (decl.bases.mapM (resolveType defs))
  let fields ← DocumentM.within (.fields decl.name) <| decl.fields.mapM fun field => do
    return { name := field.name, ty := ← resolveType defs field.ty : Field }
  return (defs.setBases id bases).setFields id fields

end TypeDecl

namespace Document

/-- Completes declarations that were registered one after the other from `next` on. -/
def completeFrom (defs : Definitions) (next : Nat) : List TypeDecl → DocumentM Definitions
  | [] => .ok defs
  | decl :: decls => do
    let defs ← decl.complete defs ⟨next⟩
    completeFrom defs (next + 1) decls

def declareTypes (document : Document) (defs : Definitions) : DocumentM Definitions := do
  let registered ← document.types.foldlM TypeDecl.register defs
  completeFrom registered (defs.size + 1) document.types

/-- The parameters in the order of their names. -/
def parameterTypes (document : Document) (defs : Definitions) : DocumentM (List (String × Ty)) :=
  document.parameters.mapM fun (name, ty) => do
    return (name, ← DocumentM.within (.parameter name) (resolveType defs ty))

end Document

end NullGuard
