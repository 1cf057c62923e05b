import NullGuard.Ty.Nullability
import NullGuard.TypeName.Steps

/-!
Type names against the registered definitions. Of several errors the first in the text is
reported: a name that cannot be resolved comes before a later fault of the grammar.
-/

namespace NullGuard

inductive TypeNameError where
  | unexpectedEnd (input : String)
  | unexpectedChar (found : Char) (offset : Nat) (input : String)
  | unknownType (name : String)
  | arityMismatch (name : String) (expected found : Nat)
  deriving DecidableEq, Inhabited

def TypeNameError.message : TypeNameError → String
  | .unexpectedEnd input => s!"unexpected end of type name `{input}`"
  | .unexpectedChar found offset input =>
    s!"unexpected character `{found}` at offset {offset} in `{input}`"
  | .unknownType name => s!"unknown type `{name}`"
  | .arityMismatch name expected found =>
    s!"`{name}` expects {expected} type argument(s), found {found}"

namespace TypeName

def Fault.toError (input : String) : Fault → TypeNameError
  | .unexpectedEnd => .unexpectedEnd input
  | .unexpectedChar found offset => .unexpectedChar found offset input

/-- A keyword takes no arguments; any other name is the latest definition of that name. -/
def resolveName (defs : Definitions) (name : String) (args : List Ty) : Except TypeNameError Ty :=
  match Intrinsic.ofName? name with
  | some kind =>
    if args.isEmpty then .ok (.intrinsic kind)
    else .error (.arityMismatch name 0 args.length)
  | none =>
    match defs.find? name with
    | none => .error (.unknownType name)
    | some definition =>
      let expected := (defs.arity? definition).getD 0
      if expected = args.length then .ok (.named definition args)
      else .error (.arityMismatch name expected args.length)

/-- Runs one step on the types built so far, the last one first. -/
def Step.run (defs : Definitions) : Step → List Ty → Except TypeNameError (List Ty)
  | .apply name arity, built => do
    let ty ← resolveName defs name (built.take arity).reverse
    return ty :: built.drop arity
  | .nullable, ty :: built => .ok (ty.makeNullable defs :: built)
  | .array, ty :: built => .ok (.array ty :: built)
  | .nullable, [] | .array, [] => .ok []

/-- Runs the steps until one fails. The types built by then are kept. -/
def runSteps (defs : Definitions) : List Step → List Ty → Option TypeNameError × List Ty
  | [], built => (none, built)
  | step :: steps, built =>
    match step.run defs built with
    | .ok built => runSteps defs steps built
    | .error error => (some error, built)

/-- The outcome of reading a type name, and the types built on the way, without their parts. -/
structure Reading where
  result : Except TypeNameError Ty
  built : List Ty

def read (defs : Definitions) (input : String) : Reading :=
  let (steps, fault) := steps input
  match runSteps defs steps [], fault with
  | (some error, built), _ => ⟨.error error, built⟩
  | (none, built), some fault => ⟨.error (fault.toError input), built⟩
  | (none, ty :: built), none => ⟨.ok ty, ty :: built⟩
  | (none, []), none => ⟨.error (.unexpectedEnd input), []⟩

end TypeName

/-- The type that a name stands for. -/
def Ty.parse (defs : Definitions) (input : String) : Except TypeNameError Ty :=
  (TypeName.read defs input).result

end NullGuard
