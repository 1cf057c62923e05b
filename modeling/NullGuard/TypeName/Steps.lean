import NullGuard.TypeName.Token

/-!
The grammar of type names,

    type   := name ('<' type (',' type)* '>')? suffix*
    suffix := '?' | '[' ']'

read into the steps that build the type from its parts. A text that leaves the grammar still
gives the steps before that place, since a name is looked up as soon as it is complete.
-/

namespace NullGuard.TypeName

/-- A step takes its arguments from the types built last. -/
inductive Step where
  | apply (name : String) (arity : Nat)
  | nullable
  | array
  deriving DecidableEq, Inhabited

/-- Where a text leaves the grammar: at its end, or at a character. -/
inductive Fault where
  | unexpectedEnd
  | unexpectedChar (found : Char) (offset : Nat)
  deriving DecidableEq, Inhabited

def faultAt : List Token → Fault
  | [] => .unexpectedEnd
  | token :: _ => .unexpectedChar token.kind.first token.offset

/-- A name whose arguments are being read, with the number of those already complete. -/
structure OpenName where
  name : String
  complete : Nat
  deriving DecidableEq, Inhabited

mutual

/-- Reads a type inside the names that are still open, the innermost first. -/
def readType (opened : List OpenName) : List Token → List Step × Option Fault
  | ⟨_, .name chars⟩ :: ⟨offset, .mark c⟩ :: rest =>
    if c = '<' then readType (⟨String.ofList chars, 0⟩ :: opened) rest
    else
      let (steps, fault) := readSuffixes opened (⟨offset, .mark c⟩ :: rest)
      (.apply (String.ofList chars) 0 :: steps, fault)
  | ⟨_, .name chars⟩ :: rest =>
    let (steps, fault) := readSuffixes opened rest
    (.apply (String.ofList chars) 0 :: steps, fault)
  | rest => ([], some (faultAt rest))
termination_by rest => rest.length

/-- Reads what may follow a complete type. -/
def readSuffixes (opened : List OpenName) : List Token → List Step × Option Fault
  | [] => ([], if opened.isEmpty then none else some .unexpectedEnd)
  | token :: rest =>
    match token.kind, opened with
    | .mark '?', _ =>
      let (steps, fault) := readSuffixes opened rest
      (.nullable :: steps, fault)
    | .mark '[', _ =>
      match rest with
      | ⟨_, .mark ']'⟩ :: rest =>
        let (steps, fault) := readSuffixes opened rest
        (.array :: steps, fault)
      | rest => ([], some (faultAt rest))
    | .mark ',', outer :: opened =>
      readType (⟨outer.name, outer.complete + 1⟩ :: opened) rest
    | .mark '>', outer :: opened =>
      let (steps, fault) := readSuffixes opened rest
      (.apply outer.name (outer.complete + 1) :: steps, fault)
    | _, _ => ([], some (faultAt (token :: rest)))
termination_by rest => rest.length

end

/-- The steps of a whole text, and where it leaves the grammar if it does. -/
def steps (text : String) : List Step × Option Fault :=
  readType [] (tokens 0 text.toList)

end NullGuard.TypeName
