/-!
JSON values. The members of an object stand in the order in which they were written, and a key
may stand more than once.
-/

namespace NullGuard

/-- An `int` lies between `-2 ^ 63` and `2 ^ 64 - 1`; all other numbers are doubles. -/
inductive Json where
  | null
  | bool (value : Bool)
  | int (value : Int)
  | double (value : Float)
  | string (value : String)
  | array (items : List Json)
  | object (members : List (String × Json))
  deriving Inhabited

namespace Json

/-- Puts a member into an object. A member of that key keeps its place and takes the value. -/
def setMember {α : Type} (name : String) (value : α) : List (String × α) → List (String × α)
  | [] => [(name, value)]
  | (other, old) :: rest =>
    if other = name then (other, value) :: rest else (other, old) :: setMember name value rest

/-- Leaves one member for each key, at the place of the first and with the value of the last. -/
def mergeMembers {α : Type} (members : List (String × α)) : List (String × α) :=
  members.foldl (fun merged member => setMember member.1 member.2 merged) []

mutual

/-- Merges repeated keys in all objects. -/
def merged : Json → Json
  | array items => array (mergedItems items)
  | object members => object (mergeMembers (mergedMembers members))
  | value => value

def mergedItems : List Json → List Json
  | [] => []
  | item :: items => item.merged :: mergedItems items

def mergedMembers : List (String × Json) → List (String × Json)
  | [] => []
  | (name, value) :: members => (name, value.merged) :: mergedMembers members

end

/-- The value of a key that stands once. -/
def get? (name : String) : Json → Option Json
  | object members => members.lookup name
  | _ => none

end Json

end NullGuard
