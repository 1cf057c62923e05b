import NullGuard.Document.Basic
import NullGuard.Json.Reader

/-!
JSON values as query documents. A record is an object or, with its parts in a fixed order, an
array, of which optional parts may be left out at the end. Documents and declarations refuse keys
that they do not know; query nodes ignore them.
-/

namespace NullGuard

/-! ### Parts of a record -/

/-- The parts with these names, in their order. No name may stand twice. -/
def namedParts? {α : Type} (names : List String) (members : List (String × α)) :
    Option (List (Option α)) :=
  let isRepeated (name : String) : Bool := 1 < (members.filter fun member => member.1 = name).length
  if names.any isRepeated then none else some (names.map fun name => members.lookup name)

/-- The parts by their positions. There may be fewer items than names, but not more. -/
def placedParts? {α : Type} (names : List String) (items : List α) : Option (List (Option α)) :=
  if names.length < items.length then none
  else some (items.map some ++ List.replicate (names.length - items.length) none)

/-- The parts of a record that has no others. -/
def Json.recordParts? (names : List String) : Json → Option (List (Option Json))
  | .object members =>
    if members.all fun member => names.contains member.1 then namedParts? names members else none
  | .array items => placedParts? names items
  | _ => none

def Json.string? : Json → Option String
  | .string s => some s
  | _ => none

def Json.bool? : Json → Option Bool
  | .bool b => some b
  | _ => none

/-- The items of an array, all read in the same way. -/
def Json.listOf? {α : Type} (read : Json → Option α) : Json → Option (List α)
  | .array items => items.mapM read
  | _ => none

/-- The members of an object, all read in the same way, in the order of their names. Of repeated
names the last counts. -/
def Json.sortedMembers? {α : Type} (read : Json → Option α) : Json → Option (List (String × α))
  | .object members => do
    let values ← members.mapM fun member => (read member.2).map (member.1, ·)
    return (mergeMembers values).mergeSort fun a b => a.1 ≤ b.1
  | _ => none

/-- A part that may be missing and then has a default. -/
def optionalPart? {α : Type} (missing : α) (read : Json → Option α) : Option Json → Option α
  | none => some missing
  | some value => read value

/-! ### Declarations -/

def FieldDecl.ofJson? (json : Json) : Option FieldDecl := do
  match ← json.recordParts? ["name", "type"] with
  | [some name, some ty] => return ⟨← name.string?, ← ty.string?⟩
  | _ => none

def DefinitionKind.ofName? : String → Option DefinitionKind
  | "class" => some .classType
  | "struct" => some .structType
  | "interface" => some .interfaceType
  | _ => none

/-- A kind is its name, or an object that has null under its name and nothing else. -/
def DefinitionKind.ofJson? : Json → Option DefinitionKind
  | .string name => ofName? name
  | .object [(name, .null)] => ofName? name
  | _ => none

def TypeDecl.ofJson? (json : Json) : Option TypeDecl := do
  match ← json.recordParts? ["name", "kind", "bases", "fields", "constructible"] with
  | [some name, kind, bases, fields, constructible] =>
    return {
      name := ← name.string?
      kind := ← optionalPart? .classType DefinitionKind.ofJson? kind
      bases := ← optionalPart? [] (Json.listOf? Json.string?) bases
      fields := ← optionalPart? [] (Json.listOf? FieldDecl.ofJson?) fields
      isConstructible := ← optionalPart? true Json.bool? constructible }
  | _ => none

/-! ### Query nodes -/

/-- The kinds of query nodes. -/
inductive NodeTag where
  | param | const | null | default | member | staticMember | call | extension | staticCall
  | lambda | binary | unary | coalesce | condition | convert | construct | newArray | index
  deriving DecidableEq, Inhabited

namespace NodeTag

def all : List NodeTag :=
  [param, const, null, default, member, staticMember, call, extension, staticCall, lambda,
    binary, unary, coalesce, condition, convert, construct, newArray, index]

def name : NodeTag → String
  | param => "param"
  | const => "const"
  | null => "null"
  | default => "default"
  | member => "member"
  | staticMember => "static_member"
  | call => "call"
  | extension => "extension"
  | staticCall => "static_call"
  | lambda => "lambda"
  | binary => "binary"
  | unary => "unary"
  | coalesce => "coalesce"
  | condition => "condition"
  | convert => "convert"
  | construct => "new"
  | newArray => "new_array"
  | index => "index"

/-- The names of the node's parts in their order. -/
def parts : NodeTag → List String
  | param => ["name"]
  | const => ["value", "type"]
  | null | default | construct => ["type"]
  | member => ["target", "name"]
  | staticMember => ["owner", "name", "type"]
  | call => ["object", "method", "args", "returns"]
  | extension | staticCall => ["owner", "method", "args", "returns"]
  | lambda => ["params", "body"]
  | binary => ["op", "left", "right"]
  | unary => ["op", "operand"]
  | coalesce => ["left", "right"]
  | condition => ["test", "if_true", "if_false"]
  | convert => ["operand", "type"]
  | newArray => ["type", "elements"]
  | index => ["target", "index"]

/-- A kind by its name or, below the root of a query, by its position. -/
def ofJson? (isRoot : Bool) : Json → Option NodeTag
  | .string name => all.find? fun tag => tag.name = name
  | .int position => if isRoot ∨ position < 0 then none else all[position.toNat]?
  | _ => none

end NodeTag

/-- A JSON value with what it is as a node and as a list of nodes, if it is one. -/
structure NodePart where
  json : Json
  node : Option QueryNode
  nodes : Option (List QueryNode)

namespace NodePart

def string? (part : NodePart) : Option String :=
  part.json.string?

/-- The arguments of a call, none if they are left out. -/
def optionalNodes? : Option NodePart → Option (List QueryNode)
  | none => some []
  | some part => part.nodes

/-- The name of a type, which may be left out or null. -/
def optionalName? : Option NodePart → Option (Option String)
  | none => some none
  | some ⟨.null, _, _⟩ => some none
  | some part => part.string?.map some

end NodePart

/-- The node of a kind from its parts. -/
def QueryNode.ofParts? : NodeTag → List (Option NodePart) → Option QueryNode
  | .param, [some name] => return .param (← name.string?)
  | .const, [some value, ty] =>
    return .const value.json.merged (← NodePart.optionalName? ty)
  | .null, [some ty] => return .null (← ty.string?)
  | .default, [some ty] => return .default (← ty.string?)
  | .member, [some target, some name] => return .member (← target.node) (← name.string?)
  | .staticMember, [some owner, some name, some ty] =>
    return .staticMember (← owner.string?) (← name.string?) (← ty.string?)
  | .call, [some object, some method, args, some returns] =>
    return .call (← object.node) (← method.string?) (← NodePart.optionalNodes? args)
      (← returns.string?)
  | .extension, [some owner, some method, some args, some returns] =>
    return .extension (← owner.string?) (← method.string?) (← args.nodes) (← returns.string?)
  | .staticCall, [some owner, some method, args, some returns] =>
    return .staticCall (← owner.string?) (← method.string?) (← NodePart.optionalNodes? args)
      (← returns.string?)
  | .lambda, [some params, some body] =>
    return .lambda (← params.json.listOf? FieldDecl.ofJson?) (← body.node)
  | .binary, [some op, some left, some right] =>
    return .binary (← op.string?) (← left.node) (← right.node)
  | .unary, [some op, some operand] => return .unary (← op.string?) (← operand.node)
  | .coalesce, [some left, some right] => return .coalesce (← left.node) (← right.node)
  | .condition, [some test, some ifTrue, some ifFalse] =>
    return .condition (← test.node) (← ifTrue.node) (← ifFalse.node)
  | .convert, [some operand, some ty] => return .convert (← operand.node) (← ty.string?)
  | .construct, [some ty] => return .construct (← ty.string?)
  | .newArray, [some ty, elements] =>
    return .newArray (← ty.string?) (← NodePart.optionalNodes? elements)
  | .index, [some target, some position] => return .index (← target.node) (← position.node)
  | _, _ => none

/-- A node from an object, which has its kind under `kind`. -/
def QueryNode.ofMembers? (isRoot : Bool) (members : List (String × NodePart)) :
    Option QueryNode := do
  match ← namedParts? ["kind"] members with
  | [some kind] =>
    let tag ← NodeTag.ofJson? isRoot kind.json
    ofParts? tag (← namedParts? tag.parts members)
  | _ => none

/-- A node from an array, which has its kind first. -/
def QueryNode.ofItems? (isRoot : Bool) : List NodePart → Option QueryNode
  | [] => none
  | kind :: items => do
    let tag ← NodeTag.ofJson? isRoot kind.json
    ofParts? tag (← placedParts? tag.parts items)

mutual

/-- What a JSON value below the root of a query is. -/
def NodePart.ofJson : Json → NodePart
  | .array items =>
    let parts := NodePart.ofItems items
    ⟨.array items, QueryNode.ofItems? false parts, parts.mapM (·.node)⟩
  | .object members =>
    let parts := NodePart.ofMembers members
    ⟨.object members, QueryNode.ofMembers? false parts, none⟩
  | value => ⟨value, none, none⟩

def NodePart.ofItems : List Json → List NodePart
  | [] => []
  | item :: items => NodePart.ofJson item :: NodePart.ofItems items

def NodePart.ofMembers : List (String × Json) → List (String × NodePart)
  | [] => []
  | (name, value) :: members => (name, NodePart.ofJson value) :: NodePart.ofMembers members

end

/-- The root of a query. -/
def QueryNode.ofJson? : Json → Option QueryNode
  | .array items => ofItems? true (NodePart.ofItems items)
  | .object members => ofMembers? true (NodePart.ofMembers members)
  | _ => none

/-! ### Documents -/

namespace Document

def ofJson? (json : Json) : Option Document := do
  match ← json.recordParts? ["types", "parameters", "expr", "data"] with
  | [types, parameters, some query, data] =>
    return {
      types := ← optionalPart? [] (Json.listOf? TypeDecl.ofJson?) types
      parameters := ← optionalPart? [] (Json.sortedMembers? Json.string?) parameters
      query := ← QueryNode.ofJson? query
      data := ← optionalPart? [] (Json.sortedMembers? fun value => some value.merged) data }
  | _ => none

/-- The number of arrays and objects that may be open at once in the text of a document. -/
def maxNesting : Nat := 127

def read? (text : String) : Option Document :=
  (Json.read? maxNesting text).bind ofJson?

end Document

end NullGuard
