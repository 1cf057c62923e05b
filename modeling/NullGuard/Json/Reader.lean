import NullGuard.Json.Token

/-!
JSON text as a value. The arrays and objects around the present place are kept on a stack, whose
height may be limited.
-/

namespace NullGuard.Json

/-- An array or object whose end has not been reached, items and members in reverse. An object
also has the key of the member that comes next. -/
inductive Frame where
  | array (items : List Json)
  | object (members : List (String × Json)) (key : String)

/-- What may come next. -/
inductive Expected where
  | value
  | valueOrClose
  | key
  | keyOrClose
  | colon
  | commaOrClose
  | nothing (result : Json)

structure Place where
  stack : List Frame
  expected : Expected

namespace Place

def start : Place := ⟨[], .value⟩

/-- Goes on after a complete value. -/
def complete (value : Json) : List Frame → Place
  | [] => ⟨[], .nothing value⟩
  | .array items :: stack => ⟨.array (value :: items) :: stack, .commaOrClose⟩
  | .object members key :: stack => ⟨.object ((key, value) :: members) key :: stack, .commaOrClose⟩

def push (maxDepth : Nat) (frame : Frame) (expected : Expected) (stack : List Frame) :
    Option Place :=
  if stack.length < maxDepth then some ⟨frame :: stack, expected⟩ else none

def step (maxDepth : Nat) (place : Place) (token : Token) : Option Place :=
  match place.expected, token, place.stack with
  | .value, .scalar value, stack | .valueOrClose, .scalar value, stack =>
    some (complete value stack)
  | .value, .openBracket, stack | .valueOrClose, .openBracket, stack =>
    push maxDepth (.array []) .valueOrClose stack
  | .value, .openBrace, stack | .valueOrClose, .openBrace, stack =>
    push maxDepth (.object [] "") .keyOrClose stack
  | .valueOrClose, .closeBracket, .array _ :: stack => some (complete (.array []) stack)
  | .key, .scalar (.string key), .object members _ :: stack
  | .keyOrClose, .scalar (.string key), .object members _ :: stack =>
    some ⟨.object members key :: stack, .colon⟩
  | .keyOrClose, .closeBrace, .object .. :: stack => some (complete (.object []) stack)
  | .colon, .colon, stack => some ⟨stack, .value⟩
  | .commaOrClose, .comma, .array items :: stack => some ⟨.array items :: stack, .value⟩
  | .commaOrClose, .closeBracket, .array items :: stack =>
    some (complete (.array items.reverse) stack)
  | .commaOrClose, .comma, .object members key :: stack =>
    some ⟨.object members key :: stack, .key⟩
  | .commaOrClose, .closeBrace, .object members _ :: stack =>
    some (complete (.object members.reverse) stack)
  | _, _, _ => none

end Place

/-- The value that a text is, with nothing but spaces around it. At most `maxDepth` arrays and
objects may be open at once. -/
def read? (maxDepth : Nat) (text : String) : Option Json := do
  let place ← (← tokens? text).foldlM (Place.step maxDepth) Place.start
  match place.expected with
  | .nothing result => return result
  | _ => none

end NullGuard.Json
