import NullGuard.Json.Number

/-!
The tokens of JSON text: brackets, marks, and scalars. Characters are taken one at a time.
-/

namespace NullGuard.Json

inductive Token where
  | openBrace | closeBrace | openBracket | closeBracket | colon | comma
  | scalar (value : Json)
  deriving Inhabited

def Token.ofMark? : Char → Option Token
  | '\x7b' => some .openBrace
  | '\x7d' => some .closeBrace
  | '[' => some .openBracket
  | ']' => some .closeBracket
  | ':' => some .colon
  | ',' => some .comma
  | _ => none

def isSpace (c : Char) : Bool :=
  c = ' ' || c = '\n' || c = '\t' || c = '\r'

/-- Where a scan stands. Characters collected so far are in reverse. -/
inductive Scan where
  | between
  | bare (chars : List Char)
  | text (chars : List Char)
  | escape (chars : List Char)
  | unit (chars : List Char) (high : Option Nat) (digits value : Nat)
  | lowBackslash (chars : List Char) (high : Nat)
  | lowMark (chars : List Char) (high : Nat)

/-- A name for a value, or a number. -/
def bareValue? (chars : List Char) : Option Json :=
  match String.ofList chars with
  | "null" => some .null
  | "true" => some (.bool true)
  | "false" => some (.bool false)
  | _ => number? chars

def hexValue? (c : Char) : Option Nat :=
  if c.isDigit then some (c.toNat - '0'.toNat)
  else if 'a' ≤ c ∧ c ≤ 'f' then some (c.toNat - 'a'.toNat + 10)
  else if 'A' ≤ c ∧ c ≤ 'F' then some (c.toNat - 'A'.toNat + 10)
  else none

def escaped? : Char → Option Char
  | '"' => some '"'
  | '\\' => some '\\'
  | '/' => some '/'
  | 'b' => some '\x08'
  | 'f' => some '\x0c'
  | 'n' => some '\n'
  | 'r' => some '\r'
  | 't' => some '\t'
  | _ => none

/-- Goes on after a complete `\u` escape. Two surrogates make one character, and a surrogate
without its partner is refused. -/
def afterUnit (chars : List Char) (high : Option Nat) (value : Nat) : Option Scan :=
  let isHigh := 0xD800 ≤ value ∧ value < 0xDC00
  let isLow := 0xDC00 ≤ value ∧ value < 0xE000
  match high with
  | none =>
    if isHigh then some (.lowBackslash chars value)
    else if isLow then none
    else some (.text (Char.ofNat value :: chars))
  | some high =>
    if isLow then
      let code := 0x10000 + (high - 0xD800) * 0x400 + (value - 0xDC00)
      some (.text (Char.ofNat code :: chars))
    else none

/-- A character outside of text. -/
def scanBetween (c : Char) : Scan × List Token :=
  if isSpace c then (.between, [])
  else if c = '"' then (.text [], [])
  else match Token.ofMark? c with
    | some mark => (.between, [mark])
    | none => (.bare [c], [])

def Scan.step (c : Char) : Scan → Option (Scan × List Token)
  | between => some (scanBetween c)
  | bare chars =>
    if isSpace c ∨ c = '"' ∨ (Token.ofMark? c).isSome then do
      let value ← bareValue? chars.reverse
      let (next, tokens) := scanBetween c
      return (next, .scalar value :: tokens)
    else some (.bare (c :: chars), [])
  | text chars =>
    if c = '"' then some (.between, [.scalar (.string (String.ofList chars.reverse))])
    else if c = '\\' then some (.escape chars, [])
    else if c.toNat < 0x20 then none
    else some (.text (c :: chars), [])
  | escape chars =>
    if c = 'u' then some (.unit chars none 0 0, [])
    else (escaped? c).map fun c => (.text (c :: chars), [])
  | unit chars high digits value => do
    let value := 16 * value + (← hexValue? c)
    if digits = 3 then return (← afterUnit chars high value, [])
    return (.unit chars high (digits + 1) value, [])
  | lowBackslash chars high => if c = '\\' then some (.lowMark chars high, []) else none
  | lowMark chars high => if c = 'u' then some (.unit chars (some high) 0 0, []) else none

/-- The tokens of a text, if it has no fault within a token. -/
def tokens? (text : String) : Option (List Token) := do
  let step (state : Scan × List Token) (c : Char) : Option (Scan × List Token) := do
    let (next, found) ← state.1.step c
    return (next, found.reverse ++ state.2)
  let (last, found) ← text.toList.foldlM step (.between, [])
  match last with
  | .between => return found.reverse
  | .bare chars => return (Token.scalar (← bareValue? chars.reverse) :: found).reverse
  | _ => none

end NullGuard.Json
