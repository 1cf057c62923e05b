import NullGuard.Json.Basic

/-!
JSON numbers. Integers that fit 64 bits stay integers. Any other number becomes a double by one
multiplication or division: the leading digits that fit 64 bits times a power of ten. That is
quick and may miss the nearest double by a few units in the last place.
-/

namespace NullGuard.Json

/-- The greatest unsigned 64-bit number. -/
def wordMax : Nat := UInt64.size - 1

/-- The digits of a number as far as they are read. `exponent` belongs to `significand`. -/
structure Scaled where
  significand : Nat
  exponent : Int
  deriving DecidableEq, Inhabited

def digit? (c : Char) : Option Nat :=
  if c.isDigit then some (c.toNat - '0'.toNat) else none

/-- Reads digits into the significand while it fits a word, and tells how many were read. -/
def readWord (significand : Nat) : List Char → Nat × Nat × List Char
  | [] => (significand, 0, [])
  | c :: cs =>
    match digit? c with
    | none => (significand, 0, c :: cs)
    | some digit =>
      if wordMax < 10 * significand + digit then (significand, 0, c :: cs)
      else
        let (value, count, rest) := readWord (10 * significand + digit) cs
        (value, count + 1, rest)

/-- The greatest exponent that is read. -/
def exponentMax : Nat := 0x7FFFFFFF

/-- The power of ten with that exponent, which is at most 308. -/
def powerOfTen (exponent : Nat) : Float :=
  Float.ofScientific 1 false exponent

/-- `x` times a power of ten. Very small powers are reached in steps, and a result that is too
large is refused. -/
def scale? (x : Float) (exponent : Int) : Option Float :=
  if exponent < -308 then
    if x == 0.0 then some x else scale? (x / powerOfTen 308) (exponent + 308)
  else if exponent < 0 then some (x / powerOfTen exponent.natAbs)
  else if 308 < exponent then
    if x == 0.0 then some x else none
  else
    let scaled := x * powerOfTen exponent.natAbs
    if scaled.isInf then none else some scaled
termination_by exponent.natAbs
decreasing_by omega

def Scaled.toFloat? (number : Scaled) : Option Float :=
  scale? (UInt64.ofNat number.significand).toFloat number.exponent

/-- Keeps an exponent within 32 bits. -/
def clampExponent (exponent : Int) : Int :=
  max (-0x80000000) (min exponent exponentMax)

/-- Reads an exponent and applies it. Exponents beyond 32 bits only matter for numbers other than
zero, and large ones are refused for those. -/
def readExponent? (number : Scaled) : List Char → Option Float
  | [] => number.toFloat?
  | e :: rest =>
    if e ≠ 'e' ∧ e ≠ 'E' then none
    else
      let (negative, digits) :=
        match rest with
        | '-' :: digits => (true, digits)
        | '+' :: digits => (false, digits)
        | digits => (false, digits)
      match digits.mapM digit? with
      | none | some [] => none
      | some values =>
        let exponent := values.foldl (fun n digit => 10 * n + digit) 0
        if exponent ≤ exponentMax then
          let shifted := if negative then number.exponent - exponent else number.exponent + exponent
          { number with exponent := clampExponent shifted }.toFloat?
        else if number.significand = 0 ∨ negative then some 0.0
        else none

/-- Reads the digits after the point. Those that do not fit are skipped. -/
def readFraction? (number : Scaled) (cs : List Char) : Option Float :=
  let (significand, count, rest) := readWord number.significand cs
  match rest with
  | c :: _ =>
    if c.isDigit then
      readExponent? ⟨significand, number.exponent - count⟩ (rest.dropWhile Char.isDigit)
    else if count = 0 then none
    else readExponent? ⟨significand, number.exponent - count⟩ rest
  | [] => if count = 0 then none else readExponent? ⟨significand, number.exponent - count⟩ []

/-- Reads what follows the digits before the point. -/
def readTail? (number : Scaled) : List Char → Option Float
  | '.' :: rest => readFraction? number rest
  | rest => readExponent? number rest

/-- An integer with its sign, if it fits 64 bits. Zero with a sign is a double. -/
def ofWord (negative : Bool) (word : Nat) : Json :=
  if !negative then .int word
  else if word = 0 ∨ 0x8000000000000000 < word then .double (-(UInt64.ofNat word).toFloat)
  else .int (-(word : Int))

/-- The number that all characters together are. -/
def number? (cs : List Char) : Option Json :=
  let (negative, digits) :=
    match cs with
    | '-' :: digits => (true, digits)
    | digits => (false, digits)
  let signed (x : Float) : Json := .double (if negative then -x else x)
  match digits with
  | '0' :: rest =>
    if rest.isEmpty then some (ofWord negative 0) else (readTail? ⟨0, 0⟩ rest).map signed
  | c :: _ =>
    if !c.isDigit then none
    else
      let (word, _, rest) := readWord 0 digits
      match rest with
      | [] => some (ofWord negative word)
      | c :: _ =>
        if c.isDigit then
          let skipped := (rest.takeWhile Char.isDigit).length
          (readTail? ⟨word, skipped⟩ (rest.dropWhile Char.isDigit)).map signed
        else (readTail? ⟨word, 0⟩ rest).map signed
  | [] => none

end NullGuard.Json
