import NullGuard.Decimal.Binary

/-!
The shortest decimal that reads back as a float. Of the decimals with the fewest digits that lie
nearer to the float than to any other, the nearest is chosen.
-/

namespace NullGuard.Decimal

/-- What is chosen between two decimals at the same distance. -/
inductive Tie where
  | up | even
  deriving DecidableEq, Inhabited

/-- The number `digits * 10 ^ exponent`. -/
structure Digits where
  digits : Nat
  exponent : Int
  deriving DecidableEq, Inhabited

/-- `mantissa * 10 ^ ten * 2 ^ two` as numerator and denominator. -/
def fraction (mantissa : Nat) (ten two : Int) : Nat × Nat :=
  ((mantissa * Nat.pow 10 ten.toNat) <<< two.toNat, Nat.pow 10 (-ten).toNat <<< (-two).toNat)

def fractionLe (a b : Nat × Nat) : Bool :=
  a.1 * b.2 ≤ b.1 * a.2

def fractionLt (a b : Nat × Nat) : Bool :=
  a.1 * b.2 < b.1 * a.2

/-- Whether a decimal reads back as `significand * 2 ^ exponent`. The bounds lie half-way to the
neighbouring floats, of which the lower one is nearer where the exponent changes. They belong to
the float if its significand is even. -/
def readsBack (significand : Nat) (exponent : Int) (decimal : Digits) : Bool :=
  let value := fraction decimal.digits decimal.exponent 0
  let below := if significand = leastNormal ∧ exponent ≠ leastExponent then 1 else 2
  let low := fraction (4 * significand - below) 0 (exponent - 2)
  let high := fraction (4 * significand + 2) 0 (exponent - 2)
  if significand % 2 = 0 then fractionLe low value && fractionLe value high
  else fractionLt low value && fractionLt value high

/-- The decimal exponent of the leading digit. The estimate is off by one at most. -/
def leadingExponent (significand : Nat) (exponent : Int) : Int :=
  let value := fraction significand 0 exponent
  let estimate := Int.fdiv ((significand.log2 + exponent) * 30103) 100000
  if fractionLt value (fraction 1 estimate 0) then estimate - 1
  else if fractionLe (fraction 1 (estimate + 1) 0) value then estimate + 1
  else estimate

/-- The better of the two decimals around the float among the multiples of `10 ^ place`, if one
reads back. -/
def onGrid? (tie : Tie) (significand : Nat) (exponent place : Int) : Option Digits :=
  let (numerator, denominator) := fraction significand (-place) exponent
  let floor := numerator / denominator
  let rest := numerator % denominator
  let down : Digits := ⟨floor, place⟩
  let up : Digits := ⟨floor + 1, place⟩
  match readsBack significand exponent down, readsBack significand exponent up with
  | true, true =>
    if 2 * rest < denominator then some down
    else if denominator < 2 * rest then some up
    else match tie with
      | .up => some up
      | .even => some (if floor % 2 = 0 then down else up)
  | true, false => some down
  | false, true => some up
  | false, false => none

/-- Moves zeros at the end into the exponent. -/
def stripZeros (exponent : Int) (digits : Nat) : Digits :=
  if h : digits ≠ 0 ∧ digits % 10 = 0 then stripZeros (exponent + 1) (digits / 10)
  else ⟨digits, exponent⟩
termination_by digits
decreasing_by omega

/-- Seventeen digits always suffice. -/
def mostDigits : Nat := 17

/-- The digits of a positive float. -/
def shortest (tie : Tie) (significand : Nat) (exponent : Int) : Digits :=
  let leading := leadingExponent significand exponent
  let grids := (List.range mostDigits).map fun (position : Nat) => leading - position
  match grids.findSome? (onGrid? tie significand exponent) with
  | some found => stripZeros found.exponent found.digits
  | none =>
    let (numerator, denominator) := fraction significand 0 exponent
    ⟨numerator / denominator, 0⟩

end NullGuard.Decimal
