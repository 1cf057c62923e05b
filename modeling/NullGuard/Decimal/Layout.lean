import NullGuard.Decimal.Shortest

/-!
Floats as text. The two layouts of the program differ in where positional notation begins, in the
sign of exponents, and in the choice between two equally near decimals.
-/

namespace NullGuard.Decimal

/-- Positional notation is used if the decimal point stands behind more than `pointAbove` and at
most `pointUpTo` digits, where zeros between the point and the first digit count negative.
Elsewhere there is an exponent, after `plus` if it is positive. -/
structure Layout where
  pointAbove : Int
  pointUpTo : Int
  plus : String
  tie : Tie

/-- Text for readers: positional from `0.0001` to below `10 ^ 16`, as in `1e16`. -/
def display : Layout where
  pointAbove := -4
  pointUpTo := 16
  plus := ""
  tie := .up

/-- Text in JSON: positional from `0.00001` to below `10 ^ 16`, as in `1e+16`. -/
def json : Layout where
  pointAbove := -5
  pointUpTo := 16
  plus := "+"
  tie := .even

/-- Positional text always has a digit after the point. An exponent that is not positive has its
own sign: it is never `0`, because such numbers are positional. -/
def Layout.digits (layout : Layout) (decimal : Digits) : String :=
  let digits := Nat.toDigits 10 decimal.digits
  let point := decimal.exponent + digits.length
  if layout.pointAbove < point ∧ point ≤ layout.pointUpTo then
    if point ≤ 0 then
      "0." ++ String.ofList (List.replicate (-point).toNat '0' ++ digits)
    else if digits.length ≤ point.toNat then
      String.ofList (digits ++ List.replicate (point.toNat - digits.length) '0') ++ ".0"
    else String.ofList (digits.take point.toNat) ++ "." ++ String.ofList (digits.drop point.toNat)
  else
    let fraction := digits.drop 1
    let point' := if fraction.isEmpty then "" else "."
    let sign := if 1 ≤ point then layout.plus else ""
    String.ofList (digits.take 1) ++ point' ++ String.ofList fraction ++ "e" ++ sign ++
      toString (point - 1)

def Layout.text (layout : Layout) (x : Float) : String :=
  match Binary.ofFloat x with
  | .nan => "NaN"
  | .infinite negative => if negative then "-inf" else "inf"
  | .finite negative significand exponent =>
    let magnitude :=
      if significand = 0 then "0.0"
      else layout.digits (shortest layout.tie significand exponent)
    if negative then "-" ++ magnitude else magnitude

end NullGuard.Decimal
