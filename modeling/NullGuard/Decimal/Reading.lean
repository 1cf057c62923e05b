/-!
Decimal text as a 64-bit float: a sign, digits with at most one point among or beside them, and
an exponent; or a name for infinity or for no number, in any case of letters.
-/

namespace NullGuard.Decimal

def digitValue (c : Char) : Nat :=
  c.toNat - '0'.toNat

def ofDigits (digits : List Char) : Nat :=
  digits.foldl (fun n c => 10 * n + digitValue c) 0

/-- The float nearest to `mantissa * 10 ^ exponent`. The bounds only keep powers of ten small
where the outcome is zero or infinite anyway. -/
def nearest (mantissa : Nat) (exponent : Int) : Float :=
  let places := (Nat.toDigits 10 mantissa).length
  if mantissa = 0 ∨ exponent + places < -400 then 0.0
  else if exponent + places > 400 then Float.ofBits 0x7FF0000000000000
  else Float.ofScientific mantissa (exponent < 0) exponent.natAbs

/-- The exponent part of a number, `0` if there is none. -/
def readExponent : List Char → Option Int
  | [] => some 0
  | e :: rest =>
    if e = 'e' ∨ e = 'E' then
      let (negative, digits) :=
        match rest with
        | '-' :: digits => (true, digits)
        | '+' :: digits => (false, digits)
        | digits => (false, digits)
      if digits.isEmpty ∨ digits.any (!·.isDigit) then none
      else if negative then some (-(ofDigits digits : Int)) else some (ofDigits digits)
    else none

def readMagnitude (chars : List Char) : Option Float :=
  let name := String.ofList (chars.map Char.toLower)
  if name = "inf" ∨ name = "infinity" then some (Float.ofBits 0x7FF0000000000000)
  else if name = "nan" then some (Float.ofBits 0x7FF8000000000000)
  else
    let whole := chars.takeWhile Char.isDigit
    let rest := chars.dropWhile Char.isDigit
    let (places, rest) :=
      match rest with
      | '.' :: rest => (rest.takeWhile Char.isDigit, rest.dropWhile Char.isDigit)
      | rest => ([], rest)
    if whole.isEmpty ∧ places.isEmpty then none
    else (readExponent rest).map fun exponent =>
      nearest (ofDigits (whole ++ places)) (exponent - places.length)

def readFloat? (text : String) : Option Float :=
  match text.toList with
  | '-' :: rest => (readMagnitude rest).map (- ·)
  | '+' :: rest => readMagnitude rest
  | chars => readMagnitude chars

end NullGuard.Decimal
