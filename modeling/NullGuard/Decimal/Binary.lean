/-!
The parts of a 64-bit float.
-/

namespace NullGuard.Decimal

/-- A finite float is `significand * 2 ^ exponent`. -/
inductive Binary where
  | nan
  | infinite (negative : Bool)
  | finite (negative : Bool) (significand : Nat) (exponent : Int)
  deriving DecidableEq, Inhabited

/-- The least exponent, which is that of the floats nearest to zero. -/
def leastExponent : Int := -1074

/-- The least significand of a float that is not among those nearest to zero. -/
def leastNormal : Nat := 1 <<< 52

def Binary.ofBits (bits : Nat) : Binary :=
  let negative := bits.testBit 63
  let biased := bits / leastNormal % 2048
  let fraction := bits % leastNormal
  if biased = 2047 then
    if fraction = 0 then .infinite negative else .nan
  else if biased = 0 then .finite negative fraction leastExponent
  else .finite negative (fraction + leastNormal) (leastExponent + (biased - 1 : Nat))

def Binary.ofFloat (x : Float) : Binary :=
  .ofBits x.toBits.toNat

end NullGuard.Decimal
