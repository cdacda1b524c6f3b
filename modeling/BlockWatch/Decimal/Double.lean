/-!
# Doubles

A double is kept as its bit pattern, so that two of them are equal exactly when they are the same
double.  `decompose` gives a finite one as a natural number times a power of two, and `scaled` makes
one of decimal digits and a power of ten.

Doubles occur in the opaque fields of a transaction only.
-/

set_option autoImplicit false

namespace BlockWatch.Decimal

/-- A double, by its bit pattern. -/
structure Double where
  bits : UInt64
  deriving DecidableEq, Repr, Inhabited

namespace Double

/-- The double that a machine float is. -/
def ofFloat (f : Float) : Double := ⟨f.toBits⟩

/-- Whether the sign bit is set. -/
def isNegative (d : Double) : Bool := d.bits.toNat / 0x8000000000000000 = 1

/-- The weight of the lowest bit of the exponent, which is also the leading bit that normal
doubles leave out of their fraction. -/
def fractionRange : Nat := 0x10000000000000

/-- The biased exponent, eleven bits. -/
def exponentBits (d : Double) : Nat := d.bits.toNat / fractionRange % 0x800

/-- The fraction, fifty-two bits. -/
def fractionBits (d : Double) : Nat := d.bits.toNat % fractionRange

/-- The numbers `m` and `q` for which a finite double is `m * 2 ^ q`, its sign aside. -/
def decompose (d : Double) : Nat × Int :=
  if d.exponentBits = 0 then (d.fractionBits, -1074)
  else (fractionRange + d.fractionBits, (d.exponentBits : Int) - 1075)

/-- Whether the next smaller double is only half as far away as the next larger one. -/
def isBoundary (d : Double) : Bool := d.fractionBits = 0 && 1 < d.exponentBits

end Double

/-- The largest exponent of ten that has a double. -/
def maxTen : Nat := 308

/-- The double nearest to a power of ten up to `maxTen`. -/
def ten (exponent : Nat) : Float := Float.ofScientific 1 false exponent

/-- The double read from a 64-bit significand and a power of ten: the significand as a double,
multiplied or divided by the power.  A power below `maxTen` is divided off in two steps, and one
that two steps cannot reach leaves zero.  There is no result where it would be infinite. -/
def scaled (significand : Nat) (exponent : Int) : Option Float :=
  let f := (UInt64.ofNat significand).toFloat
  if 0 ≤ exponent then
    if exponent.toNat ≤ maxTen then
      let product := f * ten exponent.toNat
      if product.isInf then none else some product
    else if significand = 0 then some f
    else none
  else
    let depth := (-exponent).toNat
    if depth ≤ maxTen then some (f / ten depth)
    else if depth ≤ 2 * maxTen then some (f / ten maxTen / ten (depth - maxTen))
    else some 0.0

end BlockWatch.Decimal
