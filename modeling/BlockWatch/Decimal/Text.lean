import BlockWatch.Decimal.Shortest

/-!
# Decimal texts of doubles

A double is written with the digits of its shortest decimal.  Where the decimal point falls near the
digits they are written out in place, and a text without a fraction gets `.0`; elsewhere the point
comes after the first digit and the exponent of ten, with its sign, after an `e`.  `Layout` says
what is near.
-/

set_option autoImplicit false

namespace BlockWatch.Decimal

/-- Which doubles are written in place. -/
structure Layout where
  /-- the most zeros between the point and the first digit -/
  mostZeros : Nat
  /-- the most digits and zeros before the point -/
  mostWhole : Nat
  deriving DecidableEq, Repr, Inhabited

/-- Whether digits are written in place when the decimal point stands `point` places after their
start. -/
def Layout.inPlace (layout : Layout) (point : Int) : Bool :=
  -(layout.mostZeros : Int) ≤ point && point ≤ (layout.mostWhole : Int)

/-- As many zeros. -/
def zeros (n : Nat) : String := String.ofList (List.replicate n '0')

/-- Digits in place, the decimal point `point` places after their start. -/
def writtenInPlace (digits : String) (point : Int) : String :=
  if point ≤ 0 then "0." ++ zeros (-point).toNat ++ digits
  else if point.toNat < digits.length then
    String.ofList (digits.toList.take point.toNat) ++ "." ++
      String.ofList (digits.toList.drop point.toNat)
  else digits ++ zeros (point.toNat - digits.length) ++ ".0"

/-- The text of an exponent of ten, which always has a sign. -/
def exponentText (exponent : Int) : String :=
  if exponent < 0 then toString exponent else "+" ++ toString exponent

/-- Digits with an exponent: the decimal point after the first digit, if there are others. -/
def writtenWithExponent (digits : String) (point : Int) : String :=
  let fraction := digits.toList.drop 1
  let significand := String.ofList (digits.toList.take 1) ++
    if fraction.isEmpty then "" else "." ++ String.ofList fraction
  significand ++ "e" ++ exponentText (point - 1)

/-- The text of a finite double. -/
def Layout.text (layout : Layout) (d : Double) : String :=
  let sign := if d.isNegative then "-" else ""
  if d.exponentBits = 0 ∧ d.fractionBits = 0 then sign ++ "0.0"
  else
    let decimal := shortest d
    let digits := toString decimal.digits
    let point := decimal.exponent + digits.length
    sign ++ if layout.inPlace point then writtenInPlace digits point
      else writtenWithExponent digits point

end BlockWatch.Decimal
