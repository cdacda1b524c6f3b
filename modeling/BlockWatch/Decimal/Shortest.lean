import BlockWatch.Decimal.Double

/-!
# The shortest decimal of a double

A double stands for all reals that round to it, an interval around it.  Its shortest decimal is a
point of the coarsest decimal grid that meets the interval; where that grid has several points in
the interval, it is the one nearest to the double, and of two equally near ones the even one.  All
comparisons are made between natural numbers, so nothing is rounded on the way.
-/

set_option autoImplicit false

namespace BlockWatch.Decimal

/-- A positive decimal `digits * 10 ^ exponent`. -/
structure Shortest where
  digits : Nat
  exponent : Int
  deriving DecidableEq, Repr, Inhabited

/-- The reals that round to a double, as numerators over one common denominator. -/
structure Interval where
  /-- the double itself -/
  middle : Nat
  /-- the lower end -/
  low : Nat
  /-- the upper end -/
  high : Nat
  /-- the common denominator -/
  denominator : Nat
  /-- whether the ends belong to the interval -/
  closed : Bool
  deriving DecidableEq, Repr, Inhabited

namespace Interval

/-- The interval of a finite double other than zero, its sign aside: it reaches half way to the
neighbours, and its ends belong to it when the double's significand is even. -/
def ofDouble (d : Double) : Interval :=
  let (m, q) := d.decompose
  let power := q - 2
  let up := 1 <<< power.toNat
  { middle := 4 * m * up
    low := (4 * m - if d.isBoundary then 1 else 2) * up
    high := (4 * m + 2) * up
    denominator := 1 <<< (-power).toNat
    closed := m % 2 = 0 }

/-- Whether the interval holds a multiple of a unit; `scale` brings the numerators to the unit's
denominator. -/
def holds (i : Interval) (scale point : Nat) : Bool :=
  if i.closed then i.low * scale ≤ point && point ≤ i.high * scale
  else i.low * scale < point && point < i.high * scale

/-- The point of the grid `10 ^ exponent` in the interval that is nearest to its middle. -/
def nearestOnGrid? (i : Interval) (exponent : Int) : Option Nat :=
  let scale := Nat.pow 10 (-exponent).toNat
  let unit := i.denominator * Nat.pow 10 exponent.toNat
  let middle := i.middle * scale
  let below := middle / unit
  let rest := middle % unit
  let lowHit := i.holds scale (below * unit)
  let highHit := i.holds scale ((below + 1) * unit)
  if lowHit && highHit then
    if 2 * rest < unit then some below
    else if unit < 2 * rest then some (below + 1)
    else if below % 2 = 0 then some below else some (below + 1)
  else if lowHit then some below
  else if highHit then some (below + 1)
  else none

/-- The first grid with a point in the interval, from `10 ^ exponent` downwards over at most
`steps` grids. -/
def coarsest? (i : Interval) : (steps : Nat) → (exponent : Int) → Option Shortest
  | 0, _ => none
  | steps + 1, exponent =>
      match i.nearestOnGrid? exponent with
      | some digits => some ⟨digits, exponent⟩
      | none => i.coarsest? steps (exponent - 1)

end Interval

/-- The shortest decimal of a finite double other than zero, its sign aside.  No double reaches
above `10 ^ 309`, and the grid `10 ^ -324` is finer than every interval. -/
def shortest (d : Double) : Shortest :=
  ((Interval.ofDouble d).coarsest? 640 309).getD ⟨0, 0⟩

end BlockWatch.Decimal
