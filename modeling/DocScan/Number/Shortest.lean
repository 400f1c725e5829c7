import DocScan.Number.Binary64

/-!
# The shortest decimal of a double

Every real number strictly between the midpoints to the two neighbours of a
double rounds to it, and the midpoints do so as well when its significand is
even.  The shortest decimal is the point of the coarsest decimal grid that
lies in this interval; of two such points the nearer one, and of two equally
near ones the even one.
-/

namespace DocScan.Binary64

/-- The reals that round to a positive double, in quarters of the unit of its
significand. -/
structure RoundingInterval where
  low : Nat
  value : Nat
  high : Nat
  closed : Bool

/-- The interval around a finite positive magnitude.  Below a power of two the
neighbour is only half as far away. -/
def roundingInterval (x : Binary64) : RoundingInterval :=
  let m := x.significand
  let lowGap := if x.fraction = 0 ∧ 1 < x.exponentField then 1 else 2
  { low := 4 * m - lowGap, value := 4 * m, high := 4 * m + 2, closed := m % 2 = 0 }

/-- Whether `point / scale` lies in the interval. -/
def RoundingInterval.contains (i : RoundingInterval) (scale point : Nat) : Bool :=
  let low := i.low * scale
  let high := i.high * scale
  if i.closed then low ≤ point && point ≤ high else low < point && point < high

/-- The multiple of `10 ^ k` in the interval that is nearest to the value, in
units of `10 ^ k`. -/
def gridPoint? (x : Binary64) (k : Int) : Option Nat :=
  let i := x.roundingInterval
  let e := x.exponent - 2
  -- Both sides are multiplied by the same powers, so that all is integral.
  let scale := Nat.pow 2 e.toNat * Nat.pow 10 (-k).toNat
  let step := Nat.pow 2 (-e).toNat * Nat.pow 10 k.toNat
  let value := i.value * scale
  let below := value / step
  let above := below + 1
  let belowFits := i.contains scale (below * step)
  let aboveFits := i.contains scale (above * step)
  match belowFits, aboveFits with
  | true, false => some below
  | false, true => some above
  | false, false => none
  | true, true =>
    let down := value - below * step
    let up := above * step - value
    if down < up then some below
    else if up < down then some above
    else if below % 2 = 0 then some below else some above

/-- Descends through the grids `10 ^ k`, `10 ^ (k - 1)`, … to the first one
with a point in the interval. -/
def descendGrids (x : Binary64) : Nat → Int → Nat × Int
  | 0, k => (x.significand, k)
  | fuel + 1, k =>
    match x.gridPoint? k with
    | some digits => (digits, k)
    | none => descendGrids x fuel (k - 1)

/-- The digits and the power of ten of the shortest decimal of a positive
finite number.  The first grid is coarser than the number, and eighteen grids
further down the points are denser than the doubles. -/
def shortest (x : Binary64) : Nat × Int :=
  let size : Int := x.significand.log2 + x.exponent
  descendGrids x 24 (size * 1233 / 4096 + 2)

end DocScan.Binary64
