import Criteria.Decimal.Rounding

/-!
Writing a floating-point number in decimal digits: the fewest digits that read
back as the same number, and of those the ones nearest to it. The numbers that
read back as `m · 2 ^ q` fill the interval between the midpoints to its two
neighbours, both ends included exactly if `m` is even; the grids of decimals with
one digit, two digits and so on are tried until one has a point in it.
-/
namespace Criteria.Binary64

/-- A positive fraction and the ends of the interval of fractions that round to it, over one denominator. -/
structure Interval where
  low : Nat
  value : Nat
  high : Nat
  den : Nat
  closed : Bool

/-- The interval of the fractions that round to the positive number `m · 2 ^ q`. Below a power of
two the neighbour is only half as far away as above it. -/
def interval (m : Nat) (q : Int) : Interval :=
  let up := twoPow q.toNat
  let below := if m == twoPow 52 && -1074 < q then 1 else 2
  { low := (4 * m - below) * up
    value := 4 * m * up
    high := (4 * m + 2) * up
    den := 4 * twoPow (-q).toNat
    closed := m % 2 == 0 }

/-- Whether the fraction `num / den` lies in the interval. -/
def Interval.holds (i : Interval) (num den : Nat) : Bool :=
  let n := num * i.den
  let l := i.low * den
  let h := i.high * den
  (l < n && n < h) || (i.closed && (l == n || n == h))

/-- The number of digits before the decimal point of the value; zero or less for a value below one
tenth. The factor `10 ^ 400` makes every finite positive number at least one. -/
def Interval.pointPosition (i : Interval) : Int :=
  (digitCount (i.value * tenPow 400 / i.den) : Int) - 400

/-- The point of the grid `10 ^ step` that lies in the interval and is nearest to its value, as a
multiple of the step: of two equally near ones the even one. -/
def Interval.onGrid (i : Interval) (step : Int) : Option Nat :=
  let up := tenPow step.toNat
  let down := tenPow (-step).toNat
  let below := i.value * down / (i.den * up)
  let inside (k : Nat) : Bool := i.holds (k * up) down
  match inside below, inside (below + 1) with
  | false, false => none
  | true, false => some below
  | false, true => some (below + 1)
  | true, true => some (roundDiv (i.value * down) (i.den * up))

/-- The digits of the first grid that meets the interval, as a number, and the step of that grid. At most
`extra` grids are tried after the current one. -/
def Interval.firstGrid (i : Interval) (step : Int) : Nat → Nat × Int
  | 0 => (roundDiv (i.value * tenPow (-step).toNat) (i.den * tenPow step.toNat), step)
  | extra + 1 =>
    match i.onGrid step with
    | some k => (k, step)
    | none => i.firstGrid (step - 1) extra

/-- The shortest decimal of the positive number `m · 2 ^ q`: its digits and their power of ten.
Seventeen digits always suffice. -/
def shortest (m : Nat) (q : Int) : Nat × Int :=
  let i := interval m q
  i.firstGrid (i.pointPosition - 1) 16

end Criteria.Binary64
