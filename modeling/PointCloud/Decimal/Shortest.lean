import PointCloud.Decimal.Dyadic

/-!
# The shortest decimal of a double

A double stands for an interval of reals: those that are nearer to it than to
its neighbours.  Its shortest decimal is the one with the fewest digits in that
interval.  On the grid of the decimals with `count` digits the value lies
between two neighbours, so only these two have to be tried: the first count with
a neighbour in the interval wins, of two such neighbours the one nearer to the
value, and of two equally near ones the larger.

All comparisons are between naturals.  With a common denominator, the value and
the two ends of its interval are three numerators, `RoundingInterval`.
-/

namespace PointCloud.Decimal

/-- The number with a one and `count` zeros. -/
def powerOfTen (count : Nat) : Nat := Nat.pow 10 count

/-- The reals that round to one double, as fractions over `denominator`.  The ends belong to it
when the mantissa is even. -/
structure RoundingInterval where
  value : Nat
  low : Nat
  high : Nat
  denominator : Nat
  closed : Bool
  deriving Repr

/-- The interval of the positive double `mantissa · 2 ^ exponent`.  Below a power of two the
neighbour is only half as far away as above it. -/
def RoundingInterval.ofDyadic (mantissa : Nat) (exponent : Int) : RoundingInterval :=
  let up := (exponent - 2).toNat
  { value := (4 * mantissa) <<< up
    low := (4 * mantissa - (if mantissa = Dyadic.leadingBit then 1 else 2)) <<< up
    high := (4 * mantissa + 2) <<< up
    denominator := 1 <<< (2 - exponent).toNat
    closed := mantissa % 2 = 0 }

/-- Whether the fraction `numerator / scale` lies in the interval. -/
def RoundingInterval.contains (i : RoundingInterval) (numerator scale : Nat) : Bool :=
  let x := numerator * i.denominator
  if i.closed then i.low * scale ≤ x && x ≤ i.high * scale
  else i.low * scale < x && x < i.high * scale

/-- The number of decimal digits before the point, at most zero for a value below one: the least
`k` with `value < 10 ^ k`. -/
def RoundingInterval.magnitude (i : RoundingInterval) : Int :=
  let guess : Int :=
    ((Nat.toDigits 10 i.value).length : Int) - (Nat.toDigits 10 i.denominator).length
  if i.value * powerOfTen (-guess).toNat < i.denominator * powerOfTen guess.toNat then guess
  else guess + 1

/-- The decimal of `count` digits in the interval that is nearest to the value, as a number of
units of `10 ^ (magnitude - count)`. -/
def RoundingInterval.onGrid? (i : RoundingInterval) (magnitude : Int) (count : Nat) :
    Option (Nat × Int) :=
  let unit := magnitude - count
  let scale := powerOfTen (-unit).toNat
  let step := powerOfTen unit.toNat
  let below := i.value * scale / (i.denominator * step)
  let gapBelow := i.value * scale - below * step * i.denominator
  let gapAbove := (below + 1) * step * i.denominator - i.value * scale
  match i.contains (below * step) scale, i.contains ((below + 1) * step) scale with
  | true, true => some (if gapBelow < gapAbove then below else below + 1, unit)
  | true, false => some (below, unit)
  | false, true => some (below + 1, unit)
  | false, false => none

/-- The shortest decimal `digits · 10 ^ exponent` of the positive double
`mantissa · 2 ^ exponent`; seventeen digits always suffice. -/
def shortest (mantissa : Nat) (exponent : Int) : Nat × Int :=
  let i := RoundingInterval.ofDyadic mantissa exponent
  let magnitude := i.magnitude
  ((List.range' 1 17).findSome? (i.onGrid? magnitude)).getD (mantissa, 0)

end PointCloud.Decimal
