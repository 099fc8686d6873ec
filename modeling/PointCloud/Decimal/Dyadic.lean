import PointCloud.Double

/-!
# A double as a whole number times a power of two

Everything exact that is said about a double here, its decimal text and its
roundings to whole numbers, starts from its value: a finite double is
`± mantissa · 2 ^ exponent`.  `Dyadic.ofDouble?` reads that off the bit pattern.
Infinities and NaN have no such value.

`Dyadic.floor`, `Dyadic.floorRemainder` and `Dyadic.nearest` round the
magnitude.
-/

namespace PointCloud

/-- The number `mantissa · 2 ^ exponent`, or its negative. -/
structure Dyadic where
  negative : Bool
  mantissa : Nat
  exponent : Int
  deriving Repr, DecidableEq

namespace Dyadic

/-- The leading bit of a mantissa of 53 bits.  It is not stored, but part of the value of every
normal double. -/
def leadingBit : Nat := 0x10000000000000

/-- The value of a finite double.  The sign of a zero is kept. -/
def ofDouble? (x : Double) : Option Dyadic :=
  let biased := x.magnitude / leadingBit
  let fraction := x.magnitude % leadingBit
  if !x.isFinite then none
  else if biased = 0 then some ⟨x.isNegative, fraction, -1074⟩
  else some ⟨x.isNegative, leadingBit + fraction, (biased : Int) - 1075⟩

/-- The whole part of the magnitude. -/
def floor (d : Dyadic) : Nat :=
  if 0 ≤ d.exponent then d.mantissa <<< d.exponent.toNat
  else d.mantissa >>> (-d.exponent).toNat

/-- What the whole part of the magnitude leaves, counted in units of `2 ^ exponent`. -/
def floorRemainder (d : Dyadic) : Nat :=
  if 0 ≤ d.exponent then 0 else d.mantissa % (1 <<< (-d.exponent).toNat)

/-- The whole number nearest to the magnitude; a half goes up. -/
def nearest (d : Dyadic) : Nat :=
  if 0 ≤ d.exponent then d.mantissa <<< d.exponent.toNat
  else (2 * d.mantissa + 1 <<< (-d.exponent).toNat) >>> ((-d.exponent).toNat + 1)

/-- Gives a magnitude the sign of the number. -/
def signed (d : Dyadic) (magnitude : Nat) : Int :=
  if d.negative then -(magnitude : Int) else magnitude

end Dyadic

end PointCloud
