import PointCloud.Double

/-!
# Arithmetic on doubles

Sums, differences, products and quotients are rounded to the nearest double, a
tie going to the even fraction.  NaNs pass through: the first operand that is
one is the result, made quiet.  An operation on numbers that has no result, such
as the sum of the two infinities, gives the NaN `indefinite`.
-/

namespace PointCloud.Double

/-- The result of an operation that has none. -/
def indefinite : Double := ⟨0xFFF8000000000000⟩

/-- A NaN as the result of an operation: the leading bit of its fraction is set. -/
def quiet (x : Double) : Double := ⟨x.bits ||| 0x0008000000000000⟩

/-- An operation on numbers as an operation on all doubles. -/
def lift (operation : Float → Float → Float) (x y : Double) : Double :=
  if x.isNaN then x.quiet
  else if y.isNaN then y.quiet
  else
    let result := operation (Float.ofBits x.bits) (Float.ofBits y.bits)
    if result.isNaN then indefinite else ⟨result.toBits⟩

instance : Add Double := ⟨lift (· + ·)⟩

instance : Sub Double := ⟨lift (· - ·)⟩

instance : Mul Double := ⟨lift (· * ·)⟩

instance : Div Double := ⟨lift (· / ·)⟩

/-- The double nearest to a whole number of at most 64 bits; exact up to 53 bits. -/
def ofWhole : Int → Double
  | .ofNat n => ⟨(UInt64.ofNat n).toFloat.toBits⟩
  | .negSucc n => -⟨(UInt64.ofNat (n + 1)).toFloat.toBits⟩

end PointCloud.Double
