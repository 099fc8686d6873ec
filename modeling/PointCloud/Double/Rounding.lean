import PointCloud.Decimal.Dyadic
import PointCloud.Double.Arithmetic

/-!
# Whole numbers from doubles

A double becomes a whole number in two ways, both decided on its exact value and
both undefined on infinities and NaNs: `truncate?` drops the fraction and
`nearest?` goes to the nearest, a half away from zero.  `floor` stays among the
doubles and is defined on all of them.
-/

namespace PointCloud.Double

/-- The number less its fraction. -/
def truncate? (x : Double) : Option Int :=
  (Dyadic.ofDouble? x).map fun d => d.signed d.floor

/-- The nearest whole number, a half going away from zero. -/
def nearest? (x : Double) : Option Int :=
  (Dyadic.ofDouble? x).map fun d => d.signed d.nearest

/-- The largest whole double that is not above the number; a number that is whole already, an
infinity and a NaN stay as they are. -/
def floor (x : Double) : Double :=
  match Dyadic.ofDouble? x with
  | none => x
  | some d =>
    if d.floorRemainder = 0 then x
    else if d.negative then ofWhole (-(d.floor + 1 : Int))
    else ofWhole d.floor

end PointCloud.Double
