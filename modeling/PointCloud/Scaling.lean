import PointCloud.Axis
import PointCloud.Decimal.Plain
import PointCloud.Double.Rounding

/-!
# Stored coordinates

A file keeps a coordinate as a 32-bit whole number.  The scale and the offset of
its axis turn it into a position: `direct` is `scale · n + offset`, and `stored?`
goes back, to the nearest whole number, a half going away from zero.  A position
without a number, or with one beyond 32 bits, has no stored form.
-/

namespace PointCloud

/-- The scale and the offset of an axis. -/
structure Scaling where
  scale : Double
  offset : Double
  deriving Repr, DecidableEq

namespace Scaling

/-- The scale that is used unless another is asked for: the double nearest to a hundredth. -/
def usualScale : Double := ⟨0x3F847AE147AE147B⟩

/-- Hundredths, counted from zero. -/
def usual : Scaling := ⟨usualScale, Double.zero⟩

/-- The position of a stored coordinate. -/
def direct (s : Scaling) (n : Int32) : Double := s.scale * Double.ofWhole n.toInt + s.offset

/-- The stored form of a position. -/
def stored? (s : Scaling) (position : Double) : Option Int32 :=
  ((Double.nearest? ((position - s.offset) / s.scale)).filter
    fun n => Int32.minValue.toInt ≤ n ∧ n ≤ Int32.maxValue.toInt).map Int32.ofInt

/-- The formula between backticks. -/
def text (s : Scaling) : String :=
  s!"`{Decimal.plain s.scale} * x + {Decimal.plain s.offset}`"

end Scaling

end PointCloud
