import PointCloud.Double

/-!
# Doubles in 32 bits

A dimension may keep its values in 32 bits, the binary32 pattern.  `toSingle`
rounds a double to the nearest of those and `ofSingle` goes back, which is exact.
A NaN keeps its sign and the upper part of its fraction in both directions, and
becomes a quiet one if it was not.
-/

namespace PointCloud.Double

/-- What all quiet NaNs of 32 bits have in common: the exponent and the leading bit of the
fraction. -/
def quietSingle : UInt64 := 0x7FC00000

/-- What all quiet NaNs of 64 bits have in common. -/
def quietDouble : UInt64 := 0x7FF8000000000000

/-- The fraction behind its leading bit, where 32 bits have it. -/
def fractionMask : UInt64 := 0x3FFFFF

/-- The binary32 pattern of the nearest number that has one, a tie going to the even fraction. -/
def toSingle (x : Double) : UInt32 :=
  if x.isNaN then
    (x.bits >>> 63 <<< 31 ||| quietSingle ||| (x.bits >>> 29 &&& fractionMask)).toUInt32
  else (Float.ofBits x.bits).toFloat32.toBits

/-- Whether a binary32 pattern stands for no number. -/
def isSingleNaN (single : UInt32) : Bool := 0x7F800000 < single % 0x80000000

/-- The double that a binary32 pattern stands for. -/
def ofSingle (single : UInt32) : Double :=
  let word := single.toUInt64
  if isSingleNaN single then
    ⟨word >>> 31 <<< 63 ||| quietDouble ||| (word &&& fractionMask) <<< 29⟩
  else ⟨(Float32.ofBits single).toFloat.toBits⟩

end PointCloud.Double
