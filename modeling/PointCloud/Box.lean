import PointCloud.Axis
import PointCloud.Double

/-!
# Bounding boxes

A box has a least and a greatest coordinate on each axis.  A flat box has no z
interval: its z coordinates are the largest double below and the least double
above, a pair that no interval of points has, and it takes no part in
comparisons.  The box `nowhere` is flat and inverted on the other axes too;
growing it by points gives the extremes of the points.

Clipping cuts intervals down without looking at the result.  Where two boxes are
apart the clipped interval is inverted, which is how a caller learns of it
afterwards, by `isEmpty`.
-/

namespace PointCloud

/-- The least and the greatest coordinates on each axis. -/
structure Box where
  min : Triple Double
  max : Triple Double
  deriving Repr, BEq

namespace Box

/-- The box of a single point. -/
def point (p : Triple Double) : Box := ⟨p, p⟩

/-- A box without a z interval. -/
def flat (minX minY maxX maxY : Double) : Box :=
  ⟨⟨minX, minY, Double.highest⟩, ⟨maxX, maxY, Double.lowest⟩⟩

/-- The box of no point at all. -/
def nowhere : Box := ⟨.same Double.highest, .same Double.lowest⟩

/-- The box of all finite coordinates. -/
def everything : Box := ⟨.same Double.lowest, .same Double.highest⟩

/-- Whether the box has a z interval. -/
def hasZ (b : Box) : Bool := !(b.min.z == Double.highest && b.max.z == Double.lowest)

/-- Whether some interval of the box is inverted. -/
def isEmpty (b : Box) : Bool :=
  b.max.x < b.min.x || b.max.y < b.min.y || (b.hasZ && b.max.z < b.min.z)

/-- Cuts a box down to what lies in another one too. -/
def clip (a b : Box) : Box :=
  let low := Triple.zipWith Double.greatest a.min b.min
  let high := Triple.zipWith Double.least a.max b.max
  if a.hasZ && b.hasZ then ⟨low, high⟩
  else ⟨{ low with z := a.min.z }, { high with z := a.max.z }⟩

/-- The least box around two; where their sides have equal coordinates the second box gives them. -/
def grow (a b : Box) : Box :=
  ⟨Triple.zipWith Double.least a.min b.min, Triple.zipWith Double.greatest a.max b.max⟩

/-- Extends a box to a point; a coordinate that is no number or lies within the box changes
nothing. -/
def growPoint (b : Box) (p : Triple Double) : Box :=
  ⟨Triple.zipWith (fun old new => if new < old then new else old) b.min p,
   Triple.zipWith (fun old new => if old < new then new else old) b.max p⟩

/-- Whether two boxes agree on every axis, where the z axis only counts if both have it. -/
def onAxes (agree : Axis → Bool) (a b : Box) : Bool :=
  agree .x && agree .y && (!a.hasZ || !b.hasZ || agree .z)

/-- Whether two boxes have a point in common; touching is enough. -/
def overlaps (a b : Box) : Bool :=
  onAxes (fun axis => a.min.get axis ≤ b.max.get axis && b.min.get axis ≤ a.max.get axis) a b

/-- Whether the second box lies inside the first. -/
def contains (a b : Box) : Bool :=
  onAxes (fun axis => a.min.get axis ≤ b.min.get axis && b.max.get axis ≤ a.max.get axis) a b

end Box

end PointCloud
