import PointCloud.Layout
import PointCloud.Metadata
import PointCloud.SpatialReference

/-!
# Tables and views of points

A writer owns no points.  A `PointTable` tells it the layout and what is known
about the source; a `PointView` gives the points of a batch, value by value.
The dimensions of a view are the indexes of the table that the writer was
prepared with, whatever layout the view itself may have.
-/

namespace PointCloud

/-- What a writer is prepared with. -/
structure PointTable where
  layout : Layout
  metadata : Option Metadata
  spatialReference : Option SpatialReference
  deriving Repr

/-- The points of a batch: how many there are, and the value and the octets at a dimension and a
point. -/
structure PointView where
  size : Nat
  value : Nat → Nat → Double
  octets : Nat → Nat → Octets

namespace PointView

/-- No point. -/
def empty : PointView := ⟨0, fun _ _ => Double.zero, fun _ _ => []⟩

/-- Whether the octets of every value are as wide as the layout says. -/
def FitsLayout (v : PointView) (l : Layout) : Prop :=
  ∀ id d, l.get? id = some d → ∀ i, i < v.size → (v.octets id i).length = d.scalar.width

end PointView

end PointCloud
