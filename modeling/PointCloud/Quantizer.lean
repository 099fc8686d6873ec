import PointCloud.Error
import PointCloud.Options

/-!
# Quantizing coordinates

A `Quantizer` holds the scaling of every axis, and says for each axis whether its
offset is still to be chosen.  Such an offset is zero until then.  `settle`
chooses it from the extent of the first points: the middle of the extent, rounded
down.  On an axis without a sensible extent it stays zero.  Either way `settle`
leaves nothing open, so an offset is chosen at most once.
-/

namespace PointCloud

/-- The scaling of every axis, and whether its offset is still open. -/
structure Quantizer where
  scalings : Triple Scaling
  isOpen : Triple Bool
  deriving Repr, DecidableEq

namespace Quantizer

/-- The offset that a choice begins with. -/
def initialOffset : OffsetChoice → Double
  | .value offset => offset
  | .automatic => Double.zero

/-- Whether the offset is to be chosen later. -/
def leavesOpen : OffsetChoice → Bool
  | .value _ => false
  | .automatic => true

/-- The quantizer of configured scales and offsets. -/
def configured (scale : Triple Double) (offset : Triple OffsetChoice) : Quantizer :=
  ⟨Triple.zipWith (fun s o => ⟨s, initialOffset o⟩) scale offset, offset.map leavesOpen⟩

/-- The offset for coordinates between two extremes. -/
def middle (low high : Double) : Double := Double.floor ((low + high) / .ofWhole 2)

/-- Whether the offset of an axis is chosen from the extremes of its coordinates. -/
def settles (q : Quantizer) (low high : Triple Double) (axis : Axis) : Bool :=
  q.isOpen.get axis && !(high.get axis < low.get axis)

/-- Chooses the open offsets from the extremes of the coordinates, and leaves none open. -/
def settle (q : Quantizer) (low high : Triple Double) : Quantizer where
  scalings := .ofAxes fun axis =>
    if q.settles low high axis then
      { q.scalings.get axis with offset := middle (low.get axis) (high.get axis) }
    else q.scalings.get axis
  isOpen := .same false

/-- What is said about the offsets that are chosen. -/
def settleRemarks (q : Quantizer) (low high : Triple Double) : List LogEntry :=
  (Axis.all.filter (q.settles low high)).map fun axis =>
    let offset := Decimal.plain (middle (low.get axis) (high.get axis))
    .debug s!"automatic {axis.letter} offset: {offset}"

/-- The stored form of a coordinate. -/
def quantizeAxis (q : Quantizer) (p : Triple Double) (axis : Axis) : Except Error Int32 :=
  match (q.scalings.get axis).stored? (p.get axis) with
  | some n => .ok n
  | none => .error (.coordinateOverflow axis (p.get axis) (q.scalings.get axis))

/-- The stored form of a position; the first axis that has none counts. -/
def quantize (q : Quantizer) (p : Triple Double) : Except Error (Triple Int32) := do
  let x ← q.quantizeAxis p .x
  let y ← q.quantizeAxis p .y
  let z ← q.quantizeAxis p .z
  return ⟨x, y, z⟩

end Quantizer

end PointCloud
