import PointCloud.ExtraBytes
import PointCloud.PointField
import PointCloud.PointRecord
import PointCloud.Quantizer
import PointCloud.Returns
import PointCloud.Summary

/-!
# Encoding points

A point of a view becomes a record in three steps: its return numbers are read
and judged, its position is quantized, and its other fields are read and laid
out, the extra bytes last.  What comes of it is an `Encoding`: the complaints
about the return numbers, and a record, or nothing if the point is left out, or
the first error.  Complaints are made also about a point that then fails; only a
point whose return numbers cannot be read gets none.
-/

namespace PointCloud

/-- A record, and what the summary takes note of. -/
structure EncodedPoint where
  bytes : Octets
  counted : CountedPoint
  deriving Repr

/-- What comes of a point. -/
structure Encoding where
  complaints : List Returns.Complaint
  outcome : Except Error (Option EncodedPoint)

/-- How points become records. -/
structure PointEncoder where
  format : RecordFormat
  fields : FieldMap
  extra : ExtraBytes
  policy : Returns.Policy
  deriving Repr, DecidableEq

namespace PointEncoder

/-- The octets of a record. -/
def recordLength (e : PointEncoder) : Nat := e.format.length + e.extra.length

/-- The return number and the number of returns of a point. -/
def returns (e : PointEncoder) (v : PointView) (index : Nat) : Except Error (UInt8 × UInt8) := do
  let returnNumber ← e.fields.octet v index .returnNumber
  let numberOfReturns ← e.fields.octet v index .numberOfReturns
  return (returnNumber, numberOfReturns)

/-- The fields of a point, given its return numbers and its stored coordinates. -/
def record (e : PointEncoder) (v : PointView) (index : Nat) (stored : Triple Int32)
    (returnNumber numberOfReturns : UInt8) : Except Error PointRecord := do
  let intensity ← e.fields.word v index .intensity
  let scanDirection ← e.fields.octet v index .scanDirection
  let edgeOfFlightLine ← e.fields.octet v index .edgeOfFlightLine
  let classification ← e.fields.octet v index .classification
  let scanAngle ← e.fields.signedOctet v index .scanAngle
  let userData ← e.fields.octet v index .userData
  let pointSource ← e.fields.word v index .pointSource
  let red ← e.fields.word v index .red
  let green ← e.fields.word v index .green
  let blue ← e.fields.word v index .blue
  return {
    x := stored.x
    y := stored.y
    z := stored.z
    intensity := intensity
    flags := ⟨returnNumber, numberOfReturns, scanDirection, edgeOfFlightLine⟩
    classification := classification
    scanAngle := scanAngle
    userData := userData
    pointSource := pointSource
    gpsTime := e.fields.real v index .gpsTime
    red := red
    green := green
    blue := blue }

/-- The record of a point that is written, given its return numbers. -/
def encodeKept (e : PointEncoder) (q : Quantizer) (v : PointView) (index : Nat)
    (returnNumber numberOfReturns : UInt8) : Except Error EncodedPoint := do
  let position := e.fields.position v index
  let stored ← q.quantize position
  let record ← e.record v index stored returnNumber numberOfReturns
  let extra ← e.extra.encode v index
  return ⟨record.bytes e.format ++ extra, ⟨position, returnNumber⟩⟩

/-- What comes of the point at an index. -/
def encode (e : PointEncoder) (q : Quantizer) (v : PointView) (index : Nat) : Encoding :=
  match e.returns v index with
  | .error error => ⟨[], .error error⟩
  | .ok (returnNumber, numberOfReturns) =>
    { complaints := Returns.complaints e.policy returnNumber numberOfReturns
      outcome :=
        match Returns.verdict e.policy returnNumber numberOfReturns with
        | .discard => .ok none
        | .keep count => (e.encodeKept q v index returnNumber count).map some }

end PointEncoder

end PointCloud
