import PointCloud.Bytes.LittleEndian
import PointCloud.RecordFormat

/-!
# Point records

A point record has twelve octets of coordinates, eight octets of attributes, and
then a GPS time and a color where its format has them.  Four attributes share
one octet: the return number and the number of returns with three bits each, the
scan direction and the edge flag with one.  `length_bytes` says that a record is
as long as its format says.
-/

namespace PointCloud

/-- The attributes that share an octet. -/
structure ReturnFlags where
  returnNumber : UInt8
  numberOfReturns : UInt8
  scanDirection : UInt8
  edgeOfFlightLine : UInt8
  deriving Repr, DecidableEq

/-- The shared octet; what does not fit into the bits of an attribute is dropped. -/
def ReturnFlags.octet (f : ReturnFlags) : UInt8 :=
  UInt8.ofNat <| f.returnNumber.toNat % 8 + 8 * (f.numberOfReturns.toNat % 8) +
    64 * (f.scanDirection.toNat % 2) + 128 * (f.edgeOfFlightLine.toNat % 2)

/-- The fields of a point in a file. -/
structure PointRecord where
  x : Int32
  y : Int32
  z : Int32
  intensity : UInt16
  flags : ReturnFlags
  classification : UInt8
  scanAngle : Int8
  userData : UInt8
  pointSource : UInt16
  gpsTime : Double
  red : UInt16
  green : UInt16
  blue : UInt16
  deriving Repr, DecidableEq

namespace PointRecord

/-- The fields that every format has. -/
def fixedBytes (p : PointRecord) : Octets :=
  Octets.ofInt32 p.x ++ Octets.ofInt32 p.y ++ Octets.ofInt32 p.z ++
    Octets.ofUInt16 p.intensity ++ Octets.ofUInt8 p.flags.octet ++
    Octets.ofUInt8 p.classification ++ Octets.ofInt8 p.scanAngle ++ Octets.ofUInt8 p.userData ++
    Octets.ofUInt16 p.pointSource

/-- The octets of the color. -/
def colorBytes (p : PointRecord) : Octets :=
  Octets.ofUInt16 p.red ++ Octets.ofUInt16 p.green ++ Octets.ofUInt16 p.blue

/-- The record in a file of the given format. -/
def bytes (f : RecordFormat) (p : PointRecord) : Octets :=
  p.fixedBytes ++ (if f.hasGpsTime then Octets.ofDouble p.gpsTime else []) ++
    (if f.hasColor then p.colorBytes else [])

@[simp] theorem length_fixedBytes (p : PointRecord) : p.fixedBytes.length = 20 := by
  simp [fixedBytes]

@[simp] theorem length_colorBytes (p : PointRecord) : p.colorBytes.length = 6 := by
  simp [colorBytes]

/-- A record is as long as its format says. -/
theorem length_bytes {f : RecordFormat} (h : f.isSupported = true) (p : PointRecord) :
    (p.bytes f).length = f.length := by
  rw [RecordFormat.length_eq h]
  by_cases hg : f.hasGpsTime = true <;> by_cases hc : f.hasColor = true <;> simp [bytes, hg, hc]

end PointRecord

end PointCloud
