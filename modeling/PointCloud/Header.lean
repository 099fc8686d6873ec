import PointCloud.Bytes.AsciiField
import PointCloud.Guid
import PointCloud.Header.Block
import PointCloud.Summary

/-!
# Headers

A `Header` is what is settled about a file before any point is written: its
version and record format, and the fields that say where it comes from.  Counts,
bounds and offsets are only known later, so the header block is made from a
header together with the summary of the points written so far, the scalings, and
the `Contents` of the file; it is made twice, before the points and after them.
-/

namespace PointCloud

/-- What is settled about a file. -/
structure Header where
  version : Version
  format : RecordFormat
  recordLength : Nat
  creationYear : UInt16
  creationDay : UInt16
  systemIdentifier : String
  generatingSoftware : String
  guid : Guid
  globalEncoding : UInt16
  fileSourceId : UInt16
  isCompressed : Bool
  deriving Repr, DecidableEq

/-- What stands around the points: how many regular records there are, where the points begin, and
where the extended records stand once they are written. -/
structure Contents where
  recordCount : Nat
  pointDataOffset : Nat
  extendedRecords : Option ExtendedRecords
  deriving Repr, DecidableEq

namespace Header

/-- The system that is named unless another is. -/
def usualSystem : String := "las-writer"

/-- The software that is named unless another is. -/
def usualSoftware : String := "las-writer 0.1.0"

/-- The header of a file about which nothing has been asked. -/
def usual : Header where
  version := .usual
  format := .usual
  recordLength := RecordFormat.usual.length
  creationYear := 0
  creationDay := 0
  systemIdentifier := usualSystem
  generatingSoftware := usualSoftware
  guid := .zero
  globalEncoding := 0
  fileSourceId := 0
  isCompressed := false

/-- The octets of a point record behind the fields of its format. -/
def extraLength (h : Header) : Nat := h.recordLength - h.format.length

/-- The number of the record format, marked if the points are compressed. -/
def formatNumber (h : Header) : UInt8 :=
  if h.isCompressed then h.format.number ||| 0x80 else h.format.number

/-- The count of points in 32 bits.  A count beyond them is left to the 64 bits of a version that
has those, and refused otherwise. -/
def pointCount (h : Header) (count : Nat) : Except Error UInt32 :=
  if count < UInt32.size then .ok (UInt32.ofNat count)
  else if h.version.has .largeFiles then .ok 0
  else .error (.tooManyPoints h.version count)

/-- The counts by return number in 32 bits; one that does not fit is zero, and all of them are
where the count of points is. -/
def countsByReturn (pointCount : UInt32) (byReturn : Vector Nat 15) : Vector UInt32 5 :=
  Vector.ofFn fun slot =>
    let n := byReturn.get (slot.castLE (by decide))
    if pointCount = 0 ∨ UInt32.size ≤ n then 0 else UInt32.ofNat n

/-- The counts in 64 bits. -/
def largeCounts (s : Summary) : LargeCounts :=
  ⟨UInt64.ofNat s.count, s.byReturn.map UInt64.ofNat⟩

/-- The bounds in a header: zero without points. -/
def bounds (s : Summary) : Box :=
  if s.box.isEmpty then ⟨.same Double.zero, .same Double.zero⟩ else s.box

/-- The place of the points in 32 bits. -/
def pointDataOffset (offset : Nat) : Except Error UInt32 :=
  if offset < UInt32.size then .ok (UInt32.ofNat offset) else .error (.pointDataTooFar offset)

/-- The header block, given the scalings, the points written so far and what stands around them. -/
def block (h : Header) (scalings : Triple Scaling) (s : Summary) (c : Contents) :
    Except Error HeaderBlock := do
  let pointCount ← h.pointCount s.count
  let systemIdentifier ← AsciiField.encode 32 h.systemIdentifier
  let generatingSoftware ← AsciiField.encode 32 h.generatingSoftware
  let pointDataOffset ← pointDataOffset c.pointDataOffset
  return {
    signature := fileSignature
    fileSourceId := if h.version.has .fileSourceId then h.fileSourceId else 0
    globalEncoding := if h.version.has .globalEncoding then h.globalEncoding else 0
    guid := h.guid.bytes
    version := h.version
    systemIdentifier := systemIdentifier
    generatingSoftware := generatingSoftware
    creationDay := h.creationDay
    creationYear := h.creationYear
    headerSize := UInt16.ofNat h.version.headerSize
    pointDataOffset := pointDataOffset
    recordCount := UInt32.ofNat c.recordCount
    pointFormat := h.formatNumber
    pointLength := UInt16.ofNat h.recordLength
    pointCount := pointCount
    pointsByReturn := countsByReturn pointCount s.byReturn
    scale := scalings.map Scaling.scale
    offset := scalings.map Scaling.offset
    min := (bounds s).min
    max := (bounds s).max
    waveformStart := none
    extendedRecords := c.extendedRecords
    largeCounts := if h.version.has .largeFiles then some (largeCounts s) else none }

/-- The header of a file. -/
def bytes (h : Header) (scalings : Triple Scaling) (s : Summary) (c : Contents) :
    Except Error Octets :=
  (h.block scalings s c).map HeaderBlock.bytes

end Header

end PointCloud
