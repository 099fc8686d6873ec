import PointCloud.Axis
import PointCloud.Bytes.Fixed
import PointCloud.Version

/-!
# The header block of a file

A file begins with a block of fields at fixed places.  Versions 1.0 to 1.2 have
the same fields; 1.3 adds the start of the waveform data, and 1.4 the place and
number of the extended records and the counts of points in 64 bits.  A version
writes the fields that it has: what it lacks is left out even if it is given,
and what it has is written as zero if it is not given.

`length_bytes` says that the block is as long as its version says.
-/

namespace PointCloud

/-- Where the extended records begin, and how many there are. -/
structure ExtendedRecords where
  start : UInt64
  count : UInt32
  deriving Repr, DecidableEq

/-- Counts of points in 64 bits: all of them, and those of each return number. -/
structure LargeCounts where
  points : UInt64
  byReturn : Vector UInt64 15
  deriving Repr, DecidableEq

/-- The fields of a header. -/
structure HeaderBlock where
  signature : FixedOctets 4
  fileSourceId : UInt16
  globalEncoding : UInt16
  guid : FixedOctets 16
  version : Version
  systemIdentifier : FixedOctets 32
  generatingSoftware : FixedOctets 32
  creationDay : UInt16
  creationYear : UInt16
  headerSize : UInt16
  pointDataOffset : UInt32
  recordCount : UInt32
  pointFormat : UInt8
  pointLength : UInt16
  pointCount : UInt32
  pointsByReturn : Vector UInt32 5
  scale : Triple Double
  offset : Triple Double
  min : Triple Double
  max : Triple Double
  waveformStart : Option UInt64
  extendedRecords : Option ExtendedRecords
  largeCounts : Option LargeCounts
  deriving Repr

/-- The octets with which a file begins. -/
def fileSignature : FixedOctets 4 := ⟨[76, 65, 83, 70], rfl⟩

namespace ExtendedRecords

/-- No extended records. -/
def none : ExtendedRecords := ⟨0, 0⟩

/-- The octets of the fields. -/
def bytes (e : ExtendedRecords) : Octets := Octets.ofUInt64 e.start ++ Octets.ofUInt32 e.count

end ExtendedRecords

namespace LargeCounts

/-- No points. -/
def zero : LargeCounts := ⟨0, Vector.replicate 15 0⟩

/-- The octets of the fields. -/
def bytes (l : LargeCounts) : Octets :=
  Octets.ofUInt64 l.points ++ l.byReturn.toList.flatMap Octets.ofUInt64

end LargeCounts

namespace HeaderBlock

/-- A block that says nothing but the usual version and its size. -/
def blank : HeaderBlock where
  signature := fileSignature
  fileSourceId := 0
  globalEncoding := 0
  guid := .zero 16
  version := .usual
  systemIdentifier := .zero 32
  generatingSoftware := .zero 32
  creationDay := 0
  creationYear := 0
  headerSize := UInt16.ofNat Version.usual.headerSize
  pointDataOffset := UInt32.ofNat Version.usual.headerSize
  recordCount := 0
  pointFormat := 0
  pointLength := 0
  pointCount := 0
  pointsByReturn := Vector.replicate 5 0
  scale := .same .zero
  offset := .same .zero
  min := .same .zero
  max := .same .zero
  waveformStart := none
  extendedRecords := none
  largeCounts := none

/-- The octets of three doubles. -/
def tripleBytes (t : Triple Double) : Octets :=
  Octets.ofDouble t.x ++ Octets.ofDouble t.y ++ Octets.ofDouble t.z

/-- The fields that say what the file is. -/
def identityBytes (b : HeaderBlock) : Octets :=
  b.signature.toList ++ Octets.ofUInt16 b.fileSourceId ++ Octets.ofUInt16 b.globalEncoding ++
    b.guid.toList ++ Octets.ofUInt8 b.version.major ++ Octets.ofUInt8 b.version.minor ++
    b.systemIdentifier.toList ++ b.generatingSoftware.toList ++ Octets.ofUInt16 b.creationDay ++
    Octets.ofUInt16 b.creationYear

/-- The fields that say where things are and how many there are. -/
def contentBytes (b : HeaderBlock) : Octets :=
  Octets.ofUInt16 b.headerSize ++ Octets.ofUInt32 b.pointDataOffset ++
    Octets.ofUInt32 b.recordCount ++ Octets.ofUInt8 b.pointFormat ++
    Octets.ofUInt16 b.pointLength ++ Octets.ofUInt32 b.pointCount ++
    b.pointsByReturn.toList.flatMap Octets.ofUInt32

/-- The bounds, axis by axis, the greatest coordinate first. -/
def boundsBytes (b : HeaderBlock) : Octets :=
  Octets.ofDouble b.max.x ++ Octets.ofDouble b.min.x ++ Octets.ofDouble b.max.y ++
    Octets.ofDouble b.min.y ++ Octets.ofDouble b.max.z ++ Octets.ofDouble b.min.z

/-- The fields that every version has. -/
def commonBytes (b : HeaderBlock) : Octets :=
  b.identityBytes ++ b.contentBytes ++ tripleBytes b.scale ++ tripleBytes b.offset ++
    b.boundsBytes

/-- The start of the waveform data, if the version has it. -/
def waveformBytes (b : HeaderBlock) : Octets :=
  if b.version.has .waveforms then Octets.ofUInt64 (b.waveformStart.getD 0) else []

/-- The place of the extended records, if the version has it. -/
def extendedBytes (b : HeaderBlock) : Octets :=
  if b.version.has .extendedRecords then (b.extendedRecords.getD .none).bytes else []

/-- The counts in 64 bits, if the version has them. -/
def largeBytes (b : HeaderBlock) : Octets :=
  if b.version.has .largeFiles then (b.largeCounts.getD .zero).bytes else []

/-- The header of a file. -/
def bytes (b : HeaderBlock) : Octets :=
  b.commonBytes ++ b.waveformBytes ++ b.extendedBytes ++ b.largeBytes

/-- Numbers of 32 bits take four octets each. -/
theorem length_flatMap_ofUInt32 (ns : List UInt32) :
    (ns.flatMap Octets.ofUInt32).length = 4 * ns.length := by
  induction ns with
  | nil => rfl
  | cons n ns ih => simp [List.flatMap_cons, ih]; omega

/-- Numbers of 64 bits take eight octets each. -/
theorem length_flatMap_ofUInt64 (ns : List UInt64) :
    (ns.flatMap Octets.ofUInt64).length = 8 * ns.length := by
  induction ns with
  | nil => rfl
  | cons n ns ih => simp [List.flatMap_cons, ih]; omega

/-- What all versions have in common is the whole of the oldest headers. -/
@[simp] theorem length_commonBytes (b : HeaderBlock) : b.commonBytes.length = 227 := by
  simp [commonBytes, identityBytes, contentBytes, tripleBytes, boundsBytes,
    length_flatMap_ofUInt32, -List.length_flatMap]

/-- The block is as long as its version says. -/
theorem length_bytes (b : HeaderBlock) : b.bytes.length = b.version.headerSize := by
  have large : b.version.has .largeFiles = b.version.has .extendedRecords := rfl
  cases he : b.version.has .extendedRecords with
  | true =>
    have hw : b.version.has .waveforms = true := Version.has_of_since_le (by decide) he
    simp [bytes, waveformBytes, extendedBytes, largeBytes, ExtendedRecords.bytes,
      LargeCounts.bytes, Version.headerSize, large, he, hw, length_flatMap_ofUInt64,
      -List.length_flatMap]
  | false =>
    cases hw : b.version.has .waveforms <;>
      simp [bytes, waveformBytes, extendedBytes, largeBytes, Version.headerSize, large, he, hw]

end HeaderBlock

end PointCloud
