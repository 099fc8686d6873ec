import PointCloud.Header
import PointCloud.Proofs.Results

/-!
# What a header block is made from

A header block is made from a settled header, the scalings, the summary of the
points and what stands around them.  There are four reasons for not making one:
a count or an offset that 32 bits do not hold, and two texts that do not fit.  A
block that is made has every field from one of its sources, `madeFrom_of_block`.
-/

namespace PointCloud

/-- Where the fields of a header block come from. -/
structure HeaderBlock.MadeFrom (b : HeaderBlock) (h : Header) (scalings : Triple Scaling)
    (s : Summary) (c : Contents) : Prop where
  signature : b.signature = fileSignature
  fileSourceId : b.fileSourceId = if h.version.has .fileSourceId then h.fileSourceId else 0
  globalEncoding : b.globalEncoding = if h.version.has .globalEncoding then h.globalEncoding else 0
  guid : b.guid = h.guid.bytes
  version : b.version = h.version
  systemIdentifier : AsciiField.encode 32 h.systemIdentifier = .ok b.systemIdentifier
  generatingSoftware : AsciiField.encode 32 h.generatingSoftware = .ok b.generatingSoftware
  creationDay : b.creationDay = h.creationDay
  creationYear : b.creationYear = h.creationYear
  headerSize : b.headerSize = UInt16.ofNat h.version.headerSize
  pointDataOffset : Header.pointDataOffset c.pointDataOffset = .ok b.pointDataOffset
  recordCount : b.recordCount = UInt32.ofNat c.recordCount
  pointFormat : b.pointFormat = h.formatNumber
  pointLength : b.pointLength = UInt16.ofNat h.recordLength
  pointCount : h.pointCount s.count = .ok b.pointCount
  pointsByReturn : b.pointsByReturn = Header.countsByReturn b.pointCount s.byReturn
  scale : b.scale = scalings.map Scaling.scale
  offset : b.offset = scalings.map Scaling.offset
  min : b.min = (Header.bounds s).min
  max : b.max = (Header.bounds s).max
  waveformStart : b.waveformStart = none
  extendedRecords : b.extendedRecords = c.extendedRecords
  largeCounts : b.largeCounts =
    if h.version.has .largeFiles then some (Header.largeCounts s) else none

/-- A block that comes of a header has been made from it. -/
theorem Header.madeFrom_of_block {h : Header} {scalings : Triple Scaling} {s : Summary}
    {c : Contents} {b : HeaderBlock} (hb : h.block scalings s c = .ok b) :
    b.MadeFrom h scalings s c := by
  obtain ⟨count, hcount, hb⟩ := Except.bind_eq_ok_iff.mp hb
  obtain ⟨system, hsystem, hb⟩ := Except.bind_eq_ok_iff.mp hb
  obtain ⟨software, hsoftware, hb⟩ := Except.bind_eq_ok_iff.mp hb
  obtain ⟨offset, hoffset, hb⟩ := Except.bind_eq_ok_iff.mp hb
  obtain rfl := Except.pure_eq_ok_iff.mp hb
  constructor
  case systemIdentifier => exact hsystem
  case generatingSoftware => exact hsoftware
  case pointDataOffset => exact hoffset
  case pointCount => exact hcount
  all_goals rfl

end PointCloud
