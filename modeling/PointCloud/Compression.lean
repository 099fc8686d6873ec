import PointCloud.Vlr

/-!
# Compressed points

Points can be stored compressed, which a file says in a record of its own.  This
writer stores them plain: it knows that record when it sees it, and refuses to
be configured for compressed output.
-/

namespace PointCloud.Compression

/-- Whether compressed points can be written. -/
def isAvailable : Bool := false

/-- The user identifier of the record about compression. -/
def userId : String := "laszip encoded"

/-- The record identifier of the record about compression. -/
def recordId : UInt16 := 22204

/-- Whether a record is the one about compression. -/
def isAbout (v : Vlr) : Bool := v.userId == userId && v.recordId == recordId

end PointCloud.Compression
