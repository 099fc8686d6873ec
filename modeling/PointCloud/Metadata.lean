/-!
# Metadata of a point source

Whoever produces points may pass on what it knew about them: values of header
fields by name, and variable length records with their data as base64 text.  A
writer that is told to forward something looks it up here.  Of two values set
for one name the later counts; of two records with the same identifiers, the
earlier.
-/

namespace PointCloud

/-- A record as it is passed on. -/
structure PassedRecord where
  userId : String
  recordId : UInt16
  description : String
  data : String
  deriving Repr, DecidableEq

/-- Header values by name, the latest first, and records in order. -/
structure Metadata where
  headerValues : List (String × String)
  records : List PassedRecord
  deriving Repr, DecidableEq

namespace Metadata

/-- Nothing known. -/
def empty : Metadata := ⟨[], []⟩

/-- Sets the value of a header field. -/
def setHeaderValue (m : Metadata) (name value : String) : Metadata :=
  { m with headerValues := (name, value) :: m.headerValues }

/-- The value of a header field. -/
def headerValue? (m : Metadata) (name : String) : Option String := m.headerValues.lookup name

/-- Adds a record behind the others. -/
def addRecord (m : Metadata) (r : PassedRecord) : Metadata :=
  { m with records := m.records ++ [r] }

/-- The data of the first record with the given identifiers. -/
def findRecord? (m : Metadata) (recordId : UInt16) (userId : String) : Option String :=
  (m.records.find? fun r => r.recordId == recordId && r.userId == userId).map (·.data)

end Metadata

end PointCloud
