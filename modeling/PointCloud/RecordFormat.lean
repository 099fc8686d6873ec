import PointCloud.Version

/-!
# Point record formats

A point is stored in one of eleven record formats, numbered 0 to 10.  The number
of a format decides all else about it: the length of a record without extra
bytes, and whether the record has a GPS time and a color.  Formats 0 to 3 can
be written; the others are described only.
-/

namespace PointCloud

/-- A point record format, given by its number. -/
structure RecordFormat where
  id : Fin 11
  deriving Repr, DecidableEq

namespace RecordFormat

/-- The format of a number. -/
def ofNumber? (n : UInt8) : Option RecordFormat :=
  if h : n.toNat < 11 then some ⟨n.toNat, h⟩ else none

/-- The number of the format in a file. -/
def number (f : RecordFormat) : UInt8 := UInt8.ofNat f.id

/-- The format that is written unless another is asked for. -/
def usual : RecordFormat := ⟨3⟩

/-- The octets of a record without extra bytes. -/
def length (f : RecordFormat) : Nat :=
  match f.id with
  | 0 => 20
  | 1 => 28
  | 2 => 26
  | 3 => 34
  | 4 => 57
  | 5 => 63
  | 6 => 30
  | 7 => 36
  | 8 => 38
  | 9 => 59
  | 10 => 67

/-- Whether a record has a GPS time. -/
def hasGpsTime (f : RecordFormat) : Bool := f.id != 0 && f.id != 2

/-- Whether a record has a color. -/
def hasColor (f : RecordFormat) : Bool := [2, 3, 5, 7, 8, 10].contains f.id

/-- Whether points can be written in the format. -/
def isSupported (f : RecordFormat) : Bool := f.id ≤ 3

/-- The format of a number, if points can be written in it. -/
def writable? (n : UInt8) : Option RecordFormat := (ofNumber? n).filter (·.isSupported)

/-- Whether the format has wide return fields. -/
def isExtended (f : RecordFormat) : Bool := 6 ≤ f.id

/-- The largest return number of the format. -/
def maxReturns (f : RecordFormat) : UInt8 := if f.isExtended then 15 else 5

/-- The name of the format. -/
def text (f : RecordFormat) : String := s!"point format {f.id.val}"

/-- The minor version that introduced the format. -/
def since (f : RecordFormat) : UInt8 :=
  if f.id ≤ 1 then 0 else if f.id ≤ 3 then 2 else if f.id ≤ 5 then 3 else 4

@[simp] theorem ofNumber?_number (f : RecordFormat) : ofNumber? f.number = some f := by
  obtain ⟨id⟩ := f
  revert id
  decide

/-- The formats that can be written are the first four. -/
theorem isSupported_iff {f : RecordFormat} : f.isSupported = true ↔ f.id ≤ 3 := by
  simp [isSupported]

/-- A record is at least 20 octets long. -/
theorem twenty_le_length (f : RecordFormat) : 20 ≤ f.length := by
  obtain ⟨id⟩ := f
  revert id
  decide

/-- A record of a format that can be written has the fixed fields, and eight octets for a GPS time
and six for a color where it has them. -/
theorem length_eq {f : RecordFormat} (h : f.isSupported = true) :
    f.length = 20 + (if f.hasGpsTime then 8 else 0) + (if f.hasColor then 6 else 0) := by
  obtain ⟨id⟩ := f
  revert h
  revert id
  decide

end RecordFormat

/-- Whether points of a format may stand in files of a version. -/
def Version.allows (v : Version) (f : RecordFormat) : Bool := v.major == 1 && f.since ≤ v.minor

end PointCloud
