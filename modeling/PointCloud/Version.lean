/-!
# Format versions

A file states the version of the format that it follows.  Each version from 1.1
on adds fields or blocks to the one before; a `Capability` is one such addition,
and a version has it exactly when its major number is 1 and its minor number is
at least the one that introduced it.  A writer produces versions 1.0 to 1.4.
-/

namespace PointCloud

/-- A major and a minor number. -/
structure Version where
  major : UInt8
  minor : UInt8
  deriving Repr, DecidableEq

/-- What a version may add to a file. -/
inductive Capability where
  | fileSourceId
  | globalEncoding
  | waveforms
  | largeFiles
  | extendedRecords
  deriving Repr, DecidableEq

/-- The first minor version with a capability. -/
def Capability.since : Capability → UInt8
  | .fileSourceId => 1
  | .globalEncoding => 2
  | .waveforms => 3
  | .largeFiles => 4
  | .extendedRecords => 4

/-- The capabilities in the order of their introduction. -/
def Capability.all : List Capability :=
  [.fileSourceId, .globalEncoding, .waveforms, .largeFiles, .extendedRecords]

namespace Version

/-- The version that is written unless another is asked for. -/
def usual : Version := ⟨1, 2⟩

/-- The numbers with a point between them. -/
def text (v : Version) : String := s!"{v.major.toNat}.{v.minor.toNat}"

/-- Whether the version has a capability. -/
def has (v : Version) (c : Capability) : Bool := v.major == 1 && c.since ≤ v.minor

/-- Whether files of this version can be written. -/
def isSupported (v : Version) : Bool := v.major == 1 && v.minor ≤ 4

/-- The number of octets in the header of a file. -/
def headerSize (v : Version) : Nat :=
  if v.has .largeFiles then 375
  else if v.has .extendedRecords || v.has .waveforms then 235
  else 227

/-- Whether two octets stand between the records and the points. -/
def marksPointData (v : Version) : Bool := v == ⟨1, 0⟩

/-- The reserved word in front of every variable length record. -/
def recordSignature (v : Version) : UInt16 := if v.marksPointData then 0xAABB else 0

/-- The order of versions: by the major number, then by the minor one. -/
instance : Ord Version where
  compare v w := (compare v.major w.major).then (compare v.minor w.minor)

/-- A version with a capability has those that were introduced before it. -/
theorem has_of_since_le {v : Version} {c d : Capability} (hsince : d.since ≤ c.since)
    (h : v.has c = true) : v.has d = true := by
  simp only [has, Bool.and_eq_true, decide_eq_true_eq] at *
  exact ⟨h.1, UInt8.le_trans hsince h.2⟩

end Version

end PointCloud
