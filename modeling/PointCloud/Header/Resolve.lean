import PointCloud.ExtraBytes
import PointCloud.Header
import PointCloud.Options

/-!
# Settling a header

The options and the metadata of the source settle a header.  The version and the
record format come first, for they can be refused: a version that cannot be
written, a format that cannot be written or is not allowed in the version, a
record that would be too long.  The other fields always have some value.

What the options leave to the usual value of the creation date and the project
identifier is the writer's own to say; that is its `Stamp`.
-/

namespace PointCloud

/-- The date and the project identifier that a writer puts into a file unless told otherwise. -/
structure Stamp where
  year : UInt16
  day : UInt16
  projectId : Guid
  deriving Repr, DecidableEq

/-- The stamp that says nothing. -/
def Stamp.blank : Stamp := ⟨0, 0, .zero⟩

namespace Header

/-- The longest point record. -/
def maxRecordLength : Nat := 65535

/-- The record format of a number and the length of its records, if they can be written in files of
the version. -/
def recordKind (version : Version) (formatNumber : UInt8) (extra : Nat) :
    Except Error (RecordFormat × Nat) :=
  if version.isSupported = false then .error (.unsupportedVersion version)
  else match RecordFormat.writable? formatNumber with
    | none => .error (.unsupportedFormat formatNumber)
    | some format =>
      if version.allows format = false then .error (.formatNotAllowed version formatNumber)
      else if maxRecordLength < format.length + extra then .error (ExtraBytes.tooLong extra)
      else .ok (format, format.length + extra)

/-- Settles the fields that cannot be refused. -/
def describe (stamp : Stamp) (o : Options) (metadata : Option Metadata) (version : Version)
    (format : RecordFormat) (recordLength : Nat) : Logged Header := do
  let forward := o.forwardMetadata
  let year ← o.creationYear.resolve "creation_year" forward metadata stamp.year
  let day ← o.creationDay.resolve "creation_doy" forward metadata stamp.day
  let system ← o.systemId.resolve "system_id" forward metadata usualSystem
  let software ← o.softwareId.resolve "software_id" forward metadata usualSoftware
  let guid ← o.projectId.resolve "project_id" forward metadata stamp.projectId
  let encoding ← o.globalEncoding.resolve "global_encoding" forward metadata 0
  let source ← o.fileSourceId.resolve "filesource_id" forward metadata 0
  return {
    version := version
    format := format
    recordLength := recordLength
    creationYear := year
    creationDay := day
    systemIdentifier := system
    generatingSoftware := software
    guid := guid
    globalEncoding := encoding
    fileSourceId := source
    isCompressed := o.compression }

/-- Settles a header for point records with the given number of extra octets. -/
def resolve (stamp : Stamp) (o : Options) (metadata : Option Metadata) (extra : Nat) :
    Logged (Except Error Header) := do
  let forward := o.forwardMetadata
  let formatNumber ← o.format.resolve "format" forward metadata 3
  let minor ← o.minorVersion.resolve "minor_version" forward metadata 2
  let version : Version := ⟨o.majorVersion, minor⟩
  match recordKind version formatNumber extra with
  | .error e => return .error e
  | .ok (format, recordLength) =>
    let header ← describe stamp o metadata version format recordLength
    return .ok header

end Header

end PointCloud
