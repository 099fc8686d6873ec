import PointCloud.Device
import PointCloud.RecordFormat
import PointCloud.Scaling
import PointCloud.Stage
import PointCloud.Text.Base64

/-!
# What can go wrong

Every refusal has one cause, a constructor of `Error` with what the cause is
about; `Error.message` puts it into words.
-/

namespace PointCloud

/-- Why a request was refused. -/
inductive Error where
  /-- the data of a record is not base64 -/
  | base64 (userId : String) (recordId : UInt16) (fault : Base64.Fault)
  /-- compressed output was asked for -/
  | compressionUnsupported
  /-- a coordinate has no stored form -/
  | coordinateOverflow (axis : Axis) (value : Double) (scaling : Scaling)
  /-- a value does not fit into its field -/
  | fieldOverflow (dimension : String) (value : Double)
  /-- a version does not allow a record format -/
  | formatNotAllowed (version : Version) (format : UInt8)
  /-- a text is not a box -/
  | invalidBox (text : String)
  /-- a step was asked for at the wrong stage -/
  | wrongStage (expected actual : Stage)
  /-- a setting has an unusable value -/
  | invalidOption (key value : String)
  /-- the device refused -/
  | device (fault : DeviceFault)
  /-- no file was named -/
  | missingFilename
  /-- a text for an ASCII field has other characters -/
  | notAscii (text : String)
  /-- the points would begin too far behind the header -/
  | pointDataTooFar (offset : Nat)
  /-- more points than the version can count -/
  | tooManyPoints (version : Version) (count : Nat)
  /-- a text is longer than its field -/
  | textTooLong (text : String) (width : Nat)
  /-- a regular record with too much data -/
  | recordTooLong (length : Nat)
  /-- an extra dimension that the table does not have -/
  | unknownExtraDimension (name : String)
  /-- an extra dimension of an unknown type -/
  | unknownScalar (dimension typeName : String)
  /-- a version that cannot be written -/
  | unsupportedVersion (version : Version)
  /-- a record format that is unknown or cannot be written -/
  | unsupportedFormat (number : UInt8)
  deriving Repr, DecidableEq

/-- The words for an error. -/
def Error.message : Error → String
  | .base64 user record fault =>
    s!"invalid base64 data for vlr with user id {user} and record id {record.toNat}: " ++
      fault.message
  | .compressionUnsupported =>
    "can't write laz output, compression is unsupported in this build (enable the laz feature)"
  | .coordinateOverflow axis value scaling =>
    s!"the {axis.letter} coordinate {Decimal.plain value} is out of range for transform " ++
      scaling.text
  | .fieldOverflow dimension value =>
    s!"value {Decimal.plain value} of dimension {dimension} does not fit into the las field"
  | .formatNotAllowed version format =>
    s!"las {version.text} does not support point format {format.toNat}"
  | .invalidBox text => s!"invalid bounds: {text}"
  | .wrongStage expected actual =>
    s!"the writer is in state {actual.name}, but this operation requires {expected.name}"
  | .invalidOption key value => s!"invalid value for option {key}: {value}"
  | .device fault => fault.message
  | .missingFilename => "no filename was provided"
  | .notAscii text => s!"this string is not ascii: {text}"
  | .pointDataTooFar offset => s!"the offset to point data is too large: {offset}"
  | .tooManyPoints version count => s!"las {version.text} can't store {count} points"
  | .textTooLong text width => s!"string is too long for a field of length {width}: {text}"
  | .recordTooLong length => s!"the vlr is too long: {length}"
  | .unknownExtraDimension name => s!"dimension '{name}' specified in 'extra_dims' option not found"
  | .unknownScalar dimension typeName =>
    s!"unknown type '{typeName}' for extra dimension '{dimension}'"
  | .unsupportedVersion version => s!"unsupported las version: {version.text}"
  | .unsupportedFormat number => s!"unsupported las output point format: {number.toNat}"

end PointCloud
