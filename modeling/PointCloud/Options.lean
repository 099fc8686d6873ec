import PointCloud.ExtraDimension
import PointCloud.Setting
import PointCloud.SpatialReference

/-!
# Options of a writer

`Options` is all that can be asked of a writer: where to write, which version and
record format, how the header fields are filled, scales and offsets, extra
dimensions and extra records.  `Options.usual` asks for nothing in particular.

An extra record is asked for with its data, as base64 text, or is forwarded from
the metadata of the source; `VlrRequest.parse?` reads
`user id, record id, data, description`, where the description may hold commas
and may be left out.
-/

namespace PointCloud

/-- The offset of an axis: given, or taken from the first points. -/
inductive OffsetChoice where
  | value (offset : Double)
  | automatic
  deriving Repr, BEq

/-- A request for an extra record. -/
structure VlrRequest where
  userId : String
  recordId : UInt16
  description : String
  data : String
  forward : Bool
  deriving Repr, DecidableEq

namespace VlrRequest

/-- Cuts a text at its first three commas, and takes the blanks off every part. -/
def parts (cs : List Char) : List String :=
  let rec go : Nat → List Char → List String
    | 0, cs => [String.ofList (Text.trim cs)]
    | n + 1, cs =>
      match Text.cut ',' cs with
      | (part, none) => [String.ofList (Text.trim part)]
      | (part, some rest) => String.ofList (Text.trim part) :: go n rest
  go 3 cs

/-- The request of the parts of a text. -/
def ofParts? (userId recordId data description : String) : Option VlrRequest := do
  let id ← Text.uint16? recordId
  if userId = "" then none
  else
    let forward := Setting.asksForward data
    some ⟨userId, id, description, if forward then "" else data, forward⟩

/-- Reads a request from text. -/
def parse? (s : String) : Option VlrRequest :=
  match parts s.toList with
  | [userId, recordId, data] => ofParts? userId recordId data ""
  | [userId, recordId, data, description] => ofParts? userId recordId data description
  | _ => none

end VlrRequest

/-- All that can be asked of a writer. -/
structure Options where
  filename : Option String
  compression : Bool
  format : Setting UInt8
  majorVersion : UInt8
  minorVersion : Setting UInt8
  creationDay : Setting UInt16
  creationYear : Setting UInt16
  systemId : Setting String
  softwareId : Setting String
  projectId : Setting Guid
  globalEncoding : Setting UInt16
  fileSourceId : Setting UInt16
  forwardMetadata : Bool
  extraDimensions : List ExtraDimension
  spatialReference : Option SpatialReference
  discardHighReturns : Bool
  scale : Triple Double
  offset : Triple OffsetChoice
  records : List VlrRequest
  deriving Repr, BEq

/-- The options that ask for nothing in particular. -/
def Options.usual : Options where
  filename := none
  compression := false
  format := .usual
  majorVersion := 1
  minorVersion := .usual
  creationDay := .usual
  creationYear := .usual
  systemId := .usual
  softwareId := .usual
  projectId := .usual
  globalEncoding := .usual
  fileSourceId := .usual
  forwardMetadata := false
  extraDimensions := []
  spatialReference := none
  discardHighReturns := false
  scale := .same Scaling.usualScale
  offset := .same (.value Double.zero)
  records := []

/-- Whether a number may be a scale. -/
def Options.isScale (x : Double) : Bool := !(x == Double.zero) && x.isFinite

end PointCloud
