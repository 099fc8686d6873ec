import PointCloud.Decimal.Reading
import PointCloud.Options

/-!
# Options by name

Every option has a name and is set from text.  `OptionKey` is the names, and
`Options.set` sets the option of a name: a value that is no value of the option
is refused, with the name and the text, and changes nothing.  An unknown name is
ignored with a remark.
-/

namespace PointCloud

/-- The options that have a name. -/
inductive OptionKey where
  | filename
  | compression
  | format
  | majorVersion
  | minorVersion
  | creationDay
  | creationYear
  | systemId
  | softwareId
  | projectId
  | globalEncoding
  | fileSourceId
  | forwardMetadata
  | extraDimensions
  | spatialReference
  | discardHighReturns
  | record
  | scale (axis : Axis)
  | offset (axis : Axis)
  deriving Repr, DecidableEq

namespace OptionKey

/-- The options in order. -/
def all : List OptionKey :=
  [.filename, .compression, .format, .majorVersion, .minorVersion, .creationDay, .creationYear,
    .systemId, .softwareId, .projectId, .globalEncoding, .fileSourceId, .forwardMetadata,
    .extraDimensions, .spatialReference, .discardHighReturns, .record] ++
  Axis.all.map .scale ++ Axis.all.map .offset

/-- The name of an option. -/
def name : OptionKey → String
  | .filename => "filename"
  | .compression => "compression"
  | .format => "format"
  | .majorVersion => "major_version"
  | .minorVersion => "minor_version"
  | .creationDay => "creation_doy"
  | .creationYear => "creation_year"
  | .systemId => "system_id"
  | .softwareId => "software_id"
  | .projectId => "project_id"
  | .globalEncoding => "global_encoding"
  | .fileSourceId => "filesource_id"
  | .forwardMetadata => "forward_metadata"
  | .extraDimensions => "extra_dims"
  | .spatialReference => "a_srs"
  | .discardHighReturns => "discard_high_return_numbers"
  | .record => "vlr"
  | .scale axis => s!"scale_{axis.letter}"
  | .offset axis => s!"offset_{axis.letter}"

/-- The option of a name. -/
def ofName? (name : String) : Option OptionKey := all.find? fun k => k.name == name

end OptionKey

namespace Options

/-- Reads a yes or no; nothing at all is a no. -/
def readSwitch? (text : String) : Option Bool :=
  let word := String.ofList (Text.lower (Text.trim text.toList))
  if ["true", "1", "yes"].contains word then some true
  else if ["false", "0", "no", ""].contains word then some false
  else none

/-- Reads a double; blanks around it do not count. -/
def readNumber? (text : String) : Option Double := Decimal.read? (Text.trimmed text)

/-- Reads a scale: a finite number that is not zero. -/
def readScale? (text : String) : Option Double := (readNumber? text).filter isScale

/-- Reads the offset of an axis: a number, or the word `auto`. -/
def readOffset? (text : String) : Option OffsetChoice :=
  if Text.sameIgnoringCase (Text.trimmed text) "auto" then some .automatic
  else (readNumber? text).map .value

/-- Reads a coordinate system; a blank text asks for none. -/
def readReference (text : String) : Option SpatialReference :=
  if Text.isBlankText text then none else some (.ofText text)

/-- Sets an option from text.  The text is read before the option is set, so a text that is refused
has changed nothing, and there are no other options to give back than those before. -/
def assign (o : Options) (key : OptionKey) (text : String) : Except Error Options :=
  let orInvalid {α : Type} (read : Option α) (update : α → Options) : Except Error Options :=
    match read with
    | some a => .ok (update a)
    | none => .error (.invalidOption key.name text)
  match key with
  | .filename => .ok { o with filename := if text = "" then none else some text }
  | .compression => orInvalid (readSwitch? text) fun b => { o with compression := b }
  | .format => orInvalid (Setting.parse? text) fun v => { o with format := v }
  | .majorVersion =>
    orInvalid (Text.uint8? (Text.trimmed text)) fun v => { o with majorVersion := v }
  | .minorVersion => orInvalid (Setting.parse? text) fun v => { o with minorVersion := v }
  | .creationDay => orInvalid (Setting.parse? text) fun v => { o with creationDay := v }
  | .creationYear => orInvalid (Setting.parse? text) fun v => { o with creationYear := v }
  | .systemId => orInvalid (Setting.parse? text) fun v => { o with systemId := v }
  | .softwareId => orInvalid (Setting.parse? text) fun v => { o with softwareId := v }
  | .projectId => orInvalid (Setting.parse? text) fun v => { o with projectId := v }
  | .globalEncoding => orInvalid (Setting.parse? text) fun v => { o with globalEncoding := v }
  | .fileSourceId => orInvalid (Setting.parse? text) fun v => { o with fileSourceId := v }
  | .forwardMetadata => orInvalid (readSwitch? text) fun b => { o with forwardMetadata := b }
  | .extraDimensions =>
    (ExtraDimension.parseList text).map fun ds => { o with extraDimensions := ds }
  | .spatialReference => .ok { o with spatialReference := readReference text }
  | .discardHighReturns => orInvalid (readSwitch? text) fun b => { o with discardHighReturns := b }
  | .record => orInvalid (VlrRequest.parse? text) fun r => { o with records := o.records ++ [r] }
  | .scale axis => orInvalid (readScale? text) fun x => { o with scale := o.scale.set axis x }
  | .offset axis => orInvalid (readOffset? text) fun x => { o with offset := o.offset.set axis x }

/-- Sets the option of a name from text.  A name that is no option changes nothing. -/
def set (o : Options) (name text : String) : Except Error Options :=
  match OptionKey.ofName? name with
  | some key => o.assign key text
  | none => .ok o

/-- What is said when the option of a name is set. -/
def setRemarks (name text : String) : List LogEntry :=
  match OptionKey.ofName? name with
  | some _ => []
  | none => [.debug s!"ignoring unknown option {name}={text}"]

end Options

end PointCloud
