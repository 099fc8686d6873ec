import PointCloud.Guid
import PointCloud.Log
import PointCloud.Metadata
import PointCloud.Text.Blank
import PointCloud.Text.Numeral

/-!
# Settings of header fields

A header field is set to a value, or is to be forwarded from the metadata of the
source, or is left to the usual value; a general switch forwards every field of
the last kind.  `Setting.resolve` settles the value.  What cannot be forwarded,
for want of metadata or because it does not read as a value of the field, is
replaced by the usual value, with a remark.
-/

namespace PointCloud

/-- How a header field is to be filled. -/
inductive Setting (α : Type) where
  | usual
  | forward
  | value (a : α)
  deriving Repr, DecidableEq, BEq

/-- Types of header fields with a form as text.  `ofText?` gets texts without blanks at the
ends. -/
class FieldType (α : Type) where
  ofText? : String → Option α

instance : FieldType UInt8 := ⟨Text.uint8?⟩

instance : FieldType UInt16 := ⟨Text.uint16?⟩

instance : FieldType Guid := ⟨Guid.parse?⟩

instance : FieldType String := ⟨some⟩

namespace Setting

variable {α : Type}

/-- The word that asks for forwarding, in any case. -/
def forwardWord : String := "FORWARD"

/-- Whether a text without blanks at the ends asks for forwarding. -/
def asksForward (s : String) : Bool := Text.sameIgnoringCase s forwardWord

/-- Reads a setting. -/
def parse? [FieldType α] (s : String) : Option (Setting α) :=
  let text := Text.trimmed s
  if asksForward text then some .forward else (FieldType.ofText? text).map .value

/-- Whether the metadata is asked, given the general switch. -/
def forwards (s : Setting α) (forwardAll : Bool) : Bool :=
  match s with
  | .usual => forwardAll
  | .forward => true
  | .value _ => false

/-- The value that the setting has by itself. -/
def orUsual (s : Setting α) (usual : α) : α :=
  match s with
  | .value a => a
  | _ => usual

/-- The value of a field in the metadata. -/
def forwarded? [FieldType α] (name : String) (metadata : Option Metadata) : Option α :=
  (metadata.bind (·.headerValue? name)).bind fun text => FieldType.ofText? (Text.trimmed text)

/-- What is said when a field cannot be forwarded. -/
def forwardRemark (name : String) (metadata : Option Metadata) : LogEntry :=
  match metadata.bind (·.headerValue? name) with
  | some text => .warn s!"could not forward {name}, invalid value: {text}"
  | none => .debug s!"no metadata to forward for {name}, using default"

/-- Settles the value of a field. -/
def resolve [FieldType α] (s : Setting α) (name : String) (forwardAll : Bool)
    (metadata : Option Metadata) (usual : α) : Logged α :=
  if s.forwards forwardAll then
    match forwarded? name metadata with
    | some a => .quiet a
    | none => .noting usual (forwardRemark name metadata)
  else .quiet (s.orUsual usual)

/-- The metadata counts only through the entry of the field's own name. -/
theorem resolve_congr [FieldType α] (s : Setting α) {name : String} (forwardAll : Bool)
    {m n : Option Metadata} (usual : α)
    (h : m.bind (·.headerValue? name) = n.bind (·.headerValue? name)) :
    s.resolve name forwardAll m usual = s.resolve name forwardAll n usual := by
  simp only [resolve, forwarded?, forwardRemark, h]

end Setting

end PointCloud
