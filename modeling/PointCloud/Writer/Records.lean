import PointCloud.ExtraBytes
import PointCloud.Options

/-!
# The records of a file

The variable length records of a file come from three places, in this order:
the requests in the options, the coordinate system, and the extra dimensions.
A request is for given data or for data from the metadata of the source; if the
metadata has no such record the request is passed over with a remark.  The
coordinate system of the options goes before that of the table, unless it is
blank.
-/

namespace PointCloud

namespace VlrRequest

/-- The base64 text of the data that a request is for. -/
def dataText? (r : VlrRequest) (metadata : Option Metadata) : Option String :=
  if r.forward then metadata.bind (·.findRecord? r.recordId r.userId) else some r.data

/-- The record of a request with the given data; blanks around the text do not count. -/
def withData (r : VlrRequest) (dataText : String) : Except Error Vlr :=
  match Base64.decode (Text.trimmed dataText).toUTF8.data.toList with
  | .ok data => .ok ⟨r.userId, r.recordId, r.description, data⟩
  | .error fault => .error (.base64 r.userId r.recordId fault)

/-- The record of a request, or none if there is nothing to forward. -/
def record? (r : VlrRequest) (metadata : Option Metadata) : Logged (Except Error (Option Vlr)) :=
  match r.dataText? metadata with
  | some dataText => .quiet ((r.withData dataText).map some)
  | none =>
    let remark := s!"no vlr with record id {r.recordId.toNat} and user id {r.userId} to forward"
    .noting (.ok none) (.debug remark)

/-- The records of requests in order, up to the first that fails. -/
def records (metadata : Option Metadata) : List VlrRequest → Logged (Except Error (List Vlr))
  | [] => .quiet (.ok [])
  | r :: rs => do
    match ← r.record? metadata with
    | .error e => return .error e
    | .ok v? => return (← records metadata rs).map (v?.toList ++ ·)

end VlrRequest

/-- The coordinate system that a file is written with. -/
def chosenReference (o : Options) (table : PointTable) : Option SpatialReference :=
  (o.spatialReference.filter (!·.isBlank)).or table.spatialReference

/-- The records of the coordinate system. -/
def referenceRecords (o : Options) (table : PointTable) : Logged (List Vlr) :=
  match chosenReference o table with
  | some reference => reference.records
  | none => .quiet []

/-- The records of a file. -/
def fileRecords (o : Options) (table : PointTable) (extra : ExtraBytes) :
    Logged (Except Error (List Vlr)) := do
  match ← VlrRequest.records table.metadata o.records with
  | .error e => return .error e
  | .ok requested =>
    let reference ← referenceRecords o table
    return extra.record?.map fun descriptor? => requested ++ reference ++ descriptor?.toList

end PointCloud
