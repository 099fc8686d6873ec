import PointCloud.Log
import PointCloud.Text.Blank
import PointCloud.Vlr

/-!
# Spatial references

The coordinate system of a file is said in records that a writer passes through
as they are: well-known text, and the three blocks of GeoTIFF keys.  The text is
written twice, under the identifiers of two conventions, with a zero octet
behind it.  An empty block or text is not written.
-/

namespace PointCloud

/-- The three blocks of GeoTIFF keys. -/
structure GeoKeys where
  directory : Octets
  doubles : Octets
  ascii : Octets
  deriving Repr, DecidableEq

/-- A coordinate system. -/
structure SpatialReference where
  wellKnownText : String
  geoKeys : Option GeoKeys
  deriving Repr, DecidableEq

namespace SpatialReference

/-- The user identifier of records about coordinate systems. -/
def projectionUser : String := "LASF_Projection"

/-- The user identifier of the second convention for well-known text. -/
def liblasUser : String := "liblas"

/-- The record identifier of well-known text. -/
def wellKnownTextId : UInt16 := 2112

/-- The system of a well-known text; blanks around it do not count. -/
def ofText (wkt : String) : SpatialReference := ⟨Text.trimmed wkt, none⟩

/-- Whether neither a text nor key blocks are given. -/
def isBlank (s : SpatialReference) : Bool := s.wellKnownText == "" && s.geoKeys.isNone

/-- A key block as a record; an empty one is left out with a remark. -/
def geoRecord (recordId : UInt16) (description : String) (data : Octets) : Logged (List Vlr) :=
  if data = [] then
    .noting [] (.debug s!"skipping empty geotiff record {recordId.toNat}")
  else .quiet [⟨projectionUser, recordId, description, data⟩]

/-- The records of the key blocks. -/
def geoRecords (keys : GeoKeys) : Logged (List Vlr) := do
  let directory ← geoRecord 34735 "GeoTiff GeoKeyDirectoryTag" keys.directory
  let doubles ← geoRecord 34736 "GeoTiff GeoDoubleParamsTag" keys.doubles
  let ascii ← geoRecord 34737 "GeoTiff GeoAsciiParamsTag" keys.ascii
  return directory ++ doubles ++ ascii

/-- The two records of a well-known text. -/
def textRecords (wkt : String) : List Vlr :=
  if wkt = "" then []
  else
    let data := wkt.toUTF8.data.toList ++ [0]
    [⟨projectionUser, wellKnownTextId, "OGC Transformation Record", data⟩,
     ⟨liblasUser, wellKnownTextId, "OGR variant of OpenGIS WKT SRS", data⟩]

/-- The records of a coordinate system. -/
def records (s : SpatialReference) : Logged (List Vlr) := do
  let geo ← match s.geoKeys with
    | some keys => geoRecords keys
    | none => .quiet []
  return geo ++ textRecords s.wellKnownText

end SpatialReference

end PointCloud
