import PointCloud.Error
import PointCloud.Scalar
import PointCloud.Text.Separated

/-!
# Extra dimensions

Besides the fields of its format a point record may carry any dimensions of the
table.  They are asked for by name, with another scalar type where wanted:
`Reflectance, Amplitude = uint16`.  `ExtraDimension.parse` reads a request, and
`ExtraDimension.text` shows one, with the name under which its type is shown.
-/

namespace PointCloud

/-- A request for a dimension in the point records. -/
structure ExtraDimension where
  name : String
  scalar : Option Scalar
  deriving Repr, DecidableEq

namespace ExtraDimension

/-- The request as text. -/
def text (d : ExtraDimension) : String :=
  match d.scalar with
  | some t => s!"{d.name}={t.name}"
  | none => d.name

/-- Reads a request; blanks around the name and the type do not count. -/
def parse (cs : List Char) : Except Error ExtraDimension :=
  let (name, typeName?) := Text.cut '=' cs
  let name := String.ofList (Text.trim name)
  match typeName? with
  | none => .ok ⟨name, none⟩
  | some typeName =>
    let typeName := String.ofList (Text.trim typeName)
    match Scalar.ofName? typeName with
    | some t => .ok ⟨name, some t⟩
    | none => .error (.unknownScalar name typeName)

/-- Reads requests between commas.  Blank ones are skipped, and the first that cannot be read
counts. -/
def parseList (s : String) : Except Error (List ExtraDimension) :=
  ((Text.splitOn ',' s.toList).filter fun cs => !cs.all Text.isBlank).mapM parse

end ExtraDimension

end PointCloud
