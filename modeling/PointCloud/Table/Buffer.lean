import PointCloud.Error
import PointCloud.Table

/-!
# Points in memory

A `PointBuffer` is a table and a view at once.  It keeps a column for every
dimension of its layout: the octets of the values in the type of the dimension,
point after point, without anything between them, so a value is found from the
width of the type.  A point is added whole or not at all: `push` refuses it if
some value does not fit its dimension, and names the first such dimension.
-/

namespace PointCloud

/-- Points with a layout: how many there are, and a column of encoded values for each dimension. -/
structure PointBuffer where
  layout : Layout
  columns : List (Array UInt8)
  size : Nat
  metadata : Option Metadata
  spatialReference : Option SpatialReference
  deriving Repr

namespace PointBuffer

/-- No point. -/
def ofLayout (l : Layout) : PointBuffer := ⟨l, l.dimensions.map fun _ => #[], 0, none, none⟩

/-- The octets of a value in the type of a dimension. -/
def encodeCell (d : Dimension) (value : Double) : Except Error Octets :=
  match d.scalar.encode? value with
  | some cell => .ok cell
  | none => .error (.fieldOverflow d.name value)

/-- The octets of values in the types of dimensions; a missing value counts as zero. -/
def encodeRow : List Dimension → List Double → Except Error (List Octets)
  | [], _ => .ok []
  | d :: ds, values => do
    let cell ← encodeCell d (values.headD Double.zero)
    let cells ← encodeRow ds values.tail
    return cell :: cells

/-- Puts the octets of a row behind the columns. -/
def appendRow (columns : List (Array UInt8)) (row : List Octets) : List (Array UInt8) :=
  List.zipWith (fun (column : Array UInt8) (cell : Octets) => column ++ cell) columns row

/-- Adds a point, given by its values in the order of the layout.  All values are encoded before
any of them is put behind a column, so a point that is refused has changed nothing, and there is no
other buffer to give back than the one before. -/
def push (b : PointBuffer) (values : List Double) : Except Error PointBuffer :=
  match encodeRow b.layout.dimensions values with
  | .ok row => .ok { b with columns := appendRow b.columns row, size := b.size + 1 }
  | .error e => .error e

/-- Puts a value at the index of a name; a name that the layout does not have changes nothing. -/
def place (l : Layout) (name : String) (value : Double) (values : List Double) : List Double :=
  match l.find? name with
  | some id => values.set id value
  | none => values

/-- The values of a point of which only the coordinates are given. -/
def coordinates (l : Layout) (p : Triple Double) : List Double :=
  let zeros := List.replicate l.dimensions.length Double.zero
  place l "Z" p.z (place l "Y" p.y (place l "X" p.x zeros))

/-- Adds a point, given by its coordinates. -/
def pushXyz (b : PointBuffer) (p : Triple Double) : Except Error PointBuffer :=
  b.push (coordinates b.layout p)

/-- All octets of a dimension. -/
def column (b : PointBuffer) (id : Nat) : Array UInt8 := b.columns[id]?.getD #[]

/-- The octets of the value of a dimension at a point. -/
def cell (b : PointBuffer) (id index : Nat) : Octets :=
  match b.layout.get? id with
  | some d =>
    ((b.column id).extract (index * d.scalar.width) ((index + 1) * d.scalar.width)).toList
  | none => []

/-- The value of a dimension at a point. -/
def value (b : PointBuffer) (id index : Nat) : Double :=
  match b.layout.get? id with
  | some d => d.scalar.decode (b.cell id index)
  | none => Double.zero

/-- The buffer as a table. -/
def table (b : PointBuffer) : PointTable := ⟨b.layout, b.metadata, b.spatialReference⟩

/-- The buffer as a view. -/
def view (b : PointBuffer) : PointView := ⟨b.size, b.value, b.cell⟩

end PointBuffer

end PointCloud
