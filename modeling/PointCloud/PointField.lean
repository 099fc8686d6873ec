import PointCloud.Error
import PointCloud.Table

/-!
# The fields of a point and where they come from

Each field of a point record is read from the dimension of the table that has
its name.  A `FieldMap` keeps the indexes of these dimensions, looked up once.
A dimension that the table does not have reads as zero, except that a point
without return numbers is the only return of its pulse.  A whole field takes the
truncation of a value, and refuses a value whose truncation it cannot hold.
-/

namespace PointCloud

/-- A field of a point record. -/
inductive PointField where
  | x
  | y
  | z
  | intensity
  | returnNumber
  | numberOfReturns
  | scanDirection
  | edgeOfFlightLine
  | classification
  | scanAngle
  | userData
  | pointSource
  | gpsTime
  | red
  | green
  | blue
  deriving Repr, DecidableEq

namespace PointField

/-- The fields in order. -/
def all : List PointField :=
  [.x, .y, .z, .intensity, .returnNumber, .numberOfReturns, .scanDirection, .edgeOfFlightLine,
    .classification, .scanAngle, .userData, .pointSource, .gpsTime, .red, .green, .blue]

/-- The place of a field in the order. -/
def place : PointField → Nat
  | .x => 0
  | .y => 1
  | .z => 2
  | .intensity => 3
  | .returnNumber => 4
  | .numberOfReturns => 5
  | .scanDirection => 6
  | .edgeOfFlightLine => 7
  | .classification => 8
  | .scanAngle => 9
  | .userData => 10
  | .pointSource => 11
  | .gpsTime => 12
  | .red => 13
  | .green => 14
  | .blue => 15

/-- The name of the dimension that the field is read from. -/
def name : PointField → String
  | .x => "X"
  | .y => "Y"
  | .z => "Z"
  | .intensity => "Intensity"
  | .returnNumber => "ReturnNumber"
  | .numberOfReturns => "NumberOfReturns"
  | .scanDirection => "ScanDirectionFlag"
  | .edgeOfFlightLine => "EdgeOfFlightLine"
  | .classification => "Classification"
  | .scanAngle => "ScanAngleRank"
  | .userData => "UserData"
  | .pointSource => "PointSourceId"
  | .gpsTime => "GpsTime"
  | .red => "Red"
  | .green => "Green"
  | .blue => "Blue"

/-- The value of a field whose dimension the table does not have. -/
def absent : PointField → Nat
  | .returnNumber | .numberOfReturns => 1
  | _ => 0

@[simp] theorem all_place (f : PointField) : all[f.place]? = some f := by cases f <;> rfl

end PointField

/-- The dimension of every field, in the order of the fields. -/
structure FieldMap where
  dimensions : Array (Option Nat)
  deriving Repr, DecidableEq

namespace FieldMap

/-- Looks up the dimensions of a layout. -/
def ofLayout (l : Layout) : FieldMap := ⟨(PointField.all.map fun f => l.find? f.name).toArray⟩

/-- The dimension of a field. -/
def get? (m : FieldMap) (f : PointField) : Option Nat := (m.dimensions[f.place]?).join

@[simp] theorem get?_ofLayout (l : Layout) (f : PointField) :
    (ofLayout l).get? f = l.find? f.name := by
  simp [get?, ofLayout]

/-- The value of a field that takes any double. -/
def real (m : FieldMap) (v : PointView) (index : Nat) (f : PointField) : Double :=
  match m.get? f with
  | some id => v.value id index
  | none => Double.zero

/-- The position of a point. -/
def position (m : FieldMap) (v : PointView) (index : Nat) : Triple Double :=
  ⟨m.real v index .x, m.real v index .y, m.real v index .z⟩

/-- The value of a field that takes whole numbers from `low` up to but not including `high`. -/
def whole (m : FieldMap) (v : PointView) (index : Nat) (low high : Int) (f : PointField) :
    Except Error Int :=
  match m.get? f with
  | some id =>
    match Scalar.wholeIn? low high (v.value id index) with
    | some n => .ok n
    | none => .error (.fieldOverflow f.name (v.value id index))
  | none => .ok f.absent

/-- The value of a field of eight bits. -/
def octet (m : FieldMap) (v : PointView) (index : Nat) (f : PointField) : Except Error UInt8 :=
  (m.whole v index 0 256 f).map fun n => UInt8.ofNat n.toNat

/-- The value of a field of sixteen bits. -/
def word (m : FieldMap) (v : PointView) (index : Nat) (f : PointField) : Except Error UInt16 :=
  (m.whole v index 0 65536 f).map fun n => UInt16.ofNat n.toNat

/-- The value of a field of eight bits with a sign. -/
def signedOctet (m : FieldMap) (v : PointView) (index : Nat) (f : PointField) :
    Except Error Int8 :=
  (m.whole v index (-128) 128 f).map Int8.ofInt

end FieldMap

end PointCloud
