import PointCloud.ExtraDimension
import PointCloud.Table

/-!
# Extra bytes of point records

Requests for extra dimensions are resolved against the layout of a table before
any point is written.  The result says, for each of them in order, which
dimension is read and in which scalar type its value stands behind the fields of
the record.  A value is copied if the table has it in that type, and encoded
anew otherwise.

The same list is described in a record of its own, one descriptor of 192 octets
for each dimension, so that a reader can find the values.
-/

namespace PointCloud

/-- One extra dimension of a point record. -/
structure ExtraField where
  name : String
  dimension : Nat
  source : Scalar
  scalar : Scalar
  description : String
  deriving Repr, DecidableEq

namespace ExtraField

/-- Resolves a request. -/
def resolve (l : Layout) (request : ExtraDimension) : Except Error ExtraField :=
  match l.find? request.name with
  | none => .error (.unknownExtraDimension request.name)
  | some id =>
    match l.get? id with
    | none => .error (.unknownExtraDimension request.name)
    | some d =>
      .ok ⟨request.name, id, d.scalar, request.scalar.getD d.scalar, d.description⟩

/-- The octets of the value at a point. -/
def encode (f : ExtraField) (view : PointView) (index : Nat) : Except Error Octets :=
  if f.source = f.scalar then .ok (view.octets f.dimension index)
  else
    let value := view.value f.dimension index
    match f.scalar.encode? value with
    | some bytes => .ok bytes
    | none => .error (.fieldOverflow f.name value)

/-- The width of names and descriptions in a descriptor. -/
def textWidth : Nat := 32

/-- The description cut to its field, other characters than ASCII being replaced. -/
def shownDescription (f : ExtraField) : String :=
  String.ofList <| (f.description.toList.take textWidth).map fun c =>
    if AsciiField.isAsciiChar c then c else '?'

/-- The descriptor of the dimension. -/
def descriptor (f : ExtraField) : Except Error Octets := do
  let name ← AsciiField.encode textWidth f.name
  let description ← AsciiField.encode textWidth f.shownDescription
  return Octets.ofUInt16 0 ++ Octets.ofUInt8 f.scalar.code ++ Octets.ofUInt8 0 ++ name.toList ++
    List.replicate (4 + 5 * 24) 0 ++ description.toList

/-- A descriptor is 192 octets long. -/
theorem length_of_descriptor {f : ExtraField} {bytes : Octets} (h : f.descriptor = .ok bytes) :
    bytes.length = 192 := by
  unfold descriptor at h
  cases hn : AsciiField.encode textWidth f.name with
  | error e => simp [hn, bind, Except.bind] at h
  | ok name =>
    cases hd : AsciiField.encode textWidth f.shownDescription with
    | error e => simp [hn, hd, bind, Except.bind] at h
    | ok description =>
      simp only [hn, hd, bind, Except.bind, pure, Except.pure, Except.ok.injEq] at h
      subst h
      simp [textWidth]

end ExtraField

/-- The extra dimensions of point records, in order. -/
structure ExtraBytes where
  fields : List ExtraField
  deriving Repr, DecidableEq

namespace ExtraBytes

/-- The most octets behind the fields of a record. -/
def maxLength : Nat := 65535

/-- The octets behind the fields of a record. -/
def length (e : ExtraBytes) : Nat := (e.fields.map (·.scalar.width)).foldr (· + ·) 0

/-- What is said when there are too many octets. -/
def tooLong (length : Nat) : Error := .invalidOption "extra_dims" s!"{length} extra bytes"

/-- Resolves requests in order. -/
def resolve (l : Layout) (requests : List ExtraDimension) : Except Error ExtraBytes := do
  let fields ← requests.mapM (ExtraField.resolve l)
  let extra : ExtraBytes := ⟨fields⟩
  if extra.length ≤ maxLength then return extra else throw (tooLong extra.length)

/-- The octets of the values at a point. -/
def encode (e : ExtraBytes) (view : PointView) (index : Nat) : Except Error Octets := do
  let parts ← e.fields.mapM fun f => f.encode view index
  return parts.flatten

/-- The record that describes the dimensions, if there are any. -/
def record? (e : ExtraBytes) : Except Error (Option Vlr) :=
  if e.fields = [] then .ok none
  else do
    let descriptors ← e.fields.mapM ExtraField.descriptor
    return some ⟨"LASF_Spec", 4, "Extra Bytes Record", descriptors.flatten⟩

end ExtraBytes

end PointCloud
