import PointCloud.PointEncoder
import PointCloud.Proofs.Results

/-!
# Points by themselves

An encoder looks at a view one point at a time.  A `Point` is what it sees of
one: the value and the octets at every dimension, without the view around them
and without an index in it.  `encode_eq` says that nothing else counts, so two
views with the same points, `PointView.points`, are encoded alike however they
number them.

`length_of_outcome` says that a record is as long as the encoder says, provided
that the octets which are copied from the view are as wide as their dimension
was declared.
-/

namespace PointCloud

/-- One point of a view: the value and the octets at every dimension. -/
@[ext] structure Point where
  value : Nat → Double
  octets : Nat → Octets

namespace PointView

/-- The point at an index. -/
def point (v : PointView) (index : Nat) : Point :=
  ⟨fun id => v.value id index, fun id => v.octets id index⟩

/-- The points of a view in order. -/
def points (v : PointView) : List Point := (List.range v.size).map v.point

@[simp] theorem length_points (v : PointView) : v.points.length = v.size := by simp [points]

/-- The view of some points of another one, given by their indexes there. -/
def select (v : PointView) (indexes : List Nat) : PointView where
  size := indexes.length
  value id index := v.value id (indexes.getD index 0)
  octets id index := v.octets id (indexes.getD index 0)

@[simp] theorem points_select (v : PointView) (indexes : List Nat) :
    (v.select indexes).points = indexes.map v.point := by
  have hpoint : ∀ i, (v.select indexes).point i = v.point (indexes.getD i 0) := fun _ => rfl
  apply List.ext_getElem
  · simp [select]
  · intro i h _
    have hi : i < indexes.length := by simpa [select] using h
    simp [points, hpoint, hi]

end PointView

/-- The view that has a point alone. -/
def Point.alone (p : Point) : PointView := ⟨1, fun id _ => p.value id, fun id _ => p.octets id⟩

namespace PointEncoder

/-- What comes of a point. -/
def encodePoint (e : PointEncoder) (q : Quantizer) (p : Point) : Encoding := e.encode q p.alone 0

/-- What comes of a point does not depend on the view around it. -/
theorem encode_eq (e : PointEncoder) (q : Quantizer) (v : PointView) (index : Nat) :
    e.encode q v index = e.encodePoint q (v.point index) := rfl

end PointEncoder

/-- Whether the octets of every value that may be copied into a record are as wide as the type of
their dimension. -/
def Point.Fits (p : Point) (extra : ExtraBytes) : Prop :=
  ∀ f ∈ extra.fields, (p.octets f.dimension).length = f.source.width

/-- A request is resolved to the dimension that its name finds. -/
theorem ExtraField.resolve_eq_ok_iff {l : Layout} {request : ExtraDimension} {f : ExtraField} :
    ExtraField.resolve l request = .ok f ↔
      ∃ id d, l.find? request.name = some id ∧ l.get? id = some d ∧
        f = ⟨request.name, id, d.scalar, request.scalar.getD d.scalar, d.description⟩ := by
  unfold ExtraField.resolve
  cases hfind : l.find? request.name with
  | none => simp
  | some id =>
    cases hget : l.get? id with
    | none => simp [hget]
    | some d => simp [hget, eq_comm]

/-- Requests are resolved in order, and their octets must not be too many. -/
theorem ExtraBytes.resolve_eq_ok_iff {l : Layout} {requests : List ExtraDimension}
    {extra : ExtraBytes} :
    ExtraBytes.resolve l requests = .ok extra ↔
      List.Forall₂ (fun request f => ExtraField.resolve l request = .ok f) requests extra.fields ∧
        extra.length ≤ ExtraBytes.maxLength := by
  unfold ExtraBytes.resolve
  rw [Except.bind_eq_ok_iff]
  constructor
  · rintro ⟨fields, hfields, hlength⟩
    by_cases hle : ExtraBytes.length ⟨fields⟩ ≤ maxLength
    · simp only [hle, if_true, Except.pure_eq_ok_iff] at hlength
      subst hlength
      exact ⟨Except.mapM_eq_ok_iff.mp hfields, hle⟩
    · simp [hle, throw, throwThe, MonadExceptOf.throw] at hlength
  · rintro ⟨hfields, hle⟩
    exact ⟨extra.fields, Except.mapM_eq_ok_iff.mpr hfields, by simp [hle, pure, Except.pure]⟩

/-- A view whose octets are as wide as a layout says fits what is resolved against the layout. -/
theorem PointView.FitsLayout.fits {v : PointView} {l : Layout} (hv : v.FitsLayout l)
    {requests : List ExtraDimension} {extra : ExtraBytes}
    (hextra : ExtraBytes.resolve l requests = .ok extra) : ∀ p ∈ v.points, p.Fits extra := by
  intro p hp f hf
  obtain ⟨i, hi, rfl⟩ := List.mem_map.mp hp
  obtain ⟨hfields, _⟩ := ExtraBytes.resolve_eq_ok_iff.mp hextra
  obtain ⟨request, _, hresolve⟩ := hfields.exists_left hf
  obtain ⟨id, d, _, hget, rfl⟩ := ExtraField.resolve_eq_ok_iff.mp hresolve
  exact hv id d hget i (List.mem_range.mp hi)

namespace ExtraField

/-- The octets of a value are as wide as its type in the record. -/
theorem length_of_encode {f : ExtraField} {p : Point} {bytes : Octets}
    (hfit : (p.octets f.dimension).length = f.source.width)
    (h : f.encode p.alone 0 = .ok bytes) : bytes.length = f.scalar.width := by
  unfold encode at h
  by_cases hsame : f.source = f.scalar
  · simp only [hsame, if_true, Except.ok.injEq] at h
    rw [← h, ← hsame, ← hfit]
    rfl
  · simp only [hsame, if_false] at h
    cases hencode : f.scalar.encode? (p.alone.value f.dimension 0) with
    | none => simp [hencode] at h
    | some cell =>
      simp only [hencode, Except.ok.injEq] at h
      rw [← h]
      exact Scalar.length_of_encode? hencode

end ExtraField

namespace ExtraBytes

/-- Values as wide as their dimensions are together as long as the dimensions say. -/
theorem length_flatten {fields : List ExtraField} {values : List Octets}
    (h : List.Forall₂ (fun f value => value.length = f.scalar.width) fields values) :
    values.flatten.length = ExtraBytes.length ⟨fields⟩ := by
  induction h with
  | nil => rfl
  | cons hvalue _ ih =>
    simp only [List.flatten_cons, List.length_append, hvalue, ih]
    rfl

/-- The octets behind the fields of a record are as many as the dimensions say. -/
theorem length_of_encode {extra : ExtraBytes} {p : Point} {bytes : Octets} (hfit : p.Fits extra)
    (h : extra.encode p.alone 0 = .ok bytes) : bytes.length = extra.length := by
  obtain ⟨values, hvalues, hbytes⟩ := Except.bind_eq_ok_iff.mp h
  obtain rfl := Except.pure_eq_ok_iff.mp hbytes
  have hboth := (List.forall₂_and_left _ _).mpr ⟨hfit, Except.mapM_eq_ok_iff.mp hvalues⟩
  exact length_flatten (hboth.imp fun f value hf => ExtraField.length_of_encode hf.1 hf.2)

end ExtraBytes

namespace PointEncoder

/-- The coordinates of a record are those that it is made with. -/
theorem coordinates_of_record {e : PointEncoder} {v : PointView} {index : Nat}
    {stored : Triple Int32} {returnNumber numberOfReturns : UInt8} {r : PointRecord}
    (h : e.record v index stored returnNumber numberOfReturns = .ok r) :
    r.x = stored.x ∧ r.y = stored.y ∧ r.z = stored.z := by
  unfold record at h
  iterate 10 obtain ⟨_, _, h⟩ := Except.bind_eq_ok_iff.mp h
  rw [← Except.pure_eq_ok_iff.mp h]
  exact ⟨rfl, rfl, rfl⟩

/-- A point with a record is one that its return numbers let through. -/
theorem kept_of_outcome {e : PointEncoder} {q : Quantizer} {p : Point} {r : EncodedPoint}
    (h : (e.encodePoint q p).outcome = .ok (some r)) :
    ∃ number count kept : UInt8, e.returns p.alone 0 = .ok (number, count) ∧
      Returns.verdict e.policy number count = .keep kept ∧
      e.encodeKept q p.alone 0 number kept = .ok r := by
  unfold encodePoint encode at h
  cases hreturns : e.returns p.alone 0 with
  | error error => simp [hreturns] at h
  | ok pair =>
    rcases pair with ⟨number, count⟩
    simp only [hreturns] at h
    cases hverdict : Returns.verdict e.policy number count with
    | discard => simp [hverdict] at h
    | keep kept =>
      simp only [hverdict] at h
      obtain ⟨r', hkept, hr⟩ := Except.map_eq_ok_iff.mp h
      obtain rfl : r' = r := by simpa using hr
      exact ⟨number, count, kept, rfl, hverdict, hkept⟩

/-- A record holds the quantized position of its point and behind its fields the extra octets. -/
theorem record_of_outcome {e : PointEncoder} {q : Quantizer} {p : Point} {r : EncodedPoint}
    (h : (e.encodePoint q p).outcome = .ok (some r)) :
    ∃ (stored : Triple Int32) (record : PointRecord) (extra : Octets),
      q.quantize (e.fields.position p.alone 0) = .ok stored ∧
      record.x = stored.x ∧ record.y = stored.y ∧ record.z = stored.z ∧
      e.extra.encode p.alone 0 = .ok extra ∧ r.bytes = record.bytes e.format ++ extra := by
  obtain ⟨_, _, _, -, -, hkept⟩ := kept_of_outcome h
  obtain ⟨stored, hstored, hkept⟩ := Except.bind_eq_ok_iff.mp hkept
  obtain ⟨record, hrecord, hkept⟩ := Except.bind_eq_ok_iff.mp hkept
  obtain ⟨extra, hextra, hkept⟩ := Except.bind_eq_ok_iff.mp hkept
  rw [Except.pure_eq_ok_iff] at hkept
  obtain ⟨hx, hy, hz⟩ := coordinates_of_record hrecord
  exact ⟨stored, record, extra, hstored, hx, hy, hz, hextra, by rw [← hkept]⟩

/-- A record is as long as the encoder says. -/
theorem length_of_outcome {e : PointEncoder} (hformat : e.format.isSupported = true)
    {q : Quantizer} {p : Point} (hfit : p.Fits e.extra) {r : EncodedPoint}
    (h : (e.encodePoint q p).outcome = .ok (some r)) : r.bytes.length = e.recordLength := by
  obtain ⟨_, record, extra, -, -, -, -, hextra, hbytes⟩ := record_of_outcome h
  rw [hbytes, List.length_append, PointRecord.length_bytes hformat,
    ExtraBytes.length_of_encode hfit hextra]
  rfl

end PointEncoder

end PointCloud
