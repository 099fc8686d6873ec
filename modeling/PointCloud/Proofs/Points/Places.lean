import PointCloud.Proofs.Points.Encoding

/-!
# Where things stand in a record

A reader of a file knows a record by places alone: the stored coordinates stand
in its first twelve octets, and each extra dimension stands behind those in front
of it, at the place that their widths add up to.
-/

namespace PointCloud

namespace Quantizer

/-- A position is quantized axis by axis. -/
theorem quantize_eq_ok {q : Quantizer} {position : Triple Double} {stored : Triple Int32}
    (h : q.quantize position = .ok stored) (axis : Axis) :
    (q.scalings.get axis).stored? (position.get axis) = some (stored.get axis) := by
  have haxis : ∀ {axis n}, q.quantizeAxis position axis = .ok n →
      (q.scalings.get axis).stored? (position.get axis) = some n := by
    intro axis n hn
    unfold quantizeAxis at hn
    split at hn
    · next m hm => rw [hm, Except.ok.inj hn]
    · cases hn
  obtain ⟨x, hx, h⟩ := Except.bind_eq_ok_iff.mp h
  obtain ⟨y, hy, h⟩ := Except.bind_eq_ok_iff.mp h
  obtain ⟨z, hz, h⟩ := Except.bind_eq_ok_iff.mp h
  rw [← Except.pure_eq_ok_iff.mp h]
  cases axis with
  | x => exact haxis hx
  | y => exact haxis hy
  | z => exact haxis hz

end Quantizer

/-- The first octets of a record are its coordinates. -/
theorem PointRecord.take_bytes (f : RecordFormat) (p : PointRecord) (more : Octets) :
    (p.bytes f ++ more).take 12 =
      Octets.ofInt32 p.x ++ Octets.ofInt32 p.y ++ Octets.ofInt32 p.z := by
  have hlength :
      (Octets.ofInt32 p.x ++ Octets.ofInt32 p.y ++ Octets.ofInt32 p.z).length = 12 := by simp
  simp only [bytes, fixedBytes, List.append_assoc]
  rw [← List.append_assoc (Octets.ofInt32 p.y), ← List.append_assoc (Octets.ofInt32 p.x),
    ← List.append_assoc (Octets.ofInt32 p.x)]
  exact List.take_left' hlength

/-- The value of a dimension is copied if the table has it in the type of the record, and encoded in
that type otherwise. -/
theorem ExtraField.encode_eq_ok_iff {f : ExtraField} {p : Point} {value : Octets} :
    f.encode p.alone 0 = .ok value ↔
      if f.source = f.scalar then value = p.octets f.dimension
      else f.scalar.encode? (p.value f.dimension) = some value := by
  have hoctets : p.alone.octets f.dimension 0 = p.octets f.dimension := rfl
  have hvalue : p.alone.value f.dimension 0 = p.value f.dimension := rfl
  unfold encode
  rw [hoctets, hvalue]
  by_cases hsame : f.source = f.scalar
  · simp [hsame, eq_comm]
  · cases hencode : f.scalar.encode? (p.value f.dimension) with
    | none => simp [hsame, hencode]
    | some bytes => simp [hsame, hencode]

/-- Each value stands behind those of the dimensions in front of it. -/
theorem ExtraBytes.slice_of_encode {extra : ExtraBytes} {p : Point} {bytes : Octets}
    (hfit : p.Fits extra) (h : extra.encode p.alone 0 = .ok bytes)
    {before behind : List ExtraField} {f : ExtraField}
    (hfields : extra.fields = before ++ f :: behind) :
    f.encode p.alone 0 =
      .ok ((bytes.drop (ExtraBytes.length ⟨before⟩)).take f.scalar.width) := by
  obtain ⟨parts, hparts, hbytes⟩ := Except.bind_eq_ok_iff.mp h
  obtain rfl := Except.pure_eq_ok_iff.mp hbytes
  rw [hfields, List.mapM_append, Except.bind_eq_ok_iff] at hparts
  obtain ⟨front, hfront, hparts⟩ := hparts
  rw [List.mapM_cons, Except.bind_eq_ok_iff] at hparts
  obtain ⟨rest, hrest, hparts⟩ := hparts
  obtain rfl := Except.pure_eq_ok_iff.mp hparts
  obtain ⟨value, hvalue, hrest⟩ := Except.bind_eq_ok_iff.mp hrest
  obtain ⟨others, -, hrest⟩ := Except.bind_eq_ok_iff.mp hrest
  obtain rfl := Except.pure_eq_ok_iff.mp hrest
  have hfitBefore : p.Fits ⟨before⟩ := by
    intro g hg
    exact hfit g (hfields ▸ List.mem_append_left _ hg)
  have hwidths : front.flatten.length = ExtraBytes.length ⟨before⟩ := by
    have hencode : ExtraBytes.encode ⟨before⟩ p.alone 0 = .ok front.flatten :=
      Except.bind_eq_ok_iff.mpr ⟨front, hfront, rfl⟩
    exact length_of_encode hfitBefore hencode
  have hwidth : value.length = f.scalar.width :=
    ExtraField.length_of_encode (hfit f (by simp [hfields])) hvalue
  rw [List.flatten_append, List.flatten_cons, List.drop_left' hwidths, List.take_left' hwidth]
  exact hvalue

namespace PointEncoder

/-- Behind the fields of its format a record has the value of each extra dimension. -/
theorem slice_of_outcome {e : PointEncoder} (hformat : e.format.isSupported = true)
    {q : Quantizer} {p : Point} (hfit : p.Fits e.extra) {r : EncodedPoint}
    (h : (e.encodePoint q p).outcome = .ok (some r)) {before behind : List ExtraField}
    {f : ExtraField} (hfields : e.extra.fields = before ++ f :: behind) :
    f.encode p.alone 0 =
      .ok ((r.bytes.drop (e.format.length + ExtraBytes.length ⟨before⟩)).take f.scalar.width) := by
  obtain ⟨_, record, extra, -, -, -, -, hextra, hbytes⟩ := record_of_outcome h
  rw [hbytes, ← List.drop_drop, List.drop_left' (PointRecord.length_bytes hformat record)]
  exact ExtraBytes.slice_of_encode hfit hextra hfields

/-- The first twelve octets of a record are the stored form of the position of its point. -/
theorem coordinates_of_outcome {e : PointEncoder} {q : Quantizer} {p : Point} {r : EncodedPoint}
    (h : (e.encodePoint q p).outcome = .ok (some r)) :
    ∃ stored : Triple Int32,
      r.bytes.take 12 =
        Octets.ofInt32 stored.x ++ Octets.ofInt32 stored.y ++ Octets.ofInt32 stored.z ∧
      ∀ axis, (q.scalings.get axis).stored? ((e.fields.position p.alone 0).get axis) =
        some (stored.get axis) := by
  obtain ⟨stored, record, extra, hstored, hx, hy, hz, -, hbytes⟩ := record_of_outcome h
  refine ⟨stored, ?_, Quantizer.quantize_eq_ok hstored⟩
  rw [hbytes, PointRecord.take_bytes, hx, hy, hz]

end PointEncoder

end PointCloud
