import PointCloud.Proofs.Points.Places

/-!
# Return numbers in records and in the summary

The return number of a point goes two ways.  The summary takes note of it as it
is, and the record has three bits for it, in an octet that it shares with other
attributes.  Up to seven the two say the same.

A point is judged by its return number and by its number of returns together,
`verdict_eq_discard_iff`.  When high return numbers are to be left out, a point
that is written has one of the two within the limit.  It need not be the return
number.
-/

namespace PointCloud

namespace Point

/-- The position of a point, before it is quantized. -/
def position (p : Point) (m : FieldMap) : Triple Double := m.position p.alone 0

/-- The value of a field of eight bits, if it fits. -/
def octet? (p : Point) (m : FieldMap) (f : PointField) : Option UInt8 :=
  (m.octet p.alone 0 f).toOption

/-- What the summary takes note of in a point that is written. -/
def counted? (p : Point) (m : FieldMap) : Option CountedPoint :=
  (p.octet? m .returnNumber).map fun number => ⟨p.position m, number⟩

end Point

/-- The three bits of a record that are for the return number. -/
def EncodedPoint.returnBits (r : EncodedPoint) : Option Nat := (r.bytes[14]?).map (·.toNat % 8)

/-- The bits of the octet that attributes share. -/
theorem ReturnFlags.toNat_octet (f : ReturnFlags) :
    f.octet.toNat = f.returnNumber.toNat % 8 + 8 * (f.numberOfReturns.toNat % 8) +
      64 * (f.scanDirection.toNat % 2) + 128 * (f.edgeOfFlightLine.toNat % 2) := by
  rw [octet, UInt8.toNat_ofNat']
  omega

/-- The octet that attributes share gives the return number back as far as three bits go. -/
theorem ReturnFlags.octet_mod (f : ReturnFlags) : f.octet.toNat % 8 = f.returnNumber.toNat % 8 := by
  rw [toNat_octet]
  omega

/-- The shared octet stands behind the coordinates and the intensity. -/
theorem PointRecord.getElem?_bytes (f : RecordFormat) (p : PointRecord) (more : Octets) :
    (p.bytes f ++ more)[14]? = some p.flags.octet := by
  let front := Octets.ofInt32 p.x ++ Octets.ofInt32 p.y ++ Octets.ofInt32 p.z ++
    Octets.ofUInt16 p.intensity
  have hfront : front.length = 14 := by simp [front]
  have hsplit : ∃ behind, p.bytes f ++ more = front ++ p.flags.octet :: behind := by
    simp only [bytes, fixedBytes, Octets.ofUInt8, front, List.append_assoc, List.cons_append,
      List.nil_append]
    exact ⟨_, rfl⟩
  obtain ⟨behind, hbehind⟩ := hsplit
  rw [hbehind, List.getElem?_append_right (Nat.le_of_eq hfront), hfront]
  rfl

namespace PointEncoder

/-- The return number of a record is the one that it is made with. -/
theorem flags_of_record {e : PointEncoder} {v : PointView} {index : Nat} {stored : Triple Int32}
    {number kept : UInt8} {r : PointRecord} (h : e.record v index stored number kept = .ok r) :
    r.flags.returnNumber = number := by
  unfold record at h
  iterate 10 obtain ⟨_, _, h⟩ := Except.bind_eq_ok_iff.mp h
  rw [← Except.pure_eq_ok_iff.mp h]

/-- What a point with a record is counted as, and what its record says of its return number. -/
theorem counted_of_outcome {e : PointEncoder} {q : Quantizer} {p : Point} {r : EncodedPoint}
    (h : (e.encodePoint q p).outcome = .ok (some r)) :
    ∃ number count kept : UInt8, p.octet? e.fields .returnNumber = some number ∧
      p.octet? e.fields .numberOfReturns = some count ∧
      Returns.verdict e.policy number count = .keep kept ∧
      p.counted? e.fields = some r.counted ∧ r.returnBits = some (number.toNat % 8) := by
  obtain ⟨number, count, kept, hreturns, hverdict, hkept⟩ := kept_of_outcome h
  obtain ⟨number', hnumber, hreturns⟩ := Except.bind_eq_ok_iff.mp hreturns
  obtain ⟨count', hcount, hreturns⟩ := Except.bind_eq_ok_iff.mp hreturns
  obtain ⟨rfl, rfl⟩ := Prod.mk.inj (Except.pure_eq_ok_iff.mp hreturns)
  have hoctet : ∀ {f : PointField} {n : UInt8}, e.fields.octet p.alone 0 f = .ok n →
      p.octet? e.fields f = some n := by
    intro f n hn
    rw [Point.octet?, hn]
    rfl
  obtain ⟨stored, -, hkept⟩ := Except.bind_eq_ok_iff.mp hkept
  obtain ⟨record, hrecord, hkept⟩ := Except.bind_eq_ok_iff.mp hkept
  obtain ⟨extra, -, hkept⟩ := Except.bind_eq_ok_iff.mp hkept
  obtain rfl := Except.pure_eq_ok_iff.mp hkept
  refine ⟨number', count', kept, hoctet hnumber, hoctet hcount, hverdict, ?_, ?_⟩
  · rw [Point.counted?, hoctet hnumber]
    rfl
  · rw [EncodedPoint.returnBits, PointRecord.getElem?_bytes, Option.map_some,
      ReturnFlags.octet_mod, flags_of_record hrecord]

end PointEncoder

/-- A point is left out if that is asked for and both of its numbers are beyond the limit. -/
theorem Returns.verdict_eq_discard_iff {policy : Policy} {number count : UInt8} :
    verdict policy number count = .discard ↔
      policy.discardHigh = true ∧ policy.max < number ∧ policy.max < count := by
  unfold verdict
  by_cases hcount : policy.max < count ∧ policy.discardHigh = true
  · rw [if_pos hcount]
    by_cases hnumber : policy.max < number
    · simp [hnumber, hcount]
    · simp [hnumber]
  · rw [if_neg hcount]
    simp only [reduceCtorEq, false_iff]
    rintro ⟨hdiscard, -, hhigh⟩
    exact hcount ⟨hhigh, hdiscard⟩

end PointCloud
