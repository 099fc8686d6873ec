import PointCloud.Proofs.Records.Granted

/-!
# The texts of records

A record is kept in the list for its size, so there is only one thing that can
keep it from being written: a text that does not fit its field.  The records of
the coordinate system and of the extra dimensions have texts of their own, and
those fit.  So a record of a file that cannot be written is one that was asked
for, and the text is a text of the request; `exists_request_of_misfits` finds it.
-/

namespace PointCloud

namespace Vlr

/-- A text of the record does not fit its field, for this reason. -/
def Misfits (v : Vlr) (e : Error) : Prop :=
  AsciiField.encode 16 v.userId = .error e ∨ AsciiField.encode 32 v.description = .error e

/-- Whether both texts of the record fit their fields. -/
def TextsFit (v : Vlr) : Prop :=
  AsciiField.Fits 16 v.userId ∧ AsciiField.Fits 32 v.description

/-- Texts that fit cannot be refused. -/
theorem TextsFit.not_misfits {v : Vlr} (h : v.TextsFit) (e : Error) : ¬ v.Misfits e := by
  have huser := AsciiField.encode_eq_ok_iff.mpr ⟨h.1, rfl⟩
  have hdescription := AsciiField.encode_eq_ok_iff.mpr ⟨h.2, rfl⟩
  simp [Misfits, huser, hdescription]

/-- A record among those of its size cannot be written only if a text does not fit. -/
theorem bytes_failsWith (v : Vlr) (reserved : UInt16) :
    (v.bytes v.isLarge reserved).FailsWith v.Misfits := by
  have hlength : (v.lengthField v.isLarge).FailsWith v.Misfits := by
    unfold lengthField
    cases v.isLarge <;> exact Except.FailsWith.ok _
  have huser : (AsciiField.encode 16 v.userId).FailsWith v.Misfits := fun _ he => Or.inl he
  have hdescription : (AsciiField.encode 32 v.description).FailsWith v.Misfits :=
    fun _ he => Or.inr he
  exact (huser.bind fun _ _ => hdescription.bind fun _ _ => hlength.bind fun _ _ =>
    Except.FailsWith.ok _).map _

end Vlr

namespace SpatialReference

/-- The user identifier of coordinate systems fits. -/
theorem fits_projectionUser : AsciiField.Fits 16 projectionUser := by decide

/-- The texts of a key block fit, whatever is in it. -/
theorem textsFit_of_mem_geoRecord {recordId : UInt16} {description : String} {data : Octets}
    (hdescription : AsciiField.Fits 32 description) {v : Vlr}
    (hv : v ∈ (geoRecord recordId description data).value) : v.TextsFit := by
  unfold geoRecord at hv
  split at hv
  · cases hv
  · obtain rfl := List.mem_singleton.mp hv
    exact ⟨fits_projectionUser, hdescription⟩

/-- The texts of the two records for a well-known text fit. -/
theorem textsFit_of_mem_textRecords {wkt : String} {v : Vlr} (hv : v ∈ textRecords wkt) :
    v.TextsFit := by
  unfold textRecords at hv
  split at hv
  · cases hv
  · have huser : AsciiField.Fits 16 liblasUser := by decide
    have hfirst : AsciiField.Fits 32 "OGC Transformation Record" := by decide
    have hsecond : AsciiField.Fits 32 "OGR variant of OpenGIS WKT SRS" := by decide
    rcases List.mem_pair.mp hv with rfl | rfl
    · exact ⟨fits_projectionUser, hfirst⟩
    · exact ⟨huser, hsecond⟩

/-- The records of a coordinate system have texts that fit. -/
theorem textsFit_of_mem_records {s : SpatialReference} {v : Vlr} (hv : v ∈ s.records.value) :
    v.TextsFit := by
  unfold records at hv
  cases hkeys : s.geoKeys with
  | none =>
    simp only [hkeys] at hv
    exact textsFit_of_mem_textRecords hv
  | some keys =>
    simp only [hkeys, geoRecords, Logged.value_bind, Logged.value_pure, List.mem_append] at hv
    rcases hv with ((hdirectory | hdoubles) | hascii) | htext
    · exact textsFit_of_mem_geoRecord (by decide) hdirectory
    · exact textsFit_of_mem_geoRecord (by decide) hdoubles
    · exact textsFit_of_mem_geoRecord (by decide) hascii
    · exact textsFit_of_mem_textRecords htext

end SpatialReference

/-- The records of a coordinate system never fail by their texts. -/
theorem textsFit_of_mem_referenceRecords {o : Options} {table : PointTable} {v : Vlr}
    (hv : v ∈ (referenceRecords o table).value) : v.TextsFit := by
  unfold referenceRecords at hv
  split at hv
  · exact SpatialReference.textsFit_of_mem_records hv
  · cases hv

/-- The record of the extra dimensions has texts that fit. -/
theorem ExtraBytes.textsFit_of_record? {extra : ExtraBytes} {v : Vlr}
    (h : extra.record? = .ok (some v)) : v.TextsFit := by
  unfold record? at h
  split at h
  · cases h
  · obtain ⟨descriptors, -, hv⟩ := Except.bind_eq_ok_iff.mp h
    obtain rfl := Option.some.inj (Except.pure_eq_ok_iff.mp hv)
    have huser : AsciiField.Fits 16 "LASF_Spec" := by decide
    have hdescription : AsciiField.Fits 32 "Extra Bytes Record" := by decide
    exact ⟨huser, hdescription⟩

/-- A record of a file with a text that does not fit was asked for. -/
theorem exists_request_of_misfits {o : Options} {table : PointTable} {extra : ExtraBytes}
    {vlrs : List Vlr} (h : (fileRecords o table extra).value = .ok vlrs) {v : Vlr} (hv : v ∈ vlrs)
    {e : Error} (hmisfits : v.Misfits e) :
    ∃ r ∈ o.records, r.Grants table.metadata (some v) := by
  obtain ⟨granted, descriptor?, hgranted, hdescriptor, rfl⟩ := fileRecords_eq_ok h
  rcases List.mem_append.mp hv with hv | hv
  · rcases List.mem_append.mp hv with hrequested | hreference
    · exact hgranted.exists_left (List.reduceOption_mem_iff.mp hrequested)
    · exact absurd hmisfits ((textsFit_of_mem_referenceRecords hreference).not_misfits e)
  · rw [Option.mem_toList] at hv
    rw [hv] at hdescriptor
    exact absurd hmisfits ((ExtraBytes.textsFit_of_record? hdescriptor).not_misfits e)

end PointCloud
