import PointCloud.Proofs.Records.Descriptors
import PointCloud.Proofs.Records.Texts

/-!
# Which records can be made

The records of a file are made in two goes.  First each of them is found: a
request has to be for data in base64, and the names of extra dimensions have to
fit their fields, `exists_fileRecords_iff`.  Then each of them is written, and
that comes down to its two texts, `Vlr.exists_bytes_iff`.  Of all the texts of
records only those of requests can be unfit, `textsFit_iff_of_fileRecords`: what
a coordinate system is made of and what a dimension is described by make no
difference.
-/

namespace PointCloud

open Except (exists_map_eq_ok_iff exists_bind_eq_ok_iff exists_mapM_eq_ok_iff)

/-- A text has a field just if it fits. -/
theorem AsciiField.exists_encode_iff {width : Nat} {s : String} :
    (∃ field, encode width s = .ok field) ↔ Fits width s := by
  simp [encode_eq_ok_iff]

/-- A record is written among those of its size if its texts fit. -/
theorem Vlr.exists_bytes_iff (v : Vlr) (reserved : UInt16) :
    (∃ bytes, v.bytes v.isLarge reserved = .ok bytes) ↔ v.TextsFit := by
  have hlength : ∃ length, v.lengthField v.isLarge = .ok length := by
    unfold lengthField
    cases v.isLarge <;> exact ⟨_, rfl⟩
  rw [bytes, exists_map_eq_ok_iff, block, exists_bind_eq_ok_iff fun userId _ =>
    exists_bind_eq_ok_iff fun description _ => exists_bind_eq_ok_iff (p := True) fun length _ => by
      simp [pure, Except.pure], AsciiField.exists_encode_iff, AsciiField.exists_encode_iff]
  simp [hlength, TextsFit]

namespace ExtraField

/-- What is shown of a description always fits. -/
theorem fits_shownDescription (f : ExtraField) : AsciiField.Fits 32 f.shownDescription := by
  have hchars : f.shownDescription.toList = (f.description.toList.take 32).map fun c =>
      if AsciiField.isAsciiChar c then c else '?' := by
    rw [shownDescription, String.toList_ofList, textWidth]
  constructor
  · rw [AsciiField.isAscii, hchars, List.all_map, List.all_eq_true]
    intro c _
    by_cases hascii : AsciiField.isAsciiChar c = true
    · simp [hascii]
    · simp only [Function.comp_apply, if_neg hascii]
      decide
  · rw [← String.length_toList, hchars, List.length_map, List.length_take]
    omega

/-- A dimension has a descriptor just if its name fits. -/
theorem exists_descriptor_iff (f : ExtraField) :
    (∃ bytes, f.descriptor = .ok bytes) ↔ AsciiField.Fits 32 f.name := by
  have hshown : ∃ field, AsciiField.encode textWidth f.shownDescription = .ok field :=
    AsciiField.exists_encode_iff.mpr f.fits_shownDescription
  rw [descriptor, exists_bind_eq_ok_iff fun name _ => exists_bind_eq_ok_iff (p := True)
    fun description _ => by simp [pure, Except.pure], AsciiField.exists_encode_iff]
  exact and_iff_left ⟨hshown, trivial⟩

end ExtraField

/-- The dimensions have a record just if all their names fit. -/
theorem ExtraBytes.exists_record?_iff (extra : ExtraBytes) :
    (∃ v?, extra.record? = .ok v?) ↔ ∀ f ∈ extra.fields, AsciiField.Fits 32 f.name := by
  unfold record?
  by_cases hnone : extra.fields = []
  · simp [hnone]
  · rw [if_neg hnone, exists_bind_eq_ok_iff (p := True) fun descriptors _ => by
      simp [pure, Except.pure], exists_mapM_eq_ok_iff, and_true]
    simp only [ExtraField.exists_descriptor_iff]

namespace VlrRequest

/-- A request stands for what is found for it, and for nothing else. -/
theorem record?_eq_ok_iff {metadata : Option Metadata} {r : VlrRequest} {v? : Option Vlr} :
    (r.record? metadata).value = .ok v? ↔ r.Grants metadata v? := by
  refine ⟨grants_of_record?, fun h => ?_⟩
  have hdata : ∀ {dataText : String} {data : Octets}, Carries dataText data →
      r.dataText? metadata = some dataText →
      (r.record? metadata).value = .ok (some ⟨r.userId, r.recordId, r.description, data⟩) := by
    intro dataText data hcarries htext
    have hdecode : Base64.decode (Text.trimmed dataText).toUTF8.data.toList = .ok data := hcarries
    simp only [record?, htext, Logged.quiet, withData, hdecode]
    rfl
  cases h with
  | given data own carries =>
    exact hdata carries (by simp [dataText?, own])
  | forwarded m before behind passed data forward known records matching first carries =>
    refine hdata carries ?_
    have hmatches : (passed.recordId == r.recordId && passed.userId == r.userId) = true := by
      simpa [Matches] using matching
    have hfind : m.findRecord? r.recordId r.userId = some passed.data := by
      rw [Metadata.findRecord?, records, List.find?_append, List.find?_eq_none.mpr]
      · simp [hmatches]
      · intro other hother hmatch
        exact first other hother (by simpa [Matches] using hmatch)
    simp [dataText?, forward, known, hfind]
  | absent forward missing =>
    have htext : r.dataText? metadata = none := by
      cases metadata with
      | none => simp [dataText?, forward]
      | some m =>
        have hfind : m.findRecord? r.recordId r.userId = none := by
          rw [Metadata.findRecord?, Option.map_eq_none_iff, List.find?_eq_none]
          intro other hother hmatch
          exact missing m rfl other hother (by simpa [Matches] using hmatch)
        simp [dataText?, forward, hfind]
    simp [record?, htext, Logged.noting]

/-- A request does not stand for two things. -/
theorem Grants.unique {metadata : Option Metadata} {r : VlrRequest} {v? u? : Option Vlr}
    (hv : r.Grants metadata v?) (hu : r.Grants metadata u?) : v? = u? :=
  Except.ok.inj ((record?_eq_ok_iff.mpr hv).symm.trans (record?_eq_ok_iff.mpr hu))

/-- Requests have records just if each of them is granted. -/
theorem exists_records_iff {metadata : Option Metadata} {requests : List VlrRequest} :
    (∃ vlrs, (records metadata requests).value = .ok vlrs) ↔
      ∀ r ∈ requests, ∃ v?, r.Grants metadata v? := by
  induction requests with
  | nil => simp [records, Logged.quiet]
  | cons r requests ih =>
    simp only [records, Logged.value_bind, List.forall_mem_cons, ← record?_eq_ok_iff] at ih ⊢
    cases hrecord : (r.record? metadata).value with
    | error e => simp
    | ok v? => simp [Logged.value_bind, exists_map_eq_ok_iff, ih]

/-- The record that a request stands for has the texts of the request. -/
theorem Grants.textsFit_iff {metadata : Option Metadata} {r : VlrRequest} {v : Vlr}
    (h : r.Grants metadata (some v)) :
    v.TextsFit ↔ AsciiField.Fits 16 r.userId ∧ AsciiField.Fits 32 r.description := by
  cases h <;> rfl

end VlrRequest

/-- **The records of a file can be found** if every request is for nothing or for data in base64,
and every name of an extra dimension fits its field. -/
theorem exists_fileRecords_iff {o : Options} {table : PointTable} {extra : ExtraBytes} :
    (∃ vlrs, (fileRecords o table extra).value = .ok vlrs) ↔
      (∀ r ∈ o.records, ∃ v?, r.Grants table.metadata v?) ∧
        ∀ f ∈ extra.fields, AsciiField.Fits 32 f.name := by
  rw [← VlrRequest.exists_records_iff, ← ExtraBytes.exists_record?_iff]
  simp only [fileRecords, Logged.value_bind]
  cases hrequested : (VlrRequest.records table.metadata o.records).value with
  | error e => simp
  | ok requested => simp [Logged.value_bind, exists_map_eq_ok_iff]

/-- **Of the records of a file only those that were asked for may have a text that does not fit.**
This holds among the regular ones and among the extended ones. -/
theorem textsFit_iff_of_fileRecords {o : Options} {table : PointTable} {extra : ExtraBytes}
    {vlrs : List Vlr} (h : (fileRecords o table extra).value = .ok vlrs) (large : Bool) :
    (∀ v ∈ vlrs, v.isLarge = large → v.TextsFit) ↔
      ∀ r ∈ o.records, ∀ v, r.Grants table.metadata (some v) → v.isLarge = large →
        AsciiField.Fits 16 r.userId ∧ AsciiField.Fits 32 r.description := by
  obtain ⟨granted, descriptor?, hgranted, hdescriptor, rfl⟩ := fileRecords_eq_ok h
  constructor
  · intro hfit r hr v hv hlarge
    obtain ⟨v?, hmem, hv?⟩ := hgranted.exists_right hr
    obtain rfl : v? = some v := hv?.unique hv
    have hfile : v ∈ granted.reduceOption := List.reduceOption_mem_iff.mpr hmem
    exact hv.textsFit_iff.mp (hfit v (by simp [hfile]) hlarge)
  · intro hfit v hv hlarge
    rcases List.mem_append.mp hv with hv | hv
    · rcases List.mem_append.mp hv with hrequested | hreference
      · obtain ⟨r, hr, hgrants⟩ := hgranted.exists_left (List.reduceOption_mem_iff.mp hrequested)
        exact hgrants.textsFit_iff.mpr (hfit r hr v hgrants hlarge)
      · exact textsFit_of_mem_referenceRecords hreference
    · rw [Option.mem_toList] at hv
      rw [hv] at hdescriptor
      exact ExtraBytes.textsFit_of_record? hdescriptor

end PointCloud
