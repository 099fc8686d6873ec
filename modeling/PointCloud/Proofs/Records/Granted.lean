import Mathlib.Data.List.ReduceOption
import PointCloud.Proofs.Results
import PointCloud.Writer.Records

/-!
# The records that are asked for

`VlrRequest.Grants` says, without a word about how it is looked for, which record
a request stands for: one with the data of the request itself, or one with the
data of the first record of the source with the same identifiers, or none.
`fileRecords_eq_ok` says that the records of a file are those, in the order of
the requests, and behind them the records of the coordinate system and of the
extra dimensions.
-/

namespace PointCloud

namespace VlrRequest

/-- Whether a record of the source has the identifiers of a request. -/
def Matches (r : VlrRequest) (passed : PassedRecord) : Prop :=
  passed.recordId = r.recordId ∧ passed.userId = r.userId

/-- Whether octets are the data of a text in base64; blanks around it do not count. -/
def Carries (dataText : String) (data : Octets) : Prop :=
  Base64.decode (Text.trimmed dataText).toUTF8.data.toList = .ok data

/-- What a request stands for, given the metadata of the source. -/
inductive Grants (metadata : Option Metadata) (r : VlrRequest) : Option Vlr → Prop
  | given (data : Octets) (own : r.forward = false) (carries : Carries r.data data) :
    Grants metadata r (some ⟨r.userId, r.recordId, r.description, data⟩)
  | forwarded (m : Metadata) (before behind : List PassedRecord) (passed : PassedRecord)
    (data : Octets) (forward : r.forward = true) (known : metadata = some m)
    (records : m.records = before ++ passed :: behind) (matching : r.Matches passed)
    (first : ∀ other ∈ before, ¬ r.Matches other) (carries : Carries passed.data data) :
    Grants metadata r (some ⟨r.userId, r.recordId, r.description, data⟩)
  | absent (forward : r.forward = true)
    (missing : ∀ m ∈ metadata, ∀ other ∈ m.records, ¬ r.Matches other) : Grants metadata r none

/-- The record of a request carries the data of its text. -/
theorem withData_eq_ok {r : VlrRequest} {dataText : String} {v : Vlr}
    (h : r.withData dataText = .ok v) :
    ∃ data, Carries dataText data ∧ v = ⟨r.userId, r.recordId, r.description, data⟩ := by
  unfold withData at h
  cases hdecode : Base64.decode (Text.trimmed dataText).toUTF8.data.toList with
  | error fault =>
    rw [hdecode] at h
    cases h
  | ok data =>
    rw [hdecode] at h
    exact ⟨data, hdecode, (Except.ok.inj h).symm⟩

/-- What metadata is searched for is found in the first record that matches, if one does. -/
theorem findRecord?_cases (m : Metadata) (r : VlrRequest) :
    (m.findRecord? r.recordId r.userId = none ∧ ∀ other ∈ m.records, ¬ r.Matches other) ∨
      ∃ before passed behind, m.findRecord? r.recordId r.userId = some passed.data ∧
        m.records = before ++ passed :: behind ∧ r.Matches passed ∧
        ∀ other ∈ before, ¬ r.Matches other := by
  have hiff : ∀ other : PassedRecord,
      (other.recordId == r.recordId && other.userId == r.userId) = true ↔ r.Matches other := by
    intro other
    simp [Matches]
  cases hfind : m.records.find? fun other =>
      other.recordId == r.recordId && other.userId == r.userId with
  | none =>
    left
    refine ⟨by simp [Metadata.findRecord?, hfind], ?_⟩
    intro other hother hmatches
    exact List.find?_eq_none.mp hfind other hother ((hiff other).mpr hmatches)
  | some passed =>
    right
    obtain ⟨hpassed, before, behind, hrecords, hbefore⟩ := List.find?_eq_some_iff_append.mp hfind
    refine ⟨before, passed, behind, by simp [Metadata.findRecord?, hfind], hrecords,
      (hiff passed).mp hpassed, ?_⟩
    intro other hother hmatches
    have hnot := hbefore other hother
    rw [(hiff other).mpr hmatches] at hnot
    exact Bool.false_ne_true hnot

/-- What comes of a request is what grants it. -/
theorem grants_of_record? {metadata : Option Metadata} {r : VlrRequest} {v? : Option Vlr}
    (h : (r.record? metadata).value = .ok v?) : r.Grants metadata v? := by
  cases hforward : r.forward with
  | false =>
    have hvalue : (r.record? metadata).value = (r.withData r.data).map some := by
      simp [record?, dataText?, hforward, Logged.quiet]
    rw [hvalue] at h
    obtain ⟨v, hv, rfl⟩ := Except.map_eq_ok_iff.mp h
    obtain ⟨data, hdata, rfl⟩ := withData_eq_ok hv
    exact Grants.given data hforward hdata
  | true =>
    cases metadata with
    | none =>
      have hvalue : (r.record? none).value = .ok none := by
        simp [record?, dataText?, hforward, Logged.noting]
      obtain rfl : none = v? := Except.ok.inj (hvalue.symm.trans h)
      exact Grants.absent hforward (by simp)
    | some m =>
      rcases findRecord?_cases m r with ⟨hfind, hmissing⟩ |
        ⟨before, passed, behind, hfind, hrecords, hmatches, hfirst⟩
      · have hvalue : (r.record? (some m)).value = .ok none := by
          simp [record?, dataText?, hforward, hfind, Logged.noting]
        obtain rfl : none = v? := Except.ok.inj (hvalue.symm.trans h)
        refine Grants.absent hforward ?_
        intro m' hm'
        obtain rfl : m = m' := Option.some.inj hm'
        exact hmissing
      · have hvalue : (r.record? (some m)).value = (r.withData passed.data).map some := by
          simp [record?, dataText?, hforward, hfind, Logged.quiet]
        rw [hvalue] at h
        obtain ⟨v, hv, rfl⟩ := Except.map_eq_ok_iff.mp h
        obtain ⟨data, hdata, rfl⟩ := withData_eq_ok hv
        exact Grants.forwarded m before behind passed data hforward rfl hrecords hmatches hfirst
          hdata

/-- Requests come to the records that grant them, in order. -/
theorem records_eq_ok {metadata : Option Metadata} {requests : List VlrRequest} {vlrs : List Vlr}
    (h : (records metadata requests).value = .ok vlrs) :
    ∃ granted, List.Forall₂ (fun r v? => Grants metadata r v?) requests granted ∧
      vlrs = granted.reduceOption := by
  induction requests generalizing vlrs with
  | nil =>
    obtain rfl : [] = vlrs := Except.ok.inj h
    exact ⟨[], List.Forall₂.nil, rfl⟩
  | cons r requests ih =>
    simp only [records, Logged.value_bind] at h
    cases hrecord : (r.record? metadata).value with
    | error e => simp [hrecord] at h
    | ok v? =>
      simp only [hrecord, Logged.value_bind, Logged.value_pure] at h
      obtain ⟨rest, hrest, rfl⟩ := Except.map_eq_ok_iff.mp h
      obtain ⟨granted, hgranted, rfl⟩ := ih hrest
      refine ⟨v? :: granted, List.Forall₂.cons (grants_of_record? hrecord) hgranted, ?_⟩
      cases v? with
      | none => rfl
      | some v => rfl

end VlrRequest

/-- **The records of a file** are those that the requests stand for, those of the coordinate system,
and the one of the extra dimensions. -/
theorem fileRecords_eq_ok {o : Options} {table : PointTable} {extra : ExtraBytes}
    {vlrs : List Vlr} (h : (fileRecords o table extra).value = .ok vlrs) :
    ∃ granted descriptor?,
      List.Forall₂ (fun r v? => VlrRequest.Grants table.metadata r v?) o.records granted ∧
      extra.record? = .ok descriptor? ∧
      vlrs = granted.reduceOption ++ (referenceRecords o table).value ++ descriptor?.toList := by
  simp only [fileRecords, Logged.value_bind] at h
  cases hrequested : (VlrRequest.records table.metadata o.records).value with
  | error e => simp [hrequested] at h
  | ok requested =>
    simp only [hrequested, Logged.value_bind, Logged.value_pure] at h
    obtain ⟨granted, hgranted, rfl⟩ := VlrRequest.records_eq_ok hrequested
    obtain ⟨descriptor?, hdescriptor, rfl⟩ := Except.map_eq_ok_iff.mp h
    exact ⟨granted, descriptor?, hgranted, hdescriptor, rfl⟩

end PointCloud
