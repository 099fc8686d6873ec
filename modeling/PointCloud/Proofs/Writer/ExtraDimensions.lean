import PointCloud.Proofs.Points.Places
import PointCloud.Proofs.Records.Descriptors
import PointCloud.Proofs.Writer.FileRecords
import PointCloud.Proofs.Writer.Written

/-!
# Extra dimensions in a file

Three parts of a file speak of its extra dimensions, and each is made by a loop
of its own: the descriptors in one of its records, the length of a point record
in the header, and the octets behind the fields of every point record.
`DescribesExtra` says that they agree.  The types that the descriptors name add
up to what the header says, and in every point record they lead to the value of
each dimension at the point that the record is of.

`Writer.extra_described` says so of every file that a writer has finished, on
any device and after any calls.  Of the views it is only assumed that octets
which are copied are as wide as their type.
-/

namespace PointCloud

open Descriptor (Describes)

/-- A header says in which format its points are. -/
theorem Header.pointFormat_of_block {h : Header} {scalings : Triple Scaling} {s : Summary}
    {c : Contents} {b : HeaderBlock} (hb : h.block scalings s c = .ok b) :
    b.pointFormat = h.formatNumber := (madeFrom_of_block hb).pointFormat

/-- The extra dimensions take the octets of their types. -/
theorem ExtraBytes.length_eq_foldr (fields : List ExtraField) :
    ExtraBytes.length ⟨fields⟩ = (fields.map (·.scalar.width)).foldr (· + ·) 0 := rfl

namespace Writer

variable {σ : Type} [Device σ]

/-- No file has compressed points. -/
theorem not_compression_of_granted {w : Writer σ} {calls : List Call} {o : Options}
    (h : .configure o ∈ w.granted calls) : o.compression = false := by
  obtain ⟨before, behind, -, hresult⟩ := exists_of_mem_granted h
  obtain ⟨-, hcheck, -⟩ := configure_eq_ok hresult
  cases hcompression : o.compression with
  | false => rfl
  | true => simp [checkOptions, hcompression, Compression.isAvailable] at hcheck

end Writer

namespace FileCourse

variable {f : FileCourse} {stamp : Stamp} {granted : List Call} {batches : List PointView}
  {asked : List DeviceRequest} {s : Session} {parts : FileParts}

/-- The last record of a file is the last of its kind. -/
theorem Finishes.last_record (h : f.Finishes stamp granted batches asked s parts)
    {before : List Vlr} {v : Vlr} (hvlrs : f.vlrs = before ++ [v]) :
    ∃ piece, (if v.isLarge then parts.extended else parts.regular).getLast? = some piece ∧
      s.recordBytes v.isLarge v = .ok piece := by
  have hrecords : s.records = .ofList (before ++ [v]) := hvlrs ▸ h.course.fixed.2.2.1
  cases hlarge : v.isLarge with
  | true =>
    have hlast : s.records.extended = before.filter (·.isLarge) ++ [v] := by
      simp [hrecords, VlrList.ofList, hlarge]
    obtain ⟨front, piece, hpieces, hpiece⟩ := (hlast ▸ h.extended).exists_concat
    exact ⟨piece, by simp [hpieces], hpiece⟩
  | false =>
    have hlast : s.records.regular = before.filter (!·.isLarge) ++ [v] := by
      simp [hrecords, VlrList.ofList, hlarge]
    obtain ⟨front, piece, hpieces, hpiece⟩ := (hlast ▸ h.regular).exists_concat
    exact ⟨piece, by simp [hpieces], hpiece⟩

/-- The final header has the version of the plan. -/
theorem Finishes.version (h : f.Finishes stamp granted batches asked s parts) :
    parts.header.version = s.plan.header.version := by
  obtain ⟨length, hheader⟩ := h.header
  exact (Header.block_eq_ok hheader).2.2.1

/-- The descriptors of the extra dimensions are found in the last record. -/
theorem Finishes.descriptors (h : f.Finishes stamp granted batches asked s parts) :
    ∃ descriptors, List.Forall₂
      (fun field bytes => Describes bytes field.scalar field.name field.description)
      s.plan.encoder.extra.fields descriptors ∧
      (descriptors ≠ [] →
        let large := decide (65535 < 192 * descriptors.length)
        ∃ piece, (if large then parts.extended else parts.regular).getLast? = some piece ∧
          FoundRecord.read large piece = some
            (⟨FileRun.reservedWord parts.header.version, "LASF_Spec", 4, "Extra Bytes Record",
              descriptors.flatten⟩, [])) := by
  obtain ⟨granted', descriptor?, -, hdescriptor, hvlrs⟩ := fileRecords_eq_ok h.course.records
  obtain ⟨descriptors, hdescribed, rfl⟩ := ExtraBytes.record?_eq_ok hdescriptor
  rw [← h.course.fixed.1] at hdescribed hvlrs
  refine ⟨descriptors, hdescribed, ?_⟩
  intro hsome large
  have hfields : s.plan.encoder.extra.fields ≠ [] := by
    intro hnone
    rw [hnone, List.forall₂_nil_left_iff] at hdescribed
    exact hsome hdescribed
  rw [if_neg hfields] at hvlrs
  obtain ⟨piece, hlast, hpiece⟩ := h.last_record hvlrs
  have hcount := hdescribed.length_eq
  have hlength := ExtraBytes.length_recordOf hdescribed
  have hlarge : (ExtraBytes.recordOf descriptors).isLarge = large := by
    simp only [Vlr.isLarge, hlength, hcount, large, Vlr.maxRegularData]
  rw [hlarge] at hlast hpiece
  have hplaces : large = true →
      (ExtraBytes.recordOf descriptors).data.length < UInt64.size := by
    intro _
    have hfew := s.plan.encoder.extra.length_fields_le
    have hmost : s.plan.encoder.extra.length ≤ ExtraBytes.maxLength := by
      rw [h.course.fixed.1]
      exact (ExtraBytes.resolve_eq_ok_iff.mp (Writer.planFor_eq_ok h.course.plan).extra).2
    have hsize : UInt64.size = 18446744073709551616 := rfl
    unfold ExtraBytes.maxLength at hmost
    omega
  have hread := FoundRecord.read_record hpiece hplaces []
  rw [List.append_nil, FileRun.toNat_recordSignature, ← h.version] at hread
  have huser : Text.withoutNuls "LASF_Spec" = "LASF_Spec" := by decide
  have hdescription : Text.withoutNuls "Extra Bytes Record" = "Extra Bytes Record" := by decide
  refine ⟨piece, hlast, hread.trans ?_⟩
  simp only [Vlr.found, ExtraBytes.recordOf, huser, hdescription]
  rfl

end FileCourse

/-- The field is what a request comes to in a layout: the dimension that its name finds, with the
type that is asked for, or the type of the table. -/
def ExtraField.IsOf (l : Layout) (request : ExtraDimension) (field : ExtraField) : Prop :=
  ∃ id d, l.find? request.name = some id ∧ l.get? id = some d ∧
    field = ⟨request.name, id, d.scalar, request.scalar.getD d.scalar, d.description⟩

/-- What a file says of the extra dimensions of its points, from the requests on to the octets of
every record. -/
structure FileCourse.DescribesExtra (f : FileCourse) (batches : List PointView) (s : Session)
    (parts : FileParts) (descriptors : List Octets) : Prop where
  resolved : List.Forall₂ (ExtraField.IsOf f.table.layout) f.options.extraDimensions
    s.plan.encoder.extra.fields
  described : List.Forall₂
    (fun field bytes => Describes bytes field.scalar field.name field.description)
    s.plan.encoder.extra.fields descriptors
  record : descriptors ≠ [] →
    let large := decide (65535 < 192 * descriptors.length)
    ∃ piece, (if large then parts.extended else parts.regular).getLast? = some piece ∧
      FoundRecord.read large piece = some
        (⟨FileRun.reservedWord parts.header.version, "LASF_Spec", 4, "Extra Bytes Record",
          descriptors.flatten⟩, [])
  format : RecordFormat.ofNumber? parts.header.pointFormat = some s.plan.header.format
  pointLength : parts.header.pointLength.toNat =
    s.plan.header.format.length +
      (s.plan.encoder.extra.fields.map (·.scalar.width)).foldr (· + ·) 0
  values : (∀ v ∈ batches, v.FitsLayout f.table.layout) → ∀ r ∈ parts.points,
    r.bytes.length = parts.header.pointLength.toNat ∧
    ∃ v ∈ batches, ∃ i < v.size,
      (s.plan.encoder.encode s.quantizer v i).outcome = .ok (some r) ∧
      ∀ before field behind, s.plan.encoder.extra.fields = before ++ field :: behind →
        let place := s.plan.header.format.length +
          (before.map (·.scalar.width)).foldr (· + ·) 0
        let value := (r.bytes.drop place).take field.scalar.width
        if field.source = field.scalar then value = v.octets field.dimension i
        else field.scalar.encode? (v.value field.dimension i) = some value

/-- **The extra dimensions of a finished file** are what its descriptors, its header and its point
records agree on. -/
theorem Writer.extra_described {σ : Type} [Device σ] (stamp : Stamp) (d : σ) (calls : List Call)
    {s : Session} (h : ((create stamp d).after calls).phase = .done s) :
    ∃ (f : FileCourse) (parts : FileParts) (records : List EncodedPoint)
        (descriptors : List Octets),
      f.HasRecords stamp d calls s parts records ∧
        f.DescribesExtra ((create stamp d).batches calls) s parts descriptors := by
  obtain ⟨f, parts, records, hrecords⟩ := exists_hasRecords h
  have hfinishes := hrecords.finishes
  have hcourse := hfinishes.course
  obtain ⟨hplan, -⟩ := hcourse.fixed
  have hsettled := planFor_eq_ok hcourse.plan
  rw [← hplan] at hsettled
  obtain ⟨descriptors, hdescribed, hrecord⟩ := hfinishes.descriptors
  obtain ⟨length, hheader⟩ := hfinishes.header
  have hformat := Header.pointFormat_of_block hheader
  obtain ⟨-, -, -, -, hlength, -⟩ := Header.block_eq_ok hheader
  have hle : s.plan.header.recordLength < UInt16.size := by
    rw [hsettled.recordLength]
    exact Nat.lt_succ_of_le hsettled.recordLength_le
  have hpointLength : parts.header.pointLength.toNat = s.plan.encoder.recordLength := by
    rw [hlength, UInt16.toNat_ofNat_of_lt' hle, hsettled.recordLength]
  refine ⟨f, parts, records, descriptors, hrecords, {
    resolved := ?_
    described := hdescribed
    record := hrecord
    format := ?_
    pointLength := ?_
    values := ?_ }⟩
  · exact (ExtraBytes.resolve_eq_ok_iff.mp hsettled.extra).1.imp fun _ _ =>
      ExtraField.resolve_eq_ok_iff.mp
  · have hplain : s.plan.header.isCompressed = false := by
      rw [hplan, isCompressed_of_planFor hcourse.plan]
      exact not_compression_of_granted hcourse.configured
    rw [hformat, Header.formatNumber, hplain]
    exact RecordFormat.ofNumber?_number _
  · rw [hpointLength, PointEncoder.recordLength, hsettled.format]
    rfl
  · intro hfit r hr
    rw [hfinishes.points] at hr
    obtain ⟨v, hv, p, hp, houtcome⟩ := hcourse.encoded r hr
    have hfits := (hfit v hv).fits hsettled.extra p hp
    rw [← hplan] at houtcome
    obtain ⟨i, hi, rfl⟩ := List.mem_map.mp hp
    refine ⟨?_, v, hv, i, List.mem_range.mp hi, houtcome, ?_⟩
    · rw [hpointLength]
      exact PointEncoder.length_of_outcome hsettled.format_isSupported hfits houtcome
    · intro before field behind hfields place value
      have hslice :=
        PointEncoder.slice_of_outcome hsettled.format_isSupported hfits houtcome hfields
      rw [hsettled.format, ExtraBytes.length_eq_foldr, ExtraField.encode_eq_ok_iff] at hslice
      exact hslice

/-- A table with two dimensions besides the coordinates. -/
def PointTable.measured : PointTable :=
  ⟨Layout.xyz.registerAll [⟨"Amplitude", .unsigned16, "écho"⟩, ⟨"Deviation", .double, ""⟩], none,
    none⟩

/-- A point with the amplitude 513 and the deviation 41.9. -/
def PointView.measured : PointView where
  size := 1
  value id _ := if id = 4 then ⟨0x4044F33333333333⟩ else .zero
  octets id _ := if id = 3 then [1, 2] else List.replicate 8 0

/-- Its octets are as many as the table declares. -/
theorem PointView.fitsLayout_measured : measured.FitsLayout PointTable.measured.layout := by
  have hwidths : ∀ id : Fin 5, ∀ d ∈ PointTable.measured.layout.get? id,
      (measured.octets id 0).length = d.scalar.width := by
    decide
  intro id d hget i _
  have hid : id < 5 := (List.getElem?_eq_some_iff.mp hget).1
  exact hwidths ⟨id, hid⟩ d hget

/-- Calls for a file with both dimensions, the second in a smaller type. -/
def Call.measuring : List Call :=
  [.configure { Options.usual with
      extraDimensions := [⟨"Amplitude", none⟩, ⟨"Deviation", some .signed8⟩] },
    .prepare .measured, .ready .measured, .write .measured, .done]

namespace Writer

/-- The amplitude is copied behind the 34 octets of the format, and the deviation is cut to an
octet. -/
theorem extra_described_measuring :
    ∃ s, ((create .blank (Memory.unlimited [] 0)).after Call.measuring).phase = .done s ∧
      ∃ (f : FileCourse) (parts : FileParts) (descriptors : List Octets),
        f.Delivers .blank (Memory.unlimited [] 0) Call.measuring s parts ∧
        descriptors.length = 2 ∧
        (∃ piece, parts.regular.getLast? = some piece ∧ FoundRecord.read false piece =
          some (⟨0, "LASF_Spec", 4, "Extra Bytes Record", descriptors.flatten⟩, [])) ∧
        parts.header.pointLength.toNat = 37 ∧ parts.points.length = 1 ∧
        ∀ r ∈ parts.points,
          (r.bytes.drop 34).take 2 = [1, 2] ∧ (r.bytes.drop 36).take 1 = [41] := by
  let first := create .blank (Memory.unlimited [] 0)
  let amplitude : ExtraField := ⟨"Amplitude", 3, .unsigned16, .unsigned16, "écho"⟩
  let deviation : ExtraField := ⟨"Deviation", 4, .double, .signed8, ""⟩
  have hfacts : (first.after Call.measuring).phase.finished?.map
      (fun s => (s.plan.header.version, s.plan.header.format, s.plan.encoder.extra.fields)) =
        some (⟨1, 2⟩, ⟨3⟩, [amplitude, deviation]) := by
    decide +kernel
  obtain ⟨s, hfinished, hs⟩ := Option.map_eq_some_iff.mp hfacts
  simp only [Prod.mk.injEq] at hs
  obtain ⟨hversion, hformat, hfields⟩ := hs
  have hdone := Phase.eq_of_finished? hfinished
  obtain ⟨f, parts, records, descriptors, hrecords, hextra⟩ :=
    extra_described .blank (Memory.unlimited [] 0) Call.measuring hdone
  have htable : f.table = .measured := by
    obtain ⟨before, behind, hcalls, -⟩ := exists_of_mem_granted hrecords.finishes.course.prepared
    have hmem : Call.prepare f.table ∈ Call.measuring := by simp [hcalls]
    simpa [Call.measuring] using hmem
  have hbatches : ∀ v ∈ first.batches Call.measuring, v = .measured := by
    intro v hv
    simpa [Call.measuring] using write_mem_of_mem_batches hv
  have hcount : descriptors.length = 2 := by
    rw [← hextra.described.length_eq, hfields]
    rfl
  have hwritten : (first.written Call.measuring).length = 1 := by decide +kernel
  refine ⟨s, hdone, f, parts, descriptors, hrecords.toDelivers, hcount, ?_, ?_, ?_, ?_⟩
  · have hrecord := hextra.record (by simp [← List.length_pos_iff, hcount])
    rw [hrecords.finishes.version, hversion, hcount] at hrecord
    exact hrecord
  · rw [hextra.pointLength, hformat, hfields]
    rfl
  · rw [← hrecords.reliable (Memory.fresh_unlimited [] 0), ← hrecords.made.length_eq, hwritten]
  · have hfit : ∀ v ∈ first.batches Call.measuring, v.FitsLayout f.table.layout := by
      intro v hv
      rw [hbatches v hv, htable]
      exact PointView.fitsLayout_measured
    intro r hr
    obtain ⟨-, v, hv, i, hi, -, hvalues⟩ := hextra.values hfit r hr
    obtain rfl := hbatches v hv
    rw [hformat] at hvalues
    have hamplitude := hvalues [] amplitude [deviation] hfields
    have hdeviation := hvalues [amplitude] deviation [] hfields
    have hencode : Scalar.signed8.encode? ⟨0x4044F33333333333⟩ = some [41] := by decide +kernel
    refine ⟨hamplitude, ?_⟩
    exact Option.some.inj (hdeviation.symm.trans hencode)

end Writer

end PointCloud
