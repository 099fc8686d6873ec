import PointCloud.Proofs.Writer.Finishing

/-!
# The layout of a finished file

The lengths in a header are worked out from the version, the records and the
record format; the octets are made elsewhere, piece by piece.  `LaidOut` says
that the two agree, and `Completes.file_layout` that they do so in every file that is
finished, for every version, any records and any batches.

A file is written over what is there, and the device is not cut off behind it.
So a reader that takes everything from the beginning of the file on may find
something left behind its end, `file_layout_of_longer_content`.
-/

namespace PointCloud

open Device.Reliable (Fresh Open memory)

namespace VlrList

/-- Every regular record takes octets, so there are no more of them than these. -/
theorem length_le_regularSize (l : VlrList) : l.regular.length ≤ l.regularSize := by
  rcases l with ⟨regular, extended⟩
  unfold regularSize
  induction regular with
  | nil => exact Nat.le_refl 0
  | cons v vs ih =>
    simp only [List.length_cons, List.map_cons, List.foldr_cons, Vlr.size, Vlr.overhead,
      Bool.false_eq_true, if_false] at ih ⊢
    omega

end VlrList

namespace Header

/-- The place of the points is in the header as it is. -/
theorem pointDataOffset_eq_ok {offset : Nat} {field : UInt32}
    (h : pointDataOffset offset = .ok field) : offset < UInt32.size ∧ field.toNat = offset := by
  unfold pointDataOffset at h
  by_cases hlt : offset < UInt32.size
  · simp only [hlt, if_true, Except.ok.injEq] at h
    exact ⟨hlt, by rw [← h, UInt32.toNat_ofNat_of_lt' hlt]⟩
  · simp [hlt] at h

/-- The count of points is in the header as it is, if it has 32 bits. -/
theorem pointCount_eq_ok {h : Header} {count : Nat} {field : UInt32}
    (hfield : h.pointCount count = .ok field) (hlt : count < UInt32.size) :
    field.toNat = count := by
  unfold pointCount at hfield
  simp only [hlt, if_true, Except.ok.injEq] at hfield
  rw [← hfield, UInt32.toNat_ofNat_of_lt' hlt]

end Header

namespace Session

/-- Records of one length take a multiple of it. -/
theorem length_recordsOf {points : List EncodedPoint} {n : Nat}
    (h : ∀ e ∈ points, e.bytes.length = n) : (recordsOf points).length = points.length * n := by
  induction points with
  | nil => simp [recordsOf]
  | cons e points ih =>
    obtain ⟨he, hrest⟩ := List.forall_mem_cons.mp h
    have htail := ih hrest
    simp only [recordsOf, List.flatMap_cons, List.length_append, List.length_cons] at htail ⊢
    rw [he, htail, Nat.succ_mul, Nat.add_comm]

end Session

/-- The pieces of a file are as long as the header of the file says, and as many. -/
structure FileParts.LaidOut (f : FileParts) (s : Session) : Prop where
  version : f.header.version = s.plan.header.version
  length_header : f.header.bytes.length = s.plan.header.version.headerSize
  regular : List.Forall₂ (fun v piece =>
    s.recordBytes false v = .ok piece ∧ piece.length = 54 + v.data.length)
    s.records.regular f.regular
  mark : f.mark = if s.plan.header.version = ⟨1, 0⟩ then [0xDD, 0xCC] else []
  length_points : f.points.length = s.summary.count
  length_point : ∀ e ∈ f.points, e.bytes.length = f.header.pointLength.toNat
  extended : List.Forall₂ (fun v piece =>
    s.recordBytes true v = .ok piece ∧ piece.length = 60 + v.data.length)
    s.records.extended f.extended
  pointDataOffset : f.header.pointDataOffset.toNat = f.front.length
  pointCount : f.header.pointCount.toNat = s.summary.count
  largeCount : s.plan.header.version = ⟨1, 4⟩ →
    ∃ counts, f.header.largeCounts = some counts ∧ counts.points.toNat = s.summary.count
  recordCount : f.header.recordCount.toNat = s.records.regular.length
  extendedStart : (f.header.extendedRecords.getD .none).start.toNat =
    if s.records.extended = [] then 0
    else f.header.pointDataOffset.toNat + s.summary.count * f.header.pointLength.toNat
  extendedCount : (f.header.extendedRecords.getD .none).count.toNat =
    s.records.extended.length % UInt32.size

namespace FileRun

variable {σ : Type} [Device σ] [Device.Reliable σ] {r : FileRun σ} {p : Plan} {vlrs : List Vlr}
  {s : Session} {f : FileParts}

/-- The plan of a finished file is settled for its options and its table. -/
theorem Finishes.settledFor (h : r.Finishes p vlrs s f) : p.SettledFor r.options r.table :=
  Writer.planFor_eq_ok h.opens.plan

/-- Every record has been counted. -/
theorem Finishes.length_points (h : r.Finishes p vlrs s f) :
    f.points.length = s.summary.count := by
  have hzero : p.summary.count = 0 := rfl
  rw [h.summary, Summary.count_addAll, hzero, List.length_map, Nat.zero_add]

/-- The header has the length of the records. -/
theorem Finishes.pointLength (h : r.Finishes p vlrs s f) :
    f.header.pointLength.toNat = p.encoder.recordLength := by
  obtain ⟨-, -, -, -, hlength, -⟩ := Header.block_eq_ok h.header
  have hle : p.encoder.recordLength < UInt16.size :=
    Nat.lt_succ_of_le h.settledFor.recordLength_le
  rw [hlength, h.plan, h.settledFor.recordLength, UInt16.toNat_ofNat_of_lt' hle]

/-- Every record has this length. -/
theorem Finishes.length_point (h : r.Finishes p vlrs s f)
    (hfit : ∀ v ∈ r.views, v.FitsLayout r.table.layout) :
    ∀ e ∈ f.points, e.bytes.length = f.header.pointLength.toNat := by
  intro e he
  obtain ⟨q, point, hpoint, houtcome⟩ := h.encoded e he
  obtain ⟨v, hv, hmem⟩ := List.mem_flatMap.mp hpoint
  have hfits := (hfit v hv).fits h.settledFor.extra point hmem
  rw [h.pointLength]
  exact PointEncoder.length_of_outcome h.settledFor.format_isSupported hfits houtcome

/-- The header has the place of the points. -/
theorem Finishes.pointDataOffset (h : r.Finishes p vlrs s f) :
    s.pointDataOffset < UInt32.size ∧ f.header.pointDataOffset.toNat = s.pointDataOffset := by
  obtain ⟨-, hoffset, -⟩ := Header.block_eq_ok h.header
  exact Header.pointDataOffset_eq_ok hoffset

/-- The header has the number of the regular records. -/
theorem Finishes.recordCount (h : r.Finishes p vlrs s f) :
    f.header.recordCount.toNat = s.records.regular.length := by
  obtain ⟨-, -, -, hcount, -⟩ := Header.block_eq_ok h.header
  have hsize := s.records.length_le_regularSize
  have hlt := h.pointDataOffset.1
  have hle : s.records.regularSize ≤ s.pointDataOffset := by
    rw [Session.pointDataOffset, Plan.pointDataOffset]
    omega
  have hfits : s.records.regular.length < UInt32.size := by omega
  rw [hcount]
  exact UInt32.toNat_ofNat_of_lt' hfits

/-- The extended records begin behind the last point. -/
theorem Finishes.extendedRecords (h : r.Finishes p vlrs s f)
    (hlength : ∀ e ∈ f.points, e.bytes.length = f.header.pointLength.toNat)
    (hcount : s.summary.count < UInt32.size) :
    (f.header.extendedRecords.getD .none).start.toNat =
        (if s.records.extended = [] then 0
        else f.header.pointDataOffset.toNat + s.summary.count * f.header.pointLength.toNat) ∧
      (f.header.extendedRecords.getD .none).count.toNat =
        s.records.extended.length % UInt32.size := by
  obtain ⟨-, -, -, -, -, hextended, -⟩ := Header.block_eq_ok h.header
  rw [hextended, Session.contents, Session.extendedBehind]
  by_cases hnone : s.records.extended = []
  · simp [hnone, ExtendedRecords.none]
  · have hstart : s.pointDataOffset + f.pointBytes.length =
        f.header.pointDataOffset.toNat + s.summary.count * f.header.pointLength.toNat := by
      rw [FileParts.pointBytes, Session.length_recordsOf hlength, h.length_points,
        h.pointDataOffset.2]
    have hpoints : s.summary.count * f.header.pointLength.toNat ≤ 2 ^ 32 * 2 ^ 16 :=
      Nat.mul_le_mul (Nat.le_of_lt hcount) (Nat.le_of_lt f.header.pointLength.toNat_lt)
    have hoffset := f.header.pointDataOffset.toNat_lt
    have hfits : f.header.pointDataOffset.toNat +
        s.summary.count * f.header.pointLength.toNat < UInt64.size := by
      show _ < 2 ^ 64
      omega
    simp only [hnone, if_false, Option.getD_some]
    constructor
    · rw [hstart]
      exact UInt64.toNat_ofNat_of_lt' hfits
    · exact UInt32.toNat_ofNat'

/-- A finished file is laid out as its header says. -/
theorem Finishes.laidOut (h : r.Finishes p vlrs s f)
    (hfit : ∀ v ∈ r.views, v.FitsLayout r.table.layout) (hcount : s.summary.count < UInt32.size) :
    f.LaidOut s := by
  obtain ⟨hpointCount, -, hversion, -, -, -, hlarge⟩ := Header.block_eq_ok h.header
  have hlength := h.length_point hfit
  obtain ⟨hstart, hextended⟩ := h.extendedRecords hlength hcount
  refine {
    version := hversion
    length_header := h.length_header
    regular := ?_
    mark := ?_
    length_points := h.length_points
    length_point := hlength
    extended := ?_
    pointDataOffset := h.pointDataOffset.2.trans h.length_front.symm
    pointCount := Header.pointCount_eq_ok hpointCount hcount
    largeCount := ?_
    recordCount := h.recordCount
    extendedStart := hstart
    extendedCount := hextended }
  · refine h.regular.imp ?_
    intro v piece hv
    exact ⟨hv, (Session.length_of_recordBytes hv).trans (Nat.add_comm _ _)⟩
  · rw [h.mark, Plan.pointDataMark, Version.marksPointData]
    simp only [beq_iff_eq]
  · refine h.extended.imp ?_
    intro v piece hv
    exact ⟨hv, (Session.length_of_recordBytes hv).trans (Nat.add_comm _ _)⟩
  · intro hv
    rw [hv] at hlarge
    refine ⟨_, hlarge, ?_⟩
    exact UInt64.toNat_ofNat_of_lt' (Nat.lt_trans hcount (by decide))

/-- **The layout of a finished file.**  From the place where the device stood there is the file,
laid out as its header says, and behind it what was there before; the device is left at the
points. -/
theorem Completes.file_layout (h : r.Completes)
    (hfit : ∀ v ∈ r.views, v.FitsLayout r.table.layout) :
    ∃ s, r.finished.writer.phase = .done s ∧ (s.summary.count < UInt32.size →
      ∃ f : FileParts, f.LaidOut s ∧
        (memory r.finished.writer.device).content.drop (memory r.device).place =
          f.header.bytes ++ f.regular.flatten ++ f.mark ++ f.points.flatMap (·.bytes) ++
            f.extended.flatten ++
            (memory r.device).content.drop ((memory r.device).place + f.bytes.length) ∧
        (memory r.finished.writer.device).place =
          (memory r.device).place + f.header.pointDataOffset.toNat) := by
  obtain ⟨p, vlrs, s, f, hfinishes⟩ := h.finishes
  refine ⟨s, hfinishes.phase, fun hcount => ⟨f, hfinishes.laidOut hfit hcount, ?_, ?_⟩⟩
  · rw [hfinishes.memory]
    have hdrop := Memory.drop_overwrite (memory r.device).content (memory r.device).place f.bytes
    rw [hdrop]
    simp only [FileParts.bytes, FileParts.front, FileParts.pointBytes, Session.recordsOf,
      List.append_assoc]
  · rw [hfinishes.memory, hfinishes.pointDataOffset.2]

/-- The layout of a file with one record and three points. -/
theorem file_layout_small :
    ∃ s, small.finished.writer.phase = .done s ∧ ∃ f : FileParts, f.LaidOut s ∧
      (memory small.finished.writer.device).content.drop (memory small.device).place =
        f.header.bytes ++ f.regular.flatten ++ f.mark ++ f.points.flatMap (·.bytes) ++
          f.extended.flatten ++
          (memory small.device).content.drop ((memory small.device).place + f.bytes.length) ∧
      (memory small.finished.writer.device).place =
        (memory small.device).place + f.header.pointDataOffset.toNat := by
  have hfit : ∀ v ∈ small.views, v.FitsLayout small.table.layout := by
    intro v hv
    rcases List.mem_pair.mp hv with rfl | rfl <;> exact PointView.fitsLayout_origins _
  obtain ⟨s, hphase, hlayout⟩ := Completes.file_layout completes_small hfit
  have hcount : small.finished.writer.summary?.map (·.count) = some 3 := by decide +kernel
  have hsummary : small.finished.writer.summary? = some s.summary := by
    rw [Writer.summary?, hphase]
    rfl
  rw [hsummary, Option.map_some, Option.some.injEq] at hcount
  have hlt : s.summary.count < UInt32.size := by
    rw [hcount]
    decide
  exact ⟨s, hphase, hlayout hlt⟩

/-- A file without points over memory that holds more octets than the file has. -/
def overlong : FileRun Memory where
  stamp := .blank
  device := .unlimited (List.replicate 300 255) 0
  options := .usual
  table := .coordinates
  source := .coordinates
  views := []

theorem completes_overlong : overlong.Completes :=
  ⟨⟨Memory.fresh_unlimited _ 0, by decide +kernel, by decide +kernel⟩, by decide +kernel⟩

/-- What was behind the end of the file before is not part of the file, but it is still there. -/
theorem file_layout_of_longer_content :
    overlong.Completes ∧ (∀ v ∈ overlong.views, v.FitsLayout overlong.table.layout) ∧
      ∃ s, overlong.finished.writer.phase = .done s ∧ s.summary.count < UInt32.size ∧
        ¬ ∃ f : FileParts, f.LaidOut s ∧
          (memory overlong.finished.writer.device).content.drop (memory overlong.device).place =
            f.header.bytes ++ f.regular.flatten ++ f.mark ++ f.points.flatMap (·.bytes) ++
              f.extended.flatten := by
  refine ⟨completes_overlong, fun v hv => absurd hv List.not_mem_nil, ?_⟩
  obtain ⟨p, vlrs, s, _, hfinishes⟩ := completes_overlong.finishes
  have hphase := hfinishes.phase
  have hfacts : overlong.finished.writer.phase.finished?.map
      (fun s => (s.records, s.summary.count, s.plan.header.version)) =
        some (.empty, 0, ⟨1, 2⟩) := by
    decide +kernel
  rw [hphase] at hfacts
  simp only [Phase.finished?, Option.map_some, Option.some.injEq, Prod.mk.injEq] at hfacts
  obtain ⟨hrecords, hcount, hversion⟩ := hfacts
  have hlt : s.summary.count < UInt32.size := by
    rw [hcount]
    decide
  refine ⟨s, hphase, hlt, ?_⟩
  rintro ⟨f, hlaid, hcontent⟩
  have hlength : ((memory overlong.finished.writer.device).content.drop
      (memory overlong.device).place).length = 300 := by
    decide +kernel
  have hregular := hlaid.regular
  have hextended := hlaid.extended
  rw [hrecords] at hregular hextended
  have hheader : f.header.bytes.length = 227 := by
    rw [hlaid.length_header, hversion]
    decide
  have hmark : f.mark = [] := by
    rw [hlaid.mark, hversion]
    decide
  have hpoints : f.points = [] := by
    rw [← List.length_eq_zero_iff, hlaid.length_points, hcount]
  rw [hcontent, List.forall₂_nil_left_iff.mp hregular, List.forall₂_nil_left_iff.mp hextended,
    hmark, hpoints] at hlength
  simp [hheader] at hlength

end FileRun

end PointCloud
