import PointCloud.Proofs.Coordinates.Extremes
import PointCloud.Proofs.Coordinates.Finite
import PointCloud.Proofs.Writer.Offsets
import PointCloud.Proofs.Writer.Written

/-!
# The bounds of a file

Nothing looks at the coordinates of a point before they are summed up, and a view
may bring infinities and NaNs.  But only points with a record are summed up, and
a record is made of finite coordinates alone.  So the bounds in the summary are
those of finite points at any time, and the header has the bounds of the points
that have been counted.

These are the points with records in the file as long as the device has refused no
batch.  A device that fails in a chunk may keep the front part of it, and with it
whole records, but the points of the chunk are not counted: the file then has
records that its header does not bound, `records_unbounded`.

The offsets take the same way into a record, so a file with records has finite
offsets, whatever was configured.
-/

namespace PointCloud

open Device.Reliable (Fresh)

/-- A header gives the extremes of positions, or zero bounds if there are none. -/
structure HeaderBlock.Bounds (b : HeaderBlock) (positions : List (Triple Double)) : Prop where
  none : positions = [] → b.min = .same .zero ∧ b.max = .same .zero
  some : positions ≠ [] → Box.Spans ⟨b.min, b.max⟩ positions

/-- The header block of a summary gives the bounds that the summary has. -/
theorem Summary.Bounds.block {s : Summary} {positions : List (Triple Double)}
    (h : s.Bounds positions) {header : Header} {scalings : Triple Scaling} {c : Contents}
    {b : HeaderBlock} (hb : header.block scalings s c = .ok b) : b.Bounds positions := by
  obtain ⟨hmin, hmax, -⟩ := Header.summary_of_block hb
  obtain ⟨hnone, hsome⟩ := Header.bounds_of_bounds h
  constructor
  · intro hempty
    rw [hmin, hmax, hnone hempty]
    exact ⟨rfl, rfl⟩
  · intro hpoints
    rw [hmin, hmax]
    exact hsome hpoints

namespace PointEncoder

variable {e : PointEncoder} {q : Quantizer} {points : List Point} {records : List EncodedPoint}

/-- Points with records have finite positions. -/
theorem Makes.isFinite (h : e.Makes q points records) :
    ∀ t ∈ points.map (·.position e.fields), t.IsFinite := by
  intro t ht axis
  obtain ⟨p, hp, rfl⟩ := List.mem_map.mp ht
  obtain ⟨r, -, houtcome⟩ := List.Forall₂.exists_right h hp
  exact (isFinite_of_outcome houtcome axis).1

/-- Points with records are counted with their positions. -/
theorem Makes.positions (h : e.Makes q points records) :
    points.map (·.position e.fields) = records.map (·.counted.position) := by
  rw [← List.filterMap_eq_map]
  refine List.Forall₂.filterMap_eq_map h fun p r houtcome => ?_
  obtain ⟨number, _, _, hnumber, -, -, hcounted, -⟩ := counted_of_outcome houtcome
  rw [Point.counted?, hnumber, Option.map_some, Option.some.injEq] at hcounted
  rw [← hcounted]
  rfl

end PointEncoder

/-- The summary of points with records bounds them. -/
theorem Plan.bounds_summaryOf {p : Plan} {q : Quantizer} {points : List Point}
    {records : List EncodedPoint} (h : p.encoder.Makes q points records) :
    (p.summaryOf points).Bounds (points.map (·.position p.encoder.fields)) := by
  have hpositions : points.map (·.position p.encoder.fields) =
      (records.map (·.counted)).map (·.position) := by
    rw [h.positions, List.map_map]
    rfl
  have hfinite := h.isFinite
  rw [hpositions] at hfinite
  rw [summaryOf, h.counted, hpositions]
  exact Summary.bounds_addAll _ fun c hc => hfinite _ (List.mem_map_of_mem hc)

/-- A file with a record has finite offsets. -/
theorem FileCourse.Finishes.isFinite_offset {f : FileCourse} {stamp : Stamp} {granted : List Call}
    {batches : List PointView} {asked : List DeviceRequest} {s : Session} {parts : FileParts}
    (h : f.Finishes stamp granted batches asked s parts) (hsome : parts.points ≠ []) :
    (∀ axis, (parts.header.offset.get axis).isFinite = true) := by
  intro axis
  obtain ⟨r, hr⟩ := List.exists_mem_of_ne_nil _ hsome
  rw [h.points] at hr
  obtain ⟨v, -, p, -, houtcome⟩ := h.course.encoded r hr
  obtain ⟨length, hheader⟩ := h.header
  have hoffset : parts.header.offset.get axis = (s.quantizer.scalings.get axis).offset :=
    congrArg Scaling.offset (Header.scaling_of_block hheader axis)
  rw [hoffset]
  exact (PointEncoder.isFinite_of_outcome houtcome axis).2

namespace Writer

variable {σ : Type} [Device σ]

/-- **The bounds are those of the points that have been counted**, whatever views bring and
whatever offsets are configured.  At any time they are the extremes of finite coordinates, or the
mark for no points, and a finished file gives them in its header.  If the device has refused no
batch, they are the bounds of all points with records in the file; and a file without records has
zero bounds, and one with a record has finite offsets, on any device. -/
theorem bounds_exact (stamp : Stamp) (d : σ) (calls : List Call) {p : Plan}
    (h : ((create stamp d).after calls).phase.plan? = some p) :
    let first := create stamp d
    let points := first.written calls
    let positions := points.map (·.position p.encoder.fields)
    (∀ t ∈ positions, t.IsFinite) ∧
    (first.after calls).summary? = some (p.summaryOf points) ∧
    (p.summaryOf points).count = points.length ∧
    (p.summaryOf points).Bounds positions ∧
    ∀ s, (first.after calls).phase = .done s →
      ∃ (f : FileCourse) (parts : FileParts) (records : List EncodedPoint),
        f.HasRecords stamp d calls s parts records ∧ parts.header.Bounds positions ∧
        (first.Unrefused calls →
          parts.header.Bounds (parts.points.map (·.counted.position))) ∧
        (parts.points = [] →
          parts.header.min = .same .zero ∧ parts.header.max = .same .zero) ∧
        (parts.points ≠ [] → ∀ axis, (parts.header.offset.get axis).isFinite = true) := by
  intro first points positions
  obtain ⟨hsummary, q, made, hmakes⟩ := summary?_eq h
  have hbounds := Plan.bounds_summaryOf hmakes
  refine ⟨hmakes.isFinite, hsummary, Plan.count_summaryOf hmakes, hbounds, ?_⟩
  intro s hdone
  obtain ⟨f, parts, records, hrecords⟩ := exists_hasRecords hdone
  obtain ⟨c, hheader⟩ := hrecords.header
  obtain rfl : s.plan = p := Option.some.inj ((Phase.plan?_of_done hdone).symm.trans h)
  have hblock : parts.header.Bounds positions := hbounds.block hheader
  have hpositions : positions = records.map (·.counted.position) := hrecords.made.positions
  refine ⟨f, parts, records, hrecords, hblock, ?_, ?_, hrecords.finishes.isFinite_offset⟩
  · intro hunrefused
    rw [hpositions, hrecords.all hunrefused] at hblock
    exact hblock
  · intro hempty
    have hnone : records = [] := List.sublist_nil.mp (hempty ▸ hrecords.taken)
    exact hblock.none (by rw [hpositions, hnone, List.map_nil])

end Writer

/-- A point at the origin and one that is infinitely far away. -/
def PointView.astray : PointView where
  size := 2
  value id index := if id = 0 ∧ index = 1 then .infinity else .zero
  octets _ _ := List.replicate 8 0

/-- Calls for a file with a batch that fails by an infinite coordinate. -/
def Call.straying : List Call :=
  [.configure .usual, .prepare .coordinates, .ready .coordinates, .write .onAxis, .write .astray,
    .done]

namespace Writer

/-- The point at the origin is lost with the infinite one, and the bounds are those of the
others. -/
theorem bounds_exact_straying :
    let first := create .blank (Memory.unlimited [] 0)
    ∃ p s, (first.after Call.straying).phase.plan? = some p ∧
      (first.after Call.straying).phase = .done s ∧
      ∃ (f : FileCourse) (parts : FileParts),
        f.Delivers .blank (Memory.unlimited [] 0) Call.straying s parts ∧
        parts.points.length = 2 ∧
        parts.header.Bounds [⟨⟨0x4024000000000000⟩, .zero, .zero⟩,
          ⟨⟨0x4034000000000000⟩, .zero, .zero⟩] ∧
        ∀ axis, (parts.header.offset.get axis).isFinite = true := by
  intro first
  have hphase : (first.after Call.straying).phase.finished?.map
      (fun s => (first.written Call.straying).map (·.position s.plan.encoder.fields)) =
        some [⟨⟨0x4024000000000000⟩, .zero, .zero⟩, ⟨⟨0x4034000000000000⟩, .zero, .zero⟩] := by
    decide +kernel
  obtain ⟨s, hfinished, hpositions⟩ := Option.map_eq_some_iff.mp hphase
  have hdone := Phase.eq_of_finished? hfinished
  have hplan := Phase.plan?_of_done hdone
  obtain ⟨-, -, -, -, hfile⟩ := bounds_exact .blank (Memory.unlimited [] 0) Call.straying hplan
  obtain ⟨f, parts, records, hrecords, hbounds, -, -, hoffset⟩ := hfile s hdone
  have hcount : parts.points.length = 2 := by
    rw [← hrecords.reliable (Memory.fresh_unlimited [] 0), ← List.Forall₂.length_eq hrecords.made]
    simpa using congrArg List.length hpositions
  rw [hpositions] at hbounds
  refine ⟨s.plan, s, hplan, hdone, f, parts, hrecords.toDelivers, hcount, hbounds, hoffset ?_⟩
  rw [← List.length_pos_iff, hcount]
  decide

end Writer

/-- Calls for a file with a batch of two points. -/
def Call.torn : List Call :=
  [.configure .usual, .prepare .coordinates, .ready .coordinates, .write .onAxis, .done]

namespace Writer

/-- **A record without bounds.**  On memory with room for ten octets of the second of two records,
the batch is refused, and the file can be finished all the same.  The first record is in the file as
a whole, but its point is not counted, and the bounds in the header are zero. -/
theorem records_unbounded :
    let w := (create .blank (Memory.mk [] 0 (some 271))).after Call.torn
    ∃ (s : Session) (r : EncodedPoint) (b : HeaderBlock), w.phase = .done s ∧
      (s.plan.encoder.encodePoint s.quantizer (PointView.onAxis.point 0)).outcome = .ok (some r) ∧
      r.bytes.length = 34 ∧ (w.device.content.drop s.pointDataOffset).take 34 = r.bytes ∧
      w.device.content.take b.bytes.length = b.bytes ∧
      s.summary.count = 0 ∧ b.min = .same .zero ∧ ¬ b.Bounds [r.counted.position] := by
  intro w
  have hfacts : (w.phase.finished?.bind fun s =>
      (s.plan.encoder.encodePoint s.quantizer (PointView.onAxis.point 0)).outcome.toOption.join.bind
        fun r => (s.plan.header.block s.quantizer.scalings s.summary (s.contents none)).toOption.map
          fun b => (decide (r.bytes.length = 34 ∧
            (w.device.content.drop s.pointDataOffset).take 34 = r.bytes ∧
            w.device.content.take b.bytes.length = b.bytes), s.summary.count, b.min,
            r.counted.position.x)) =
      some (true, 0, .same .zero, ⟨0x4024000000000000⟩) := by
    decide +kernel
  obtain ⟨s, hfinished, hs⟩ := Option.bind_eq_some_iff.mp hfacts
  obtain ⟨r, houtcome, hs⟩ := Option.bind_eq_some_iff.mp hs
  obtain ⟨b, -, hs⟩ := Option.map_eq_some_iff.mp hs
  simp only [Prod.mk.injEq, decide_eq_true_eq] at hs
  obtain ⟨⟨hlength, hrecord, hheader⟩, hcount, hmin, hten⟩ := hs
  refine ⟨s, r, b, Phase.eq_of_finished? hfinished, ?_, hlength, hrecord, hheader, hcount, hmin, ?_⟩
  · generalize (s.plan.encoder.encodePoint _ _).outcome = outcome at houtcome ⊢
    cases outcome with
    | error e => cases houtcome
    | ok made => exact congrArg Except.ok houtcome
  · intro hbounds
    -- the least coordinate would be that of the point, which is ten and not zero
    obtain ⟨t, ht, hx⟩ := ((hbounds.some (List.cons_ne_nil _ _)).least .x).1
    have hzero : r.counted.position.x = .zero := by
      rw [← List.mem_singleton.mp ht]
      exact hx.trans (congrArg (·.get .x) hmin)
    rw [hten] at hzero
    exact absurd hzero (by decide)

end Writer

end PointCloud
