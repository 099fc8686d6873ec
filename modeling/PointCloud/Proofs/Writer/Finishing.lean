import PointCloud.Proofs.Writer.Runs

/-!
# Finishing a file

What is in a finished file is put there in three goes: the opening stores the
front, the batches store points behind it, and finishing stores the extended
records behind the points and a second header over the first.  The second header
is as long as the first, so the front keeps its place and the rest is not
touched.

`Writer.Holds` follows a writer through its batches.  `FileRun.Finishes` is what
a completed run comes to, `Completes.finishes`: the pieces of the file, where each
of them comes from, and the memory afterwards.  Nothing is assumed of the points
here, not even that their records are of equal length.
-/

namespace PointCloud

open Device.Reliable (Fresh Open memory)

/-- No header is empty. -/
theorem Version.headerSize_pos (v : Version) : 0 < v.headerSize := by
  unfold headerSize
  split
  · decide
  · split <;> decide

/-- What a header block says of the file. -/
theorem Header.block_eq_ok {h : Header} {scalings : Triple Scaling} {s : Summary} {c : Contents}
    {b : HeaderBlock} (hb : h.block scalings s c = .ok b) :
    h.pointCount s.count = .ok b.pointCount ∧
      Header.pointDataOffset c.pointDataOffset = .ok b.pointDataOffset ∧
      b.version = h.version ∧ b.recordCount = UInt32.ofNat c.recordCount ∧
      b.pointLength = UInt16.ofNat h.recordLength ∧ b.extendedRecords = c.extendedRecords ∧
      b.largeCounts = if h.version.has .largeFiles then some (Header.largeCounts s) else none := by
  have hmade := madeFrom_of_block hb
  exact ⟨hmade.pointCount, hmade.pointDataOffset, hmade.version, hmade.recordCount,
    hmade.pointLength, hmade.extendedRecords, hmade.largeCounts⟩

/-- What a header block says of the points that have been written. -/
theorem Header.summary_of_block {h : Header} {scalings : Triple Scaling} {s : Summary}
    {c : Contents} {b : HeaderBlock} (hb : h.block scalings s c = .ok b) :
    b.min = (Header.bounds s).min ∧ b.max = (Header.bounds s).max ∧
      b.pointsByReturn = Header.countsByReturn b.pointCount s.byReturn := by
  have hmade := madeFrom_of_block hb
  exact ⟨hmade.min, hmade.max, hmade.pointsByReturn⟩

namespace Session

/-- What the final header says of extended records that begin so far behind the file's start. -/
def extendedBehind (s : Session) (length : Nat) : Option ExtendedRecords :=
  if s.records.extended = [] then none
  else some ⟨UInt64.ofNat length, UInt32.ofNat s.records.extended.length⟩

/-- What the header is to say of the file. -/
def contents (s : Session) (extended : Option ExtendedRecords) : Contents :=
  ⟨s.records.regular.length, s.pointDataOffset, extended⟩

/-- The octets of a header are those of a block, as many as the version has it. -/
theorem headerBytes_eq_ok {s : Session} {extended : Option ExtendedRecords} {bytes : Octets}
    (h : s.headerBytes extended = .ok bytes) :
    ∃ block, s.plan.header.block s.quantizer.scalings s.summary (s.contents extended) = .ok block ∧
      bytes = block.bytes ∧ bytes.length = s.plan.header.version.headerSize := by
  obtain ⟨block, hblock, rfl⟩ := Except.map_eq_ok_iff.mp h
  obtain ⟨-, -, hversion, -⟩ := Header.block_eq_ok hblock
  exact ⟨block, hblock, rfl, hversion ▸ block.length_bytes⟩

/-- The octets of records depend on the plan alone. -/
theorem recordBytes_congr {s u : Session} (h : s.plan = u.plan) :
    s.recordBytes = u.recordBytes := by
  unfold recordBytes
  rw [h]

/-- The place of the points depends on the plan and the records. -/
theorem pointDataOffset_congr {s u : Session} (hplan : s.plan = u.plan)
    (hrecords : s.records = u.records) : s.pointDataOffset = u.pointDataOffset := by
  rw [pointDataOffset, pointDataOffset, hplan, hrecords]

/-- Records in a file are as long as they say. -/
theorem length_of_recordBytes {s : Session} {extended : Bool} {v : Vlr} {bytes : Octets}
    (h : s.recordBytes extended v = .ok bytes) : bytes.length = v.size extended :=
  Vlr.length_of_bytes h

/-- Regular records take the sum of their sizes. -/
theorem length_regular {s : Session} {vlrs : List Vlr} {pieces : List Octets}
    (h : List.Forall₂ (fun v piece => s.recordBytes false v = .ok piece) vlrs pieces) :
    pieces.flatten.length = (vlrs.map (·.size false)).foldr (· + ·) 0 := by
  induction h with
  | nil => rfl
  | cons hv _ ih =>
    simp only [List.flatten_cons, List.length_append, List.map_cons, List.foldr_cons, ih,
      length_of_recordBytes hv]

/-- The front of a file that is opened, piece by piece. -/
theorem front_eq_ok {s : Session} (h : DeviceTask.verdict s.front = .ok ()) :
    ∃ header regular,
      List.Forall₂ (fun v piece => s.recordBytes false v = .ok piece) s.records.regular regular ∧
      DeviceTask.leading s.front = header ++ (regular.flatten ++ s.plan.pointDataMark) ∧
      header.length = s.plan.header.version.headerSize ∧
      (DeviceTask.leading s.front).length = s.pointDataOffset := by
  have hfront : s.front =
      [s.headerBytes none] ++ (s.records.regular.map (s.recordBytes false) ++
        [.ok s.plan.pointDataMark]) := by
    simp [front]
  rw [hfront, DeviceTask.verdict_append, DeviceTask.verdict_append] at h
  obtain ⟨hheader, hregular, -⟩ := h
  cases hbytes : s.headerBytes none with
  | error e => simp [DeviceTask.verdict, hbytes] at hheader
  | ok header =>
    obtain ⟨block, -, -, hlength⟩ := headerBytes_eq_ok hbytes
    obtain ⟨regular, hforall, hleading⟩ := DeviceTask.exists_of_verdict_map hregular
    have hpieces : DeviceTask.leading s.front =
        header ++ (regular.flatten ++ s.plan.pointDataMark) := by
      rw [hfront, DeviceTask.leading_append hheader, DeviceTask.leading_append hregular, hleading,
        hbytes]
      simp [DeviceTask.leading]
    refine ⟨header, regular, hforall, hpieces, hlength, ?_⟩
    rw [hpieces, List.length_append, List.length_append, hlength, length_regular hforall,
      pointDataOffset, Plan.pointDataOffset, VlrList.regularSize, Nat.add_assoc]

end Session

namespace Writer

/-- On memory, the extended records are put where it stands, up to the first that cannot be written.
-/
theorem storeExtended_memory (s : Session) {m : Memory} (hm : m.capacity = none) :
    (storeExtended s).perform m =
      match DeviceTask.verdict s.back with
      | .ok _ => (.ok (s.extendedBehind (m.place - s.start)), m.put (DeviceTask.leading s.back))
      | .error e => (.error e, m.put (DeviceTask.leading s.back)) := by
  unfold storeExtended Session.extendedBehind
  by_cases hnone : s.records.extended = []
  · simp [hnone, Session.back, DeviceTask.verdict, DeviceTask.leading]
  · have hposition : (DeviceTask.operation Device.position).perform m = (.ok m.place, m) := rfl
    simp only [hnone, if_false, DeviceTask.perform_bind, hposition]
    have hstore := DeviceTask.perform_storeAll s.back hm
    cases hverdict : DeviceTask.verdict s.back with
    | error e => simp only [hstore, hverdict]
    | ok _ => simp only [hstore, hverdict, DeviceTask.perform_pure]

/-- On memory, finishing stores the extended records where the memory stands and a header at the
start of the file, and moves to the points.  Without a header it ends behind the records. -/
theorem finish_memory (s : Session) {m : Memory} (hm : m.capacity = none) :
    (finish s).perform m =
      match DeviceTask.verdict s.back, s.headerBytes (s.extendedBehind (m.place - s.start)) with
      | .ok _, .ok header =>
        (.ok (), (((m.put (DeviceTask.leading s.back)).seek s.start).put header).seek
          (s.start + s.pointDataOffset))
      | .ok _, .error e => (.error e, m.put (DeviceTask.leading s.back))
      | .error e, _ => (.error e, m.put (DeviceTask.leading s.back)) := by
  unfold finish
  rw [DeviceTask.perform_bind, storeExtended_memory s hm]
  cases DeviceTask.verdict s.back with
  | error e => rfl
  | ok _ =>
    simp only [DeviceTask.perform_bind, DeviceTask.perform_result]
    cases s.headerBytes (s.extendedBehind (m.place - s.start)) with
    | error e => rfl
    | ok header =>
      let behind := (m.put (DeviceTask.leading s.back)).seek s.start
      have hcapacity : behind.capacity = none := by
        simpa [behind, Memory.seek] using hm
      have hstore : (DeviceTask.operation (Device.store header)).perform behind =
          (.ok (), behind.put header) := by
        have hsome : Device.store header behind = _ := Memory.store_of_capacity hcapacity header
        simp only [DeviceTask.perform, DeviceTask.operation, ExceptT.run, ExceptT.mk, StateT.run,
          hsome]
      have hseek : (DeviceTask.operation (Device.seek s.start)).perform
          (m.put (DeviceTask.leading s.back)) = (.ok (), behind) := rfl
      simp only [hseek, hstore]
      rfl

/-- Finishing in terms of what has been stored since the start of the file: the extended records
come behind it, and the header takes the place of its front. -/
theorem finish_stored {s : Session} {m : Memory} (hm : m.capacity = none)
    (hstart : s.start = m.place) {stored : Octets}
    (hstored : s.plan.header.version.headerSize ≤ stored.length) :
    let file := stored ++ DeviceTask.leading s.back
    (finish s).perform (m.put stored) =
      match DeviceTask.verdict s.back, s.headerBytes (s.extendedBehind stored.length) with
      | .ok _, .ok header =>
        (.ok (), ⟨Memory.overwrite m.content m.place (header ++ file.drop header.length),
          m.place + s.pointDataOffset, none⟩)
      | .ok _, .error e =>
        (.error e, ⟨Memory.overwrite m.content m.place file, m.place + file.length, none⟩)
      | .error e, _ =>
        (.error e, ⟨Memory.overwrite m.content m.place file, m.place + file.length, none⟩) := by
  intro file
  have hpos := s.plan.header.version.headerSize_pos
  have hlength : stored.length ≤ file.length := by
    rw [List.length_append]
    omega
  have hfile : file ≠ [] := by
    intro hnil
    rw [hnil, List.length_nil] at hlength
    omega
  have hplace : (m.put stored).place - s.start = stored.length := by
    rw [Memory.place_put, hstart, Nat.add_sub_cancel_left]
  have hput : (m.put stored).put (DeviceTask.leading s.back) = m.put file := Memory.put_put _ _ m
  rw [finish_memory s (by simpa using hm), hplace, hput]
  cases DeviceTask.verdict s.back with
  | error e => simp only [Memory.put_eq hfile hm]
  | ok _ =>
    cases hheader : s.headerBytes (s.extendedBehind stored.length) with
    | error e => simp only [Memory.put_eq hfile hm]
    | ok header =>
      obtain ⟨block, -, -, hsize⟩ := Session.headerBytes_eq_ok hheader
      have hne : header ≠ [] := by
        intro hnil
        rw [hnil, List.length_nil] at hsize
        omega
      have hle : header.length ≤ file.length := by omega
      simp only [hstart, Memory.put_front s.pointDataOffset hle hne hm]

/-- Finishing that succeeds has made the extended records and the header. -/
theorem finish_eq_ok {s : Session} {m : Memory} (hm : m.capacity = none)
    (hstart : s.start = m.place) {stored : Octets}
    (hstored : s.plan.header.version.headerSize ≤ stored.length)
    (h : ((finish s).perform (m.put stored)).1 = .ok ()) :
    ∃ block extended,
      s.plan.header.block s.quantizer.scalings s.summary
        (s.contents (s.extendedBehind stored.length)) = .ok block ∧
      block.bytes.length = s.plan.header.version.headerSize ∧
      List.Forall₂ (fun v piece => s.recordBytes true v = .ok piece) s.records.extended extended ∧
      ((finish s).perform (m.put stored)).2 =
        ⟨Memory.overwrite m.content m.place
          (block.bytes ++ (stored ++ extended.flatten).drop block.bytes.length),
          m.place + s.pointDataOffset, none⟩ := by
  have hfinish := finish_stored hm hstart hstored
  cases hverdict : DeviceTask.verdict s.back with
  | error e => simp [hfinish, hverdict] at h
  | ok _ =>
    cases hheader : s.headerBytes (s.extendedBehind stored.length) with
    | error e => simp [hfinish, hverdict, hheader] at h
    | ok header =>
      obtain ⟨block, hblock, rfl, hlength⟩ := Session.headerBytes_eq_ok hheader
      obtain ⟨extended, hextended, hback⟩ := DeviceTask.exists_of_verdict_map hverdict
      refine ⟨block, extended, hblock, hlength, hextended, ?_⟩
      rw [hfinish, hverdict, hheader, ← hback]
      rfl

/-- A writer to memory that has written points since the memory was as it is here. -/
structure Holds (w : Writer Memory) (s₀ s : Session) (before : Memory)
    (points : List EncodedPoint) : Prop where
  isOpen : w.phase.open? = some s
  plan : s.plan = s₀.plan
  start : s.start = s₀.start
  records : s.records = s₀.records
  summary : s.summary = s₀.summary.addAll (points.map (·.counted))
  device : w.device = before.put (Session.recordsOf points)

variable {w : Writer Memory} {s₀ s : Session} {before : Memory} {points : List EncodedPoint}

/-- A batch adds the points that it stores. -/
theorem Holds.write (h : w.Holds s₀ s before points) (hbefore : before.capacity = none)
    (v : PointView) :
    (w.write v).writer.Holds s₀ (s.write v w.device).session before
      (points ++ (s.decided v).storedOf v) := by
  have hm : w.device.capacity = none := by
    rw [h.device, Memory.capacity_put, hbefore]
  obtain ⟨-, hsession, hdevice⟩ := s.write_memory v hm
  obtain ⟨hplan, hstart, hrecords, -, hsummary⟩ := s.decided_fixed v
  have hwrite := write_of_open h.isOpen v
  constructor
  · rw [hwrite]
    rfl
  · rw [hsession]
    exact hplan.trans h.plan
  · rw [hsession]
    exact hstart.trans h.start
  · rw [hsession]
    exact hrecords.trans h.records
  · rw [hsession, List.map_append, Summary.addAll_append, ← h.summary, ← hsummary]
    rfl
  · have hstored : (w.write v).writer.device =
        w.device.put (Session.recordsOf ((s.decided v).storedOf v)) := by
      rw [hwrite]
      exact hdevice
    rw [hstored, h.device, Memory.put_put, Session.recordsOf, Session.recordsOf,
      Session.recordsOf, List.flatMap_append]

/-- Batches add points that have come of theirs. -/
theorem Holds.writes (h : w.Holds s₀ s before points) (hbefore : before.capacity = none)
    (views : List PointView) :
    ∃ u more, (w.after (views.map .write)).Holds s₀ u before (points ++ more) ∧
      ∀ r ∈ more, ∃ q, ∃ p ∈ views.flatMap (·.points),
        (s₀.plan.encoder.encodePoint q p).outcome = .ok (some r) := by
  induction views generalizing w s points with
  | nil =>
    refine ⟨s, [], ?_, by simp⟩
    rw [List.append_nil]
    exact h
  | cons v views ih =>
    obtain ⟨u, more, hholds, hmore⟩ := ih (h.write hbefore v)
    refine ⟨u, (s.decided v).storedOf v ++ more, ?_, ?_⟩
    · rw [← List.append_assoc]
      exact hholds
    · intro r hr
      rcases List.mem_append.mp hr with hr | hr
      · obtain ⟨p, hp, houtcome⟩ := Session.exists_of_mem_storedOf hr
        rw [s.plan_decided, h.plan] at houtcome
        exact ⟨_, p, List.mem_append_left _ hp, houtcome⟩
      · obtain ⟨q, p, hp, houtcome⟩ := hmore r hr
        exact ⟨q, p, List.mem_append_right _ hp, houtcome⟩

/-- A session that is finished has carried out its last task. -/
theorem finishSession_eq_ok {σ : Type} [Device σ] {w : Writer σ} {s : Session}
    (h : (w.finishSession s).result = .ok ()) :
    ((finish s).perform w.device).1 = .ok () ∧
      (w.finishSession s).writer =
        ⟨((finish s).perform w.device).2, .done s, w.stamp⟩ := by
  unfold finishSession at h ⊢
  rcases hfinish : (finish s).perform w.device with ⟨r, d⟩
  cases r with
  | error e => simp [hfinish] at h
  | ok _ => exact ⟨rfl, rfl⟩

end Writer

/-- The pieces of a finished file. -/
structure FileParts where
  header : HeaderBlock
  regular : List Octets
  mark : Octets
  points : List EncodedPoint
  extended : List Octets

namespace FileParts

/-- What stands in front of the points. -/
def front (f : FileParts) : Octets := f.header.bytes ++ (f.regular.flatten ++ f.mark)

/-- The records of the points. -/
def pointBytes (f : FileParts) : Octets := Session.recordsOf f.points

/-- The file. -/
def bytes (f : FileParts) : Octets := f.front ++ f.pointBytes ++ f.extended.flatten

end FileParts

namespace FileRun

variable {σ : Type} [Device σ] [Device.Reliable σ]

/-- What a run comes to that completes: its last session, the pieces of the file, and the memory of
the device. -/
structure Finishes (r : FileRun σ) (p : Plan) (vlrs : List Vlr) (s : Session) (f : FileParts) :
    Prop where
  opens : r.Opens p vlrs
  phase : r.finished.writer.phase = .done s
  plan : s.plan = p
  start : s.start = (memory r.device).place
  records : s.records = .ofList vlrs
  summary : s.summary = p.summary.addAll (f.points.map (·.counted))
  header : s.plan.header.block s.quantizer.scalings s.summary
    (s.contents (s.extendedBehind (s.pointDataOffset + f.pointBytes.length))) = .ok f.header
  regular : List.Forall₂ (fun v piece => s.recordBytes false v = .ok piece) s.records.regular
    f.regular
  mark : f.mark = s.plan.pointDataMark
  encoded : ∀ e ∈ f.points, ∃ q, ∃ point ∈ r.views.flatMap (·.points),
    (p.encoder.encodePoint q point).outcome = .ok (some e)
  extended : List.Forall₂ (fun v piece => s.recordBytes true v = .ok piece) s.records.extended
    f.extended
  length_header : f.header.bytes.length = s.plan.header.version.headerSize
  length_front : f.front.length = s.pointDataOffset
  memory : memory r.finished.writer.device =
    ⟨Memory.overwrite (memory r.device).content (memory r.device).place f.bytes,
      (memory r.device).place + s.pointDataOffset, none⟩

/-- The batches of a run, as they look on the memory of the device. -/
theorem Opens.holds {r : FileRun σ} {p : Plan} {vlrs : List Vlr} (h : r.Opens p vlrs) :
    ∃ s points, r.written.InOrder ∧
      r.written.onMemory.Holds (r.session p vlrs) s
        ((memory r.device).put (DeviceTask.leading (r.session p vlrs).front)) points ∧
      ∀ e ∈ points, ∃ q, ∃ point ∈ r.views.flatMap (·.points),
        (p.encoder.encodePoint q point).outcome = .ok (some e) := by
  have hcapacity : ((memory r.device).put
      (DeviceTask.leading (r.session p vlrs).front)).capacity = none := by
    rw [Memory.capacity_put, h.capacity]
  have hholds : r.opened.onMemory.Holds (r.session p vlrs) (r.session p vlrs)
      ((memory r.device).put (DeviceTask.leading (r.session p vlrs).front)) [] := by
    rw [h.onMemory]
    exact ⟨rfl, rfl, rfl, rfl, rfl, rfl⟩
  obtain ⟨s, points, hwritten, hencoded⟩ := hholds.writes hcapacity r.views
  obtain ⟨hafter, horder, -⟩ := Writer.after_onMemory h.inOrder (r.views.map .write)
  rw [← hafter, List.nil_append] at hwritten
  exact ⟨s, points, horder, hwritten, hencoded⟩

/-- There is a header in front of all else that is stored. -/
theorem Opens.headerSize_le {r : FileRun σ} {p : Plan} {vlrs : List Vlr} (h : r.Opens p vlrs)
    (more : Octets) :
    p.header.version.headerSize ≤
      (DeviceTask.leading (r.session p vlrs).front ++ more).length := by
  obtain ⟨header, regular, -, hfront, hlength, -⟩ := Session.front_eq_ok h.front
  have hsize : header.length = p.header.version.headerSize := hlength
  rw [hfront, List.length_append, List.length_append, hsize]
  omega

/-- **A run that completes has finished a file.** -/
theorem Completes.finishes {r : FileRun σ} (h : r.Completes) :
    ∃ p vlrs s f, r.Finishes p vlrs s f := by
  obtain ⟨p, vlrs, hopens⟩ := opens h.opening
  obtain ⟨s, points, horder, hwritten, hencoded⟩ := hopens.holds
  obtain ⟨first, regular, hregular, hfront, hfirst, hoffset⟩ := Session.front_eq_ok hopens.front
  have hplan : s.plan = (r.session p vlrs).plan := hwritten.plan
  have hrecords : s.records = (r.session p vlrs).records := hwritten.records
  rw [← Session.pointDataOffset_congr hplan hrecords] at hoffset
  -- what has been stored since the start of the file
  let stored := DeviceTask.leading (r.session p vlrs).front ++ Session.recordsOf points
  have hstored : stored.length = s.pointDataOffset + (Session.recordsOf points).length := by
    rw [List.length_append, hoffset]
  have hsize : s.plan.header.version.headerSize ≤ stored.length := by
    rw [hplan]
    exact hopens.headerSize_le _
  have hdevice : r.written.onMemory.device = (memory r.device).put stored := by
    rw [hwritten.device, Memory.put_put]
  -- finishing succeeds, so there are extended records and a second header
  obtain ⟨hresult, hwriter, -⟩ := Writer.done_onMemory horder
  rw [Writer.done_of_open hwritten.isOpen] at hresult hwriter
  obtain ⟨hok, hfinished⟩ := Writer.finishSession_eq_ok (hresult.symm.trans h.finished)
  rw [hdevice] at hok hfinished
  obtain ⟨block, extended, hblock, hlength, hextended, hmemory⟩ :=
    Writer.finish_eq_ok hopens.capacity hwritten.start hsize hok
  rw [hmemory] at hfinished
  let f : FileParts := ⟨block, regular, s.plan.pointDataMark, points, extended⟩
  -- the second header takes the place of the first, which was as long
  have hfirst' : block.bytes.length = first.length := by
    rw [hlength, hfirst, hplan]
  have hmark : (r.session p vlrs).plan.pointDataMark = f.mark := by
    rw [← hplan]
  have hbytes : block.bytes ++ (stored ++ extended.flatten).drop block.bytes.length = f.bytes := by
    simp only [stored, FileParts.bytes, FileParts.front, FileParts.pointBytes, hfront, hmark,
      List.append_assoc, hfirst', List.drop_left, f]
  have hwriter' : r.finished.writer.onMemory = _ := hwriter.trans hfinished
  rw [hbytes] at hwriter'
  refine ⟨p, vlrs, s, f, {
    opens := hopens
    phase := congrArg Writer.phase hwriter'
    plan := hplan
    start := hwritten.start
    records := hrecords
    summary := hwritten.summary
    header := ?_
    regular := ?_
    mark := rfl
    encoded := hencoded
    extended := hextended
    length_header := hlength
    length_front := ?_
    memory := congrArg Writer.device hwriter' }⟩
  · rw [hstored] at hblock
    exact hblock
  · rw [hrecords, Session.recordBytes_congr hplan]
    exact hregular
  · rw [← hoffset, hfront, hmark, FileParts.front, List.length_append, List.length_append,
      List.length_append, List.length_append, show f.header.bytes.length = _ from hfirst']

end FileRun

end PointCloud
