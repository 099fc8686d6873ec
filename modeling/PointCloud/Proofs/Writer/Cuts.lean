import PointCloud.Proofs.Writer.Finishing

/-!
# The cut into batches

How points are cut into batches has an effect in two places only.  The offsets
that are open are chosen by the first batch that has points, and a batch with a
failing point loses part of its points.  If every batch succeeds, nothing else
of the cut is left: `writes_of_sound` describes a run of batches by the list of
all their points, and by the session with its offsets decided.

`Recut.alike` compares two runs.  They may be on different devices and begin at
different places there; the file that they write is the same.
-/

namespace PointCloud

open Device.Reliable (Fresh Open memory)

namespace Session

/-- The session after views have decided, one after the other, what is open. -/
def decidedBy (s : Session) (views : List PointView) : Session := views.foldl decided s

/-- The records of points by themselves. -/
def recordsFor (s : Session) (points : List Point) : List EncodedPoint :=
  points.filterMap fun p => point? (s.plan.encoder.encodePoint s.quantizer p)

/-- Once the offsets are settled, no views decide anything. -/
theorem decidedBy_of_settled {s : Session} (h : s.settled = true) (views : List PointView) :
    s.decidedBy views = s := by
  induction views with
  | nil => rfl
  | cons v views ih => rw [decidedBy, List.foldl_cons, decided_of_settled h, ← decidedBy, ih]

/-- A view with points settles the offsets. -/
theorem settled_decided (s : Session) {v : PointView} (h : v.size ≠ 0) :
    (s.decided v).settled = true := by
  simp only [decided, h, if_false, settle]
  split
  · next hsettled => exact hsettled
  · rfl

/-- Deciding touches nothing but the quantizer. -/
theorem decidedBy_fixed (s : Session) (views : List PointView) :
    (s.decidedBy views).plan = s.plan ∧ (s.decidedBy views).start = s.start ∧
      (s.decidedBy views).records = s.records ∧ (s.decidedBy views).summary = s.summary := by
  induction views generalizing s with
  | nil => exact ⟨rfl, rfl, rfl, rfl⟩
  | cons v views ih =>
    obtain ⟨hplan, hstart, hrecords, hsummary⟩ := ih (s.decided v)
    obtain ⟨hplan', hstart', hrecords', -, hsummary'⟩ := s.decided_fixed v
    exact ⟨hplan.trans hplan', hstart.trans hstart', hrecords.trans hrecords',
      hsummary.trans hsummary'⟩

/-- What is open is decided alike whatever has been noted and counted. -/
theorem decided_counting (s : Session) (cs : List Returns.Complaint) (ps : List EncodedPoint)
    (v : PointView) :
    ((s.noting cs).counting ps).decided v = ((s.decided v).noting cs).counting ps := by
  by_cases hsize : v.size = 0
  · simp only [decided, hsize, if_true]
  · by_cases hsettled : s.settled = true
    · simp only [decided, hsize, settle, noting, counting, hsettled, if_true, if_false]
    · simp only [decided, hsize, settle, noting, counting, hsettled, if_false]
      rfl

/-- Views decide alike whatever has been noted and counted. -/
theorem decidedBy_counting (s : Session) (cs : List Returns.Complaint) (ps : List EncodedPoint)
    (views : List PointView) :
    ((s.noting cs).counting ps).decidedBy views =
      ((s.decidedBy views).noting cs).counting ps := by
  induction views generalizing s with
  | nil => rfl
  | cons v views ih =>
    rw [decidedBy, List.foldl_cons, decided_counting, ← decidedBy, ih]
    rfl

/-- A batch is encoded by the offsets that are decided in the end. -/
theorem encodings_decided (s : Session) (v : PointView) (views : List PointView) :
    (s.decided v).encodings v =
      v.points.map ((s.decidedBy (v :: views)).plan.encoder.encodePoint
        (s.decidedBy (v :: views)).quantizer) := by
  by_cases hsize : v.size = 0
  · simp [encodings, PointView.points, hsize]
  · have hsettled := decidedBy_of_settled (s.settled_decided hsize) views
    rw [encodings_eq, show s.decidedBy (v :: views) = s.decided v from hsettled]

end Session

namespace Writer

variable {w : Writer Memory} {s : Session}

/-- One batch of several succeeds just if its points are sound under the offsets that all of them
decide in the end, and then the records of all its points are stored and counted. -/
theorem write_of_sound (hopen : w.phase.open? = some s) (hm : w.device.capacity = none)
    (v : PointView) (views : List PointView) :
    let t := s.decidedBy (v :: views)
    let sound := ∀ p ∈ v.points,
      Session.isSound (t.plan.encoder.encodePoint t.quantizer p) = true
    ((w.write v).result = .ok () ↔ sound) ∧
      ∃ cs ps,
        (w.write v).writer.phase.open? = some (((s.decided v).noting cs).counting ps) ∧
        (w.write v).writer.device = w.device.put (Session.recordsOf ps) ∧
        (sound → ps = t.recordsFor v.points) := by
  intro t sound
  obtain ⟨hresult, hsession, hdevice⟩ := s.write_memory v hm
  have hwrite := write_of_open hopen v
  have hencodings : (s.decided v).encodings v =
      v.points.map (t.plan.encoder.encodePoint t.quantizer) := s.encodings_decided v views
  have hall : ((s.decided v).encodings v).all Session.isSound = true ↔ sound := by
    rw [hencodings, List.all_map, List.all_eq_true]
    rfl
  refine ⟨?_, Session.complaints ((s.decided v).encodings v), (s.decided v).storedOf v, ?_, ?_,
    fun hsound => ?_⟩
  · rw [← hall, Session.all_isSound_iff, hwrite,
      show (w.writeBatch s v).result = (s.write v w.device).result from rfl, hresult]
    unfold Session.batchResult
    cases ((s.decided v).encodings v).findSome? Session.failure? <;> simp
  · rw [hwrite, ← hsession]
    rfl
  · rw [hwrite]
    exact hdevice
  · rw [(s.decided v).storedOf_of_all v (hall.mpr hsound), hencodings, List.filterMap_map]
    rfl

/-- **A run of batches in terms of all their points.**  Every batch succeeds just if every point is
sound under the offsets that are decided in the end, and then the records of all points are stored
and counted. -/
theorem writes_of_sound (hopen : w.phase.open? = some s) (hm : w.device.capacity = none)
    (views : List PointView) :
    let t := s.decidedBy views
    let points := views.flatMap (·.points)
    let sound := ∀ p ∈ points,
      Session.isSound (t.plan.encoder.encodePoint t.quantizer p) = true
    ((∀ result ∈ w.results (views.map .write), result = .ok ()) ↔ sound) ∧
      (sound → ∃ cs,
        (w.after (views.map .write)).phase.open? =
          some ((t.noting cs).counting (t.recordsFor points)) ∧
        (w.after (views.map .write)).device =
          w.device.put (Session.recordsOf (t.recordsFor points))) := by
  induction views generalizing w s with
  | nil =>
    refine ⟨by simp, fun _ => ⟨[], ?_, by simp [Session.recordsFor, Session.recordsOf]⟩⟩
    exact hopen
  | cons v views ih =>
    intro t points sound
    obtain ⟨hfirst, cs, ps, hopen', hdevice, hstored⟩ := write_of_sound hopen hm v views
    have hm' : (w.write v).writer.device.capacity = none := by
      rw [hdevice, Memory.capacity_put, hm]
    -- what the other batches decide for the writer after the first
    have hdecided : (((s.decided v).noting cs).counting ps).decidedBy views =
        (t.noting cs).counting ps := Session.decidedBy_counting (s.decided v) cs ps views
    obtain ⟨hiff, hrun⟩ := ih hopen' hm'
    rw [hdecided] at hiff hrun
    have hsplit : sound ↔ (∀ p ∈ v.points,
        Session.isSound (t.plan.encoder.encodePoint t.quantizer p) = true) ∧
          ∀ p ∈ views.flatMap (·.points),
            Session.isSound (t.plan.encoder.encodePoint t.quantizer p) = true := by
      simp only [sound, points, List.flatMap_cons, List.forall_mem_append]
    constructor
    · rw [List.map_cons, results_cons, List.forall_mem_cons, hsplit]
      exact and_congr hfirst hiff
    · intro hsound
      obtain ⟨hhead, hrest⟩ := hsplit.mp hsound
      obtain ⟨cs', hopen'', hdevice'⟩ := hrun hrest
      have hrecords : t.recordsFor points = ps ++ t.recordsFor (views.flatMap (·.points)) := by
        rw [hstored hhead]
        exact List.filterMap_append
      refine ⟨cs ++ cs', ?_, ?_⟩
      · rw [hrecords, ← Session.noting_counting]
        exact hopen''
      · rw [hrecords, Session.recordsOf, List.flatMap_append, ← Session.recordsOf,
          ← Session.recordsOf, ← Memory.put_put, ← hdevice]
        exact hdevice'

/-- Finishing comes to the same wherever the file stands: of a session it reads what is the same
for every place, and of the memory how far it has got since the beginning of the file. -/
theorem finish_alike {s u : Session} (hplan : s.plan = u.plan) (hrecords : s.records = u.records)
    (hquantizer : s.quantizer = u.quantizer) (hsummary : s.summary = u.summary) {m n : Memory}
    (hm : m.capacity = none) (hn : n.capacity = none) (hs : s.start = m.place)
    (hu : u.start = n.place) {stored : Octets}
    (hstored : s.plan.header.version.headerSize ≤ stored.length) :
    ∃ result file offset,
      (finish s).perform (m.put stored) =
        (result, ⟨Memory.overwrite m.content m.place file, m.place + offset, none⟩) ∧
      (finish u).perform (n.put stored) =
        (result, ⟨Memory.overwrite n.content n.place file, n.place + offset, none⟩) := by
  have hback : u.back = s.back := by
    rw [Session.back, Session.back, hrecords, Session.recordBytes_congr hplan]
  have hheader : u.headerBytes (u.extendedBehind stored.length) =
      s.headerBytes (s.extendedBehind stored.length) := by
    rw [Session.headerBytes, Session.headerBytes, Session.extendedBehind, Session.extendedBehind,
      Session.pointDataOffset_congr hplan hrecords, hplan, hrecords, hquantizer, hsummary]
  have hfinish := finish_stored hm hs hstored
  have hfinish' := finish_stored hn hu (hplan ▸ hstored)
  rw [hback, hheader, ← Session.pointDataOffset_congr hplan hrecords] at hfinish'
  rw [hfinish, hfinish']
  cases DeviceTask.verdict s.back with
  | error e => exact ⟨_, _, _, rfl, rfl⟩
  | ok _ =>
    cases s.headerBytes (s.extendedBehind stored.length) with
    | error e => exact ⟨_, _, _, rfl, rfl⟩
    | ok header => exact ⟨_, _, _, rfl, rfl⟩

end Writer

/-- The extent of the points of a view, at the dimensions of a table. -/
def PointTable.extent (t : PointTable) (v : PointView) : Box :=
  (List.range v.size).foldl
    (fun box index => box.grow (.point ((FieldMap.ofLayout t.layout).position v index))) .nowhere

/-- The first view that has points. -/
def PointView.firstOf (views : List PointView) : Option PointView := views.find? (·.size != 0)

/-- Views have no points just if there is no first one with points. -/
theorem PointView.points_eq_nil_iff (views : List PointView) :
    views.flatMap (·.points) = [] ↔ PointView.firstOf views = none := by
  simp [PointView.firstOf, PointView.points, List.find?_eq_none, List.flatMap_eq_nil_iff]

/-- Only the extremes on open axes count when offsets are chosen. -/
theorem Quantizer.settle_congr {q : Quantizer} {low high low' high' : Triple Double}
    (h : ∀ axis, q.isOpen.get axis = true →
      low.get axis = low'.get axis ∧ high.get axis = high'.get axis) :
    q.settle low high = q.settle low' high' := by
  unfold settle
  congr 1
  apply Triple.ext_get
  intro axis
  rw [Triple.get_ofAxes, Triple.get_ofAxes]
  by_cases hopen : q.isOpen.get axis = true
  · obtain ⟨hlow, hhigh⟩ := h axis hopen
    have hsettles : q.settles low high axis = q.settles low' high' axis := by
      rw [settles, settles, hlow, hhigh]
    rw [hsettles, hlow, hhigh]
  · have hclosed : ∀ low high, ¬ q.settles low high axis = true := by
      intro low high
      simp [settles, hopen]
    rw [if_neg (hclosed low high), if_neg (hclosed low' high')]

namespace Session

/-- The offsets that are open are chosen by the first view that has points. -/
theorem quantizer_decidedBy {s : Session} (h : s.settled = false) (views : List PointView) :
    (s.decidedBy views).quantizer =
      match PointView.firstOf views with
      | some v => s.quantizer.settle (s.extent v).min (s.extent v).max
      | none => s.quantizer := by
  induction views with
  | nil => rfl
  | cons v views ih =>
    by_cases hsize : v.size = 0
    · have hfirst : PointView.firstOf (v :: views) = PointView.firstOf views := by
        simp [PointView.firstOf, hsize]
      have hskip : s.decidedBy (v :: views) = s.decidedBy views := by
        simp [decidedBy, decided, hsize]
      rw [hfirst, hskip, ih]
    · have hfirst : PointView.firstOf (v :: views) = some v := by
        simp [PointView.firstOf, hsize]
      have hsettled := decidedBy_of_settled (s.settled_decided hsize) views
      rw [hfirst, show s.decidedBy (v :: views) = s.decided v from hsettled]
      simp [decided, hsize, settle, h]

end Session

namespace Writer

variable {σ : Type} [Device σ] [Device.Reliable σ] {w : Writer σ} {s : Session}

/-- What finishing comes to on a reliable device. -/
theorem done_onMemory_of_open (hw : w.InOrder) (hopen : w.phase.open? = some s) :
    w.done.result = ((finish s).perform (memory w.device)).1 ∧
      memory w.done.writer.device = ((finish s).perform (memory w.device)).2 ∧
      w.done.writer.summary? = some s.summary := by
  obtain ⟨hresult, hwriter, -⟩ := done_onMemory hw
  have hdone := done_of_open (w := w.onMemory) hopen
  have hdevice : memory w.done.writer.device = w.done.writer.onMemory.device := rfl
  have hsummary : w.done.writer.summary? = w.done.writer.onMemory.summary? := rfl
  have hsession : w.phase.losing.summary? = some s.summary := by
    obtain hphase | hphase := Phase.eq_of_open? hopen
    · rw [hphase]
      rfl
    · rw [hphase]
      rfl
  rw [hresult, hdevice, hsummary, hwriter, hdone]
  unfold finishSession
  rcases hfinish : (finish s).perform w.onMemory.device with ⟨result, m⟩
  have hsame : (finish s).perform (memory w.device) = (result, m) := hfinish
  rw [hsame]
  cases result with
  | ok _ => exact ⟨rfl, rfl, rfl⟩
  | error e => exact ⟨rfl, rfl, hsession⟩

end Writer

namespace FileRun

variable {σ τ : Type} [Device σ] [Device.Reliable σ] [Device τ] [Device.Reliable τ]

/-- A run whose points are all sound stores and counts all of them. -/
theorem Opens.writes {r : FileRun σ} {p : Plan} {vlrs : List Vlr} (h : r.Opens p vlrs) :
    let t := (r.session p vlrs).decidedBy r.views
    let points := r.views.flatMap (·.points)
    let sound := ∀ point ∈ points,
      Session.isSound (p.encoder.encodePoint t.quantizer point) = true
    ((∀ result ∈ r.batchResults, result = .ok ()) ↔ sound) ∧
      (sound → ∃ cs,
        r.written.phase.open? = some ((t.noting cs).counting (t.recordsFor points)) ∧
        memory r.written.device = (memory r.device).put
          (DeviceTask.leading (r.session p vlrs).front ++
            Session.recordsOf (t.recordsFor points))) := by
  intro t points sound
  have hplan : t.plan = p := ((r.session p vlrs).decidedBy_fixed r.views).1
  have hopen : r.opened.onMemory.phase.open? = some (r.session p vlrs) := by
    rw [h.onMemory]
    rfl
  have hm : r.opened.onMemory.device.capacity = none := Writer.capacity_of_inOrder h.inOrder
  obtain ⟨hiff, hrun⟩ := Writer.writes_of_sound hopen hm r.views
  obtain ⟨hafter, -, hresults⟩ := Writer.after_onMemory h.inOrder (r.views.map .write)
  rw [← hresults, show ((r.session p vlrs).decidedBy r.views).plan = p from hplan] at hiff
  rw [← hafter, show ((r.session p vlrs).decidedBy r.views).plan = p from hplan] at hrun
  refine ⟨hiff, ?_⟩
  intro hsound
  obtain ⟨cs, hphase, hdevice⟩ := hrun hsound
  refine ⟨cs, hphase, ?_⟩
  rw [h.onMemory, Memory.put_put] at hdevice
  exact hdevice

/-- A run whose points are all sound finishes a session that has counted all of them, behind their
records. -/
theorem Opens.finished_of_sound {r : FileRun σ} {p : Plan} {vlrs : List Vlr}
    (h : r.Opens p vlrs) :
    let t := (r.session p vlrs).decidedBy r.views
    let points := r.views.flatMap (·.points)
    let records := t.recordsFor points
    (∀ point ∈ points, Session.isSound (p.encoder.encodePoint t.quantizer point) = true) →
      ∃ u : Session, u.plan = p ∧ u.start = (memory r.device).place ∧ u.records = .ofList vlrs ∧
        u.quantizer = t.quantizer ∧ u.summary = p.summary.addAll (records.map (·.counted)) ∧
        let final := (Writer.finish u).perform ((memory r.device).put
          (DeviceTask.leading (r.session p vlrs).front ++ Session.recordsOf records))
        r.finished.result = final.1 ∧ memory r.finished.writer.device = final.2 ∧
          r.finished.writer.summary? = some u.summary := by
  intro t points records hsound
  obtain ⟨-, hrun⟩ := h.writes
  obtain ⟨cs, hphase, hdevice⟩ := hrun hsound
  obtain ⟨hplan, hstart, hrecords, hsummary⟩ := (r.session p vlrs).decidedBy_fixed r.views
  obtain ⟨-, horder, -⟩ := Writer.after_onMemory h.inOrder (r.views.map .write)
  have hfinished := Writer.done_onMemory_of_open horder hphase
  rw [show memory (r.opened.after (r.views.map .write)).device = _ from hdevice] at hfinished
  refine ⟨(t.noting cs).counting records, hplan, hstart, hrecords, rfl, ?_, hfinished⟩
  show t.summary.addAll (records.map (·.counted)) = _
  rw [show t.summary = _ from hsummary]
  rfl

/-- Two runs that write the same points to the same kind of file, cut into batches in two ways.  On
an axis whose offset is chosen automatically, the first batches with points have the same extent. -/
structure Recut (r₁ : FileRun σ) (r₂ : FileRun τ) : Prop where
  stamp : r₁.stamp = r₂.stamp
  options : r₁.options = r₂.options
  table : r₁.table = r₂.table
  source : r₁.source = r₂.source
  points : r₁.views.flatMap (·.points) = r₂.views.flatMap (·.points)
  extent : ∀ axis, r₁.options.offset.get axis = .automatic →
    ∀ v₁ ∈ PointView.firstOf r₁.views, ∀ v₂ ∈ PointView.firstOf r₂.views,
      (r₁.table.extent v₁).min.get axis = (r₁.table.extent v₂).min.get axis ∧
        (r₁.table.extent v₁).max.get axis = (r₁.table.extent v₂).max.get axis

variable {r₁ : FileRun σ} {r₂ : FileRun τ}

/-- The two cuts decide the same offsets. -/
theorem Recut.quantizer_eq (h : r₁.Recut r₂) {p : Plan}
    (hsettled : p.SettledFor r₁.options r₁.table) (vlrs : List Vlr) :
    ((r₁.session p vlrs).decidedBy r₁.views).quantizer =
      ((r₂.session p vlrs).decidedBy r₂.views).quantizer := by
  have hextent : ∀ (s : Session) v, s.plan = p → s.extent v = r₁.table.extent v := by
    intro s v hs
    rw [Session.extent, PointTable.extent, hs, hsettled.fields]
  rw [Session.quantizer_decidedBy rfl, Session.quantizer_decidedBy rfl]
  have hnone := PointView.points_eq_nil_iff r₁.views
  rw [h.points, PointView.points_eq_nil_iff] at hnone
  cases hfirst : PointView.firstOf r₁.views with
  | none =>
    rw [hnone.mpr hfirst]
    rfl
  | some v₁ =>
    cases hfirst' : PointView.firstOf r₂.views with
    | none => simp [hnone.mp hfirst'] at hfirst
    | some v₂ =>
      simp only [hextent (r₁.session p vlrs) v₁ rfl, hextent (r₂.session p vlrs) v₂ rfl]
      apply Quantizer.settle_congr
      intro axis hopen
      refine h.extent axis ?_ v₁ hfirst v₂ hfirst'
      have hleaves : Quantizer.leavesOpen (p.options.offset.get axis) = true := by
        have hget := Triple.get_map Quantizer.leavesOpen p.options.offset axis
        rw [← hget]
        exact hopen
      rw [hsettled.options] at hleaves
      cases hchoice : r₁.options.offset.get axis with
      | automatic => rfl
      | value offset => simp [hchoice, Quantizer.leavesOpen] at hleaves

/-- The two runs open the same kind of file. -/
theorem Recut.opens (h : r₁.Recut r₂) (h₁ : r₁.opening.Succeeds) (h₂ : r₂.opening.Succeeds) :
    ∃ p vlrs, r₁.Opens p vlrs ∧ r₂.Opens p vlrs := by
  obtain ⟨p, vlrs, hopens₁⟩ := FileRun.opens h₁
  obtain ⟨p', vlrs', hopens₂⟩ := FileRun.opens h₂
  have hplan := hopens₂.plan
  have hrecords := hopens₂.records
  rw [← h.stamp, ← h.options, ← h.table, hopens₁.plan] at hplan
  obtain rfl : p = p' := Except.ok.inj hplan
  rw [← h.options, ← h.source, hopens₁.records] at hrecords
  obtain rfl : vlrs = vlrs' := Except.ok.inj hrecords
  exact ⟨p, vlrs, hopens₁, hopens₂⟩

/-- **The cut into batches does not matter.**  Either every batch succeeds in both runs or in
neither, and if they do, both finish alike, with the same summary and the same file, each where its
own device stood. -/
theorem Recut.alike (h : r₁.Recut r₂) (h₁ : r₁.opening.Succeeds) (h₂ : r₂.opening.Succeeds) :
    ((∀ result ∈ r₁.batchResults, result = .ok ()) ↔
      ∀ result ∈ r₂.batchResults, result = .ok ()) ∧
    ((∀ result ∈ r₁.batchResults, result = .ok ()) →
      r₁.finished.result = r₂.finished.result ∧
      r₁.finished.writer.summary? = r₂.finished.writer.summary? ∧
      ∃ file offset,
        memory r₁.finished.writer.device =
          ⟨Memory.overwrite (memory r₁.device).content (memory r₁.device).place file,
            (memory r₁.device).place + offset, none⟩ ∧
        memory r₂.finished.writer.device =
          ⟨Memory.overwrite (memory r₂.device).content (memory r₂.device).place file,
            (memory r₂.device).place + offset, none⟩) := by
  obtain ⟨p, vlrs, hopens₁, hopens₂⟩ := h.opens h₁ h₂
  have hquantizer := h.quantizer_eq (Writer.planFor_eq_ok hopens₁.plan) vlrs
  obtain ⟨hiff₁, -⟩ := hopens₁.writes
  obtain ⟨hiff₂, -⟩ := hopens₂.writes
  let t₁ := (r₁.session p vlrs).decidedBy r₁.views
  let t₂ := (r₂.session p vlrs).decidedBy r₂.views
  have hrecordsFor : t₂.recordsFor = t₁.recordsFor := by
    have hplan₁ : t₁.plan = p := ((r₁.session p vlrs).decidedBy_fixed r₁.views).1
    have hplan₂ : t₂.plan = p := ((r₂.session p vlrs).decidedBy_fixed r₂.views).1
    unfold Session.recordsFor
    rw [hplan₁, hplan₂, show t₂.quantizer = t₁.quantizer from hquantizer.symm]
  -- what is stored in front of the points does not say where the file stands
  have hfront : (r₂.session p vlrs).front = (r₁.session p vlrs).front := rfl
  have hiff : (∀ result ∈ r₁.batchResults, result = .ok ()) ↔
      ∀ result ∈ r₂.batchResults, result = .ok () := by
    rw [← h.points, ← hquantizer] at hiff₂
    exact hiff₁.trans hiff₂.symm
  refine ⟨hiff, ?_⟩
  intro hall
  obtain ⟨u₁, hplan₁, hstart₁, hrecords₁, hquantizer₁, hsummary₁, hresult₁, hmemory₁, hsum₁⟩ :=
    hopens₁.finished_of_sound (hiff₁.mp hall)
  obtain ⟨u₂, hplan₂, hstart₂, hrecords₂, hquantizer₂, hsummary₂, hresult₂, hmemory₂, hsum₂⟩ :=
    hopens₂.finished_of_sound (hiff₂.mp (hiff.mp hall))
  rw [← h.points, show ((r₂.session p vlrs).decidedBy r₂.views).recordsFor = _ from hrecordsFor]
    at hsummary₂ hresult₂ hmemory₂
  rw [hfront] at hresult₂ hmemory₂
  have hquantizer : u₁.quantizer = u₂.quantizer :=
    hquantizer₁.trans (hquantizer.trans hquantizer₂.symm)
  have hsummary : u₁.summary = u₂.summary := hsummary₁.trans hsummary₂.symm
  let stored := DeviceTask.leading (r₁.session p vlrs).front ++
    Session.recordsOf (t₁.recordsFor (r₁.views.flatMap (·.points)))
  have hlength : u₁.plan.header.version.headerSize ≤ stored.length := by
    rw [hplan₁]
    exact hopens₁.headerSize_le _
  obtain ⟨result, file, offset, hfinish₁, hfinish₂⟩ := Writer.finish_alike
    (hplan₁.trans hplan₂.symm) (hrecords₁.trans hrecords₂.symm) hquantizer hsummary
    hopens₁.capacity hopens₂.capacity hstart₁ hstart₂ hlength
  refine ⟨?_, ?_, file, offset, ?_, ?_⟩
  · exact (hresult₁.trans (congrArg Prod.fst hfinish₁)).trans
      (hresult₂.trans (congrArg Prod.fst hfinish₂)).symm
  · rw [hsum₁, hsum₂, hsummary]
  · exact hmemory₁.trans (congrArg Prod.snd hfinish₁)
  · exact hmemory₂.trans (congrArg Prod.snd hfinish₂)

/-- The small file again, cut in another way and behind five octets of other memory. -/
def smallAgain : FileRun Memory :=
  { small with
    device := .unlimited [1, 2, 3] 5
    views := [.origins 0, .origins 1, .origins 2] }

/-- The two files have the same three points. -/
theorem recut_smallAgain : small.Recut smallAgain where
  stamp := rfl
  options := rfl
  table := rfl
  source := rfl
  points := rfl
  extent := by
    intro axis _ v₁ hv₁ v₂ hv₂
    obtain rfl : PointView.origins 2 = v₁ := Option.some.inj hv₁
    obtain rfl : PointView.origins 1 = v₂ := Option.some.inj hv₂
    cases axis <;> decide +kernel

/-- One file stands at the beginning of its memory, and the same one behind five octets of the
other. -/
theorem alike_smallAgain :
    (∀ result ∈ small.batchResults, result = .ok ()) ∧
      ∃ file offset,
        memory small.finished.writer.device = ⟨Memory.overwrite [] 0 file, 0 + offset, none⟩ ∧
        memory smallAgain.finished.writer.device =
          ⟨Memory.overwrite [1, 2, 3] 5 file, 5 + offset, none⟩ := by
  have hopening : smallAgain.opening.Succeeds :=
    ⟨Memory.fresh_unlimited _ 5, by decide +kernel, by decide +kernel⟩
  have hall : ∀ result ∈ small.batchResults, result = .ok () := by decide +kernel
  obtain ⟨-, hrun⟩ := Recut.alike recut_smallAgain completes_small.opening hopening
  obtain ⟨-, -, file, offset, hsmall, hagain⟩ := hrun hall
  exact ⟨hall, file, offset, hsmall, hagain⟩

end FileRun

end PointCloud
