import PointCloud.Proofs.Writer.Runs
import PointCloud.Proofs.Writer.Tallies

/-!
# What a batch leaves behind

A batch whose points can all be written appends the records of those that are
kept.  A batch with a point that fails appends a part of them, which ends with
the last whole chunk in front of that point, and nothing else of the batch
counts any more: neither the stream nor the summary nor any later step can tell
it from a batch of just the points that were appended.  `Writer.Keeps` says all
of that about some indexes of the batch, and `write_keeps` says which indexes
they are.

What is left of the other points is on the tally of complaints, and in the
offsets, which are chosen from all points of the first batch.  So a batch is
compared with one that is written to the same session with its offsets decided,
and the writers are compared with their tallies put back.
-/

namespace PointCloud

open Device.Reliable (Fresh Open memory)

namespace Session

/-- Points that have a record each are all sound, and what is stored of them is the records. -/
theorem encodings_select {s : Session} {v : PointView} {kept : List Nat}
    {records : List EncodedPoint}
    (h : List.Forall₂ (fun i r => (s.plan.encoder.encode s.quantizer v i).outcome = .ok (some r))
      kept records) :
    batchResult (s.encodings (v.select kept)) = .ok () ∧ s.storedOf (v.select kept) = records := by
  have hencodings : s.encodings (v.select kept) =
      kept.map (s.plan.encoder.encode s.quantizer v) := by
    rw [encodings_eq, PointView.points_select, List.map_map]
    rfl
  have hall : (kept.map (s.plan.encoder.encode s.quantizer v)).all isSound = true ∧
      (kept.map (s.plan.encoder.encode s.quantizer v)).filterMap point? = records := by
    clear hencodings
    induction h with
    | nil => exact ⟨rfl, rfl⟩
    | cons hi _ ih =>
      obtain ⟨hsound, hpoints⟩ := ih
      constructor
      · simp [isSound, failure?, hi, hsound]
      · simp [point?, hi, hpoints]
  rw [← hencodings] at hall
  obtain ⟨hsound, hpoints⟩ := hall
  refine ⟨?_, (s.storedOf_of_all _ hsound).trans hpoints⟩
  rw [batchResult, all_isSound_iff.mp hsound]

end Session

namespace Writer

variable {σ : Type}

/-- The writer with the offsets decided that are still open before a view is written. -/
def deciding (w : Writer σ) (v : PointView) : Writer σ :=
  { w with phase := w.phase.mapSession (·.decided v) }

/-- The offsets are decided in the session that is open. -/
theorem open?_deciding {w : Writer σ} {s : Session} (h : w.phase.open? = some s)
    (v : PointView) : (w.deciding v).phase.open? = some (s.decided v) := by
  rcases w with ⟨d, phase, stamp⟩
  obtain rfl | rfl := Phase.eq_of_open? h
  · rfl
  · rfl

variable [Device σ] [Device.Reliable σ]

/-- A batch comes to the result, and of its points just those with the given indexes are written:
their records are stored behind one another, whole and in order, each of them is counted once, and
from then on the writer is as if the batch had been one of these points alone, but for its tally. -/
structure Keeps (w : Writer σ) (s : Session) (v : PointView) (kept : List Nat)
    (result : Except Error Unit) : Prop where
  result : (w.write v).result = result
  stored : ∃ records : List EncodedPoint,
    List.Forall₂ (fun i r =>
      (s.plan.encoder.encode (s.decided v).quantizer v i).outcome = .ok (some r)) kept records ∧
    (∀ r ∈ records, r.bytes.length = s.plan.encoder.recordLength) ∧
    memory (w.write v).writer.device =
      (memory w.device).put (records.flatMap (·.bytes)) ∧
    (w.write v).writer.summary? = some (s.summary.addAll (records.map (·.counted)))
  counted : ∃ summary, (w.write v).writer.summary? = some summary ∧
    summary.count = s.summary.count + kept.length
  alone : ((w.deciding v).write (v.select kept)).result = .ok ()
  later : ∀ calls : List Call,
    ((w.write v).writer.after calls).onMemory.untallied =
        (((w.deciding v).write (v.select kept)).writer.after calls).onMemory.untallied ∧
      (w.write v).writer.results calls =
        ((w.deciding v).write (v.select kept)).writer.results calls

/-- Deciding offsets leaves the device alone. -/
theorem inOrder_deciding {w : Writer σ} (hw : w.InOrder) (v : PointView) :
    (w.deciding v).InOrder := by
  have hopened : (w.deciding v).hasOpened = w.hasOpened := by
    rcases w with ⟨d, phase, stamp⟩
    cases phase <;> rfl
  unfold InOrder at hw ⊢
  rw [hopened]
  exact hw

/-- What is kept on the memory of a device is kept on the device. -/
theorem Keeps.of_onMemory {w : Writer σ} (hw : w.InOrder) {s : Session} {v : PointView}
    {kept : List Nat} {result : Except Error Unit} (h : w.onMemory.Keeps s v kept result) :
    w.Keeps s v kept result := by
  obtain ⟨hresult, hwriter, horder⟩ := write_onMemory hw v
  obtain ⟨hresult', hwriter', horder'⟩ := write_onMemory (inOrder_deciding hw v) (v.select kept)
  have hdeciding : (w.deciding v).onMemory = w.onMemory.deciding v := rfl
  rw [hdeciding] at hresult' hwriter'
  obtain ⟨records, hrecords, hlength, hdevice, hsummary⟩ := h.stored
  have hsame : (w.write v).writer.summary? = (w.write v).writer.onMemory.summary? := rfl
  have hcounted := h.counted
  rw [← hwriter] at hsummary hcounted
  refine ⟨hresult.trans h.result, ⟨records, hrecords, hlength, ?_, hsame.trans hsummary⟩, hcounted,
    hresult'.trans h.alone, ?_⟩
  · have hmemory : memory (w.write v).writer.device = (w.write v).writer.onMemory.device := rfl
    rw [hmemory, hwriter]
    exact hdevice
  · intro calls
    obtain ⟨hafter, -, hresults⟩ := after_onMemory horder calls
    obtain ⟨hafter', -, hresults'⟩ := after_onMemory horder' calls
    obtain ⟨hlater, hlaterResults⟩ := h.later calls
    rw [hafter, hwriter, hafter', hwriter', hresults, hwriter, hresults', hwriter']
    exact ⟨hlater, hlaterResults⟩

/-- On memory, a batch keeps the points whose records it stores. -/
theorem keeps_memory {w : Writer Memory} {s : Session} (hm : w.device.capacity = none)
    (hopen : w.phase.open? = some s) {v : PointView} {kept : List Nat}
    {records : List EncodedPoint} {result : Except Error Unit}
    (hresult : Session.batchResult ((s.decided v).encodings v) = result)
    (hstored : (s.decided v).storedOf v = records)
    (hrecords : List.Forall₂ (fun i r =>
      (s.plan.encoder.encode (s.decided v).quantizer v i).outcome = .ok (some r)) kept records)
    (hlength : ∀ r ∈ records, r.bytes.length = s.plan.encoder.recordLength)
    (hempty : v.size = 0 → kept = []) : w.Keeps s v kept result := by
  obtain ⟨hwrite, hsession, hdevice⟩ := s.write_memory v hm
  have hsummary := (s.decided_fixed v).2.2.2.2
  -- the batch of the kept points decides nothing, for all is decided
  have hdecided : (s.decided v).decided (v.select kept) = s.decided v := by
    apply s.decided_decided
    intro hsize
    rw [hempty hsize]
    rfl
  obtain ⟨hwrite', hsession', hdevice'⟩ := (s.decided v).write_memory (v.select kept) hm
  obtain ⟨hsound, hselect⟩ := Session.encodings_select (s := s.decided v) (by
    rw [s.plan_decided]
    exact hrecords)
  rw [hstored] at hsession hdevice
  rw [hdecided, hselect] at hsession' hdevice'
  rw [hdecided, hsound] at hwrite'
  have hthis := write_of_open hopen v
  have hother := write_of_open (open?_deciding hopen v) (v.select kept)
  have halike : (w.write v).writer.untallied =
      ((w.deciding v).write (v.select kept)).writer.untallied := by
    rw [hthis, hother]
    simp only [writeBatch, untallied, deciding, Phase.mapSession, hsession, hdevice, hsession',
      hdevice', Session.untallied_noting]
  have hadded : (w.write v).writer.summary? =
      some (s.summary.addAll (records.map (·.counted))) := by
    rw [hthis]
    show some (s.write v w.device).session.summary = _
    rw [hsession, ← hsummary]
    rfl
  refine ⟨?_, ⟨records, hrecords, hlength, ?_, hadded⟩, ⟨_, hadded, ?_⟩, ?_,
    fun calls => after_untallied halike calls⟩
  · rw [hthis]
    exact hwrite.trans hresult
  · rw [hthis]
    exact hdevice
  · rw [Summary.count_addAll, List.length_map, hrecords.length_eq]
  · rw [hother]
    exact hwrite'

/-- A batch that is sound below an index and stores just the points below it keeps those that are to
be written. -/
theorem keeps_below {w : Writer σ} (hw : w.InOrder) {s : Session} (hopen : w.phase.open? = some s)
    {options : Options} {table : PointTable} (hsettled : s.plan.SettledFor options table)
    {v : PointView} (hfit : v.FitsLayout table.layout) {n : Nat} (hn : n ≤ v.size)
    {result : Except Error Unit}
    (hsound : ∀ i < n,
      Session.isSound (s.plan.encoder.encode (s.decided v).quantizer v i) = true)
    (hresult : Session.batchResult ((s.decided v).encodings v) = result)
    (hstored : (s.decided v).storedOf v =
      (s.decided v).recordsAt v (s.plan.encoder.keptBelow v n)) :
    w.Keeps s v (s.plan.encoder.keptBelow v n) result := by
  have hplan := s.plan_decided v
  have hrecords := (s.decided v).forall₂_recordsAt v n (by
    rw [hplan]
    exact hsound)
  rw [hplan] at hrecords
  refine Keeps.of_onMemory hw
    (keeps_memory (capacity_of_inOrder hw) hopen hresult hstored hrecords ?_ ?_)
  · intro r hr
    obtain ⟨i, hi, houtcome⟩ := hrecords.exists_left hr
    have hlt : i < v.size := Nat.lt_of_lt_of_le (List.mem_range.mp (List.mem_filter.mp hi).1) hn
    have hpoint : v.point i ∈ v.points := List.mem_map.mpr ⟨i, List.mem_range.mpr hlt, rfl⟩
    have hfits := hfit.fits hsettled.extra _ hpoint
    exact PointEncoder.length_of_outcome hsettled.format_isSupported hfits houtcome
  · intro hsize
    obtain rfl : n = 0 := by omega
    rfl

end Writer

namespace Opening

variable {σ : Type} [Device σ] [Device.Reliable σ]

/-- The session of a writer after batches, and what is known of it. -/
theorem Succeeds.writing {o : Opening σ} (h : o.Succeeds) (views : List PointView) :
    ∃ options p s, (o.ready.writer.after (views.map .write)).phase.open? = some s ∧
      (o.ready.writer.after (views.map .write)).InOrder ∧ s.plan = p ∧
      p.SettledFor options o.table := by
  obtain ⟨options, p, vlrs, hsettles⟩ := h.settles
  have hphase : o.ready.writer.phase = .ready (o.session p vlrs) false :=
    show o.ready.writer.onMemory.phase = _ by rw [hsettles.onMemory]
  have hopen : o.ready.writer.phase.open? = some (o.session p vlrs) := by
    rw [hphase]
    rfl
  obtain ⟨s, hs, hplan⟩ := Writer.open?_after_writes hopen views
  obtain ⟨-, horder, -⟩ := Writer.after_onMemory hsettles.inOrder (views.map .write)
  exact ⟨options, p, s, hs, horder, hplan, hsettles.settledFor⟩

/-- **A batch keeps whole chunks.**  After any batches, a batch without a failing point keeps all
points that are to be written, and one whose first failing point has the index `i` keeps those in
front of the chunk that this point lies in. -/
theorem Succeeds.write_keeps {o : Opening σ} (h : o.Succeeds) (earlier : List PointView)
    (v : PointView) (hfit : v.FitsLayout o.table.layout) :
    let w := o.ready.writer.after (earlier.map .write)
    ∃ s, w.phase.open? = some s ∧
      let k := max 1 (1000000 / s.plan.encoder.recordLength)
      let outcome (i : Nat) := (s.plan.encoder.encode (s.decided v).quantizer v i).outcome
      ((∀ i < v.size, ∃ r?, outcome i = .ok r?) →
        w.Keeps s v (s.plan.encoder.keptBelow v v.size) (.ok ())) ∧
      ∀ i < v.size, ∀ e, outcome i = .error e → (∀ j < i, ∃ r?, outcome j = .ok r?) →
        w.Keeps s v (s.plan.encoder.keptBelow v (k * (i / k))) (.error e) := by
  intro w
  obtain ⟨options, p, s, hopen, horder, rfl, hsettled⟩ := h.writing earlier
  have hplan := s.plan_decided v
  refine ⟨s, hopen, ?_⟩
  intro k outcome
  have hk : s.chunkSize = k := rfl
  clear_value k
  constructor
  · intro hsound
    have hall : ∀ i < v.size,
        Session.isSound (s.plan.encoder.encode (s.decided v).quantizer v i) = true :=
      fun i hi => Session.isSound_iff.mpr (hsound i hi)
    obtain ⟨hresult, hstored⟩ := (s.decided v).storedOf_of_sound v (by
      rw [hplan]
      exact hall)
    rw [hplan] at hstored
    exact Writer.keeps_below horder hopen hsettled hfit (Nat.le_refl _) hall hresult hstored
  · intro i hi e hfail hbefore
    have hsound : ∀ j < i,
        Session.isSound (s.plan.encoder.encode (s.decided v).quantizer v j) = true :=
      fun j hj => Session.isSound_iff.mpr (hbefore j hj)
    have hfailing := (s.decided v).storedOf_of_failing v hi (e := e)
    rw [hplan, s.chunkSize_decided, hk] at hfailing
    obtain ⟨hresult, hstored⟩ := hfailing hfail hsound
    have hle : k * (i / k) ≤ i := Nat.mul_div_le i k
    have hbelow : ∀ j < k * (i / k),
        Session.isSound (s.plan.encoder.encode (s.decided v).quantizer v j) = true := by
      intro j hj
      exact hsound j (by omega)
    exact Writer.keeps_below horder hopen hsettled hfit (by omega) hbelow hresult hstored

end Opening

/-- Points that are all alike are kept if one of them is. -/
theorem PointEncoder.keptBelow_eq_range {e : PointEncoder} {v : PointView} {p : Point} {n : Nat}
    (hpoints : ∀ i < n, v.point i = p) (hkeeps : e.keeps p.alone 0 = true) :
    e.keptBelow v n = List.range n := by
  rw [keptBelow, List.filter_eq_self]
  intro i hi
  have hpoint : e.keeps v i = e.keeps (v.point i).alone 0 := rfl
  rwa [hpoint, hpoints i (List.mem_range.mp hi)]

/-- Thirty thousand points at the origin, but for one that is infinitely far away. -/
def PointView.strayingLate : PointView where
  size := 30000
  value id index := if id = 0 ∧ index = 29500 then .infinity else .zero
  octets _ _ := List.replicate 8 0

/-- All its points but one are at the origin. -/
theorem PointView.point_strayingLate {index : Nat} (h : index ≠ 29500) :
    strayingLate.point index = (origins 2).point 0 := by
  simp [point, strayingLate, origins, h]

namespace Opening

/-- The points of a batch at the origin are all kept.  Of a batch with a point that is infinitely
far away, those in front of the chunk of this point are kept, which is one whole chunk. -/
theorem Succeeds.write_keeps_origins :
    let w := FileRun.small.opening.ready.writer.after ([.origins 1].map .write)
    ∃ s, w.phase.open? = some s ∧ w.Keeps s (.origins 2) (List.range 2) (.ok ()) ∧
      w.Keeps s .strayingLate (List.range 29411)
        (.error (.coordinateOverflow .x .infinity ⟨Scaling.usualScale, .zero⟩)) := by
  intro w
  obtain ⟨t, hopen', hall, -⟩ := Succeeds.write_keeps FileRun.completes_small.opening [.origins 1]
    (.origins 2) (PointView.fitsLayout_origins 2)
  obtain ⟨s, hopen, -, hfirst⟩ := Succeeds.write_keeps FileRun.completes_small.opening [.origins 1]
    .strayingLate (PointView.fitsLayout_origins 30000)
  obtain rfl : s = t := Option.some.inj (hopen.symm.trans hopen')
  let origin := (PointView.origins 2).point 0
  let stray := PointView.strayingLate.point 29500
  have hfacts : w.phase.open?.map (fun s => (s.settled, s.plan.encoder.recordLength,
      s.plan.encoder.keeps origin.alone 0,
      Session.isSound (s.plan.encoder.encodePoint s.quantizer origin),
      Session.failure? (s.plan.encoder.encodePoint s.quantizer stray))) =
        some (true, 34, true, true,
          some (.coordinateOverflow .x .infinity ⟨Scaling.usualScale, .zero⟩)) := by
    decide +kernel
  rw [hopen, Option.map_some, Option.some.injEq] at hfacts
  simp only [Prod.mk.injEq] at hfacts
  obtain ⟨hsettled, hlength, hkept, hsound, hfails⟩ := hfacts
  have hdecided : ∀ v, s.decided v = s := Session.decided_of_settled hsettled
  have horigin : ∀ j < 29500, PointView.strayingLate.point j = origin := fun j hj =>
    PointView.point_strayingLate (Nat.ne_of_lt hj)
  refine ⟨s, hopen, ?_, ?_⟩
  · have hkeeps := hall fun i _ => by
      rw [hdecided]
      exact Session.isSound_iff.mp hsound
    rwa [PointEncoder.keptBelow_eq_range (fun _ _ => rfl) hkept] at hkeeps
  · have herror : (s.plan.encoder.encodePoint s.quantizer stray).outcome =
        .error (.coordinateOverflow .x .infinity ⟨Scaling.usualScale, .zero⟩) :=
      Session.failure?_eq_some_iff.mp hfails
    rw [hdecided, hlength] at hfirst
    have hbefore : ∀ j < 29500, ∃ r?,
        (s.plan.encoder.encode s.quantizer .strayingLate j).outcome = .ok r? := by
      intro j hj
      rw [PointEncoder.encode_eq, horigin j hj]
      exact Session.isSound_iff.mp hsound
    have hkeeps := hfirst 29500 (by decide) _ herror hbefore
    have hchunk : max 1 (1000000 / 34) * (29500 / max 1 (1000000 / 34)) = 29411 := by decide
    rwa [hchunk, PointEncoder.keptBelow_eq_range (fun j hj => horigin j (by omega)) hkept]
      at hkeeps

end Opening

end PointCloud
