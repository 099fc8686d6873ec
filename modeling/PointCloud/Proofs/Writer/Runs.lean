import PointCloud.Proofs.Writer.Opening

/-!
# Runs of a writer

An `Opening` is any way of making a writer ready: calls, a table to prepare with,
more calls, and the table that the file is opened for.  The other calls may do
whatever they like, and most of them are refused.  A `FileRun` is the straight
way to a finished file, with any number of batches in between.

`Opening.Succeeds.settles` says once what an opening that succeeds has settled,
and `opens` what it has done to the memory of the device.  From there on a writer
stays open for batches until it is done; `Phase.open?` is the session it writes
to.
-/

namespace PointCloud

open Device.Reliable (Fresh Open memory)

/-- The session that a batch is written to, while batches are taken. -/
def Phase.open? : Phase → Option Session
  | .ready s false | .writing s false => some s
  | _ => none

/-- Batches are taken in two phases, and as long as the session is not lost. -/
theorem Phase.eq_of_open? {phase : Phase} {s : Session} (h : phase.open? = some s) :
    phase = .ready s false ∨ phase = .writing s false := by
  cases phase with
  | ready u lost | writing u lost =>
    cases lost with
    | true => simp [open?] at h
    | false =>
      obtain rfl : u = s := Option.some.inj h
      simp
  | _ => simp [open?] at h

/-- The session of a file that is finished. -/
def Phase.finished? : Phase → Option Session
  | .done s => some s
  | _ => none

namespace Writer

section Open

variable {σ : Type}

/-- The plan is that of the session. -/
theorem plan?_of_open {w : Writer σ} {s : Session} (h : w.phase.open? = some s) :
    w.phase.plan? = some s.plan := by
  rcases w with ⟨d, phase, stamp⟩
  obtain rfl | rfl := Phase.eq_of_open? h
  · rfl
  · rfl

variable [Device σ]

/-- While a session is open, a batch is written. -/
theorem write_of_open {w : Writer σ} {s : Session} (h : w.phase.open? = some s)
    (v : PointView) : w.write v = w.writeBatch s v := by
  rcases w with ⟨d, phase, stamp⟩
  obtain rfl | rfl := Phase.eq_of_open? h
  · rfl
  · rfl

/-- While a session is open, it can be finished. -/
theorem done_of_open {w : Writer σ} {s : Session} (h : w.phase.open? = some s) :
    w.done = w.finishSession s := by
  rcases w with ⟨d, phase, stamp⟩
  obtain rfl | rfl := Phase.eq_of_open? h
  · rfl
  · rfl

/-- A writer that takes batches takes more of them, whatever comes of these. -/
theorem open?_after_writes {w : Writer σ} {s : Session} (h : w.phase.open? = some s)
    (views : List PointView) :
    ∃ u, (w.after (views.map .write)).phase.open? = some u ∧ u.plan = s.plan := by
  have hopen : ∃ u, (w.after (views.map .write)).phase.open? = some u := by
    induction views generalizing w s with
    | nil => exact ⟨s, h⟩
    | cons v views ih =>
      have hnext : (w.write v).writer.phase.open? = some (s.write v w.device).session := by
        rw [write_of_open h]
        rfl
      exact ih hnext
  obtain ⟨u, hu⟩ := hopen
  have hplan := plan?_after (plan?_of_open h) (views.map .write)
  rw [plan?_of_open hu] at hplan
  exact ⟨u, hu, Option.some.inj hplan⟩

end Open

end Writer

/-- A way of making a writer ready. -/
structure Opening (σ : Type) where
  stamp : Stamp
  device : σ
  before : List Call
  table : PointTable
  between : List Call
  source : PointTable

namespace Opening

variable {σ : Type} [Device σ]

/-- The writer that is prepared with the table. -/
def configured (o : Opening σ) : Writer σ := (Writer.create o.stamp o.device).after o.before

/-- What comes of preparing. -/
def prepared (o : Opening σ) : Outcome σ := o.configured.prepare o.table

/-- The writer that is made ready. -/
def standing (o : Opening σ) : Writer σ := o.prepared.writer.after o.between

/-- What comes of opening the file. -/
def ready (o : Opening σ) : Outcome σ := o.standing.ready o.source

variable [Device.Reliable σ]

/-- A fresh device is prepared for and made ready. -/
structure Succeeds (o : Opening σ) : Prop where
  fresh : Fresh o.device
  prepared : o.prepared.result = .ok ()
  ready : o.ready.result = .ok ()

/-- The memory that the file is opened on. -/
def origin (o : Opening σ) : Memory := memory o.standing.device

/-- The session of a file that has just been opened. -/
def session (o : Opening σ) (p : Plan) (vlrs : List Vlr) : Session :=
  Session.fresh p o.origin.place (.ofList vlrs)

/-- What an opening has settled, and what it has done to the memory of the device. -/
structure Settles (o : Opening σ) (options : Options) (p : Plan) (vlrs : List Vlr) : Prop where
  configured : o.configured.phase = .configured options
  plan : (Writer.planFor o.configured.stamp options o.table).value = .ok p
  records : (fileRecords options o.source p.encoder.extra).value = .ok vlrs
  capacity : o.origin.capacity = none
  front : DeviceTask.verdict (o.session p vlrs).front = .ok ()
  inOrder : o.ready.writer.InOrder
  onMemory : o.ready.writer.onMemory =
    ⟨o.origin.put (DeviceTask.leading (o.session p vlrs).front),
      .ready (o.session p vlrs) false, o.standing.stamp⟩

/-- **An opening that succeeds has settled a plan and the records of the file.** -/
theorem Succeeds.settles {o : Opening σ} (h : o.Succeeds) :
    ∃ options p vlrs, o.Settles options p vlrs := by
  obtain ⟨options, p, hconfigured, hplan, hprepared⟩ := Writer.prepare_eq_ok h.prepared
  -- the device is in order at every step, so being ready is being ready on memory
  have hcreated := Writer.inOrder_create o.stamp h.fresh
  obtain ⟨-, horder, -⟩ := Writer.after_onMemory hcreated o.before
  obtain ⟨-, -, horder⟩ := Writer.perform_onMemory horder (.prepare o.table)
  obtain ⟨-, horder, -⟩ := Writer.after_onMemory horder o.between
  obtain ⟨hresult, hwriter, hready⟩ := Writer.perform_onMemory horder (.ready o.source)
  have hcapacity : o.origin.capacity = none := Writer.capacity_of_inOrder horder
  have hmemory : (o.standing.onMemory.ready o.source).result = .ok () :=
    hresult.symm.trans h.ready
  obtain ⟨q, vlrs, hphase, hrecords, hverdict, hafter⟩ := Writer.ready_eq_ok hcapacity hmemory
  have hstanding : o.standing.phase.plan? = some p := by
    apply Writer.plan?_after
    rw [show o.prepared.writer = _ from hprepared]
    rfl
  obtain rfl : p = q := by
    rw [show o.standing.phase = .prepared q false from hphase] at hstanding
    exact (Option.some.inj hstanding).symm
  have hoptions := (Writer.planFor_eq_ok hplan).options
  rw [hoptions] at hrecords
  exact ⟨options, p, vlrs, hconfigured, hplan, hrecords, hcapacity, hverdict, hready,
    hwriter.trans hafter⟩

/-- What an opening settles is settled for its options and its table. -/
theorem Settles.settledFor {o : Opening σ} {options : Options} {p : Plan} {vlrs : List Vlr}
    (h : o.Settles options p vlrs) : p.SettledFor options o.table := Writer.planFor_eq_ok h.plan

end Opening

/-- A run of a writer to a finished file. -/
structure FileRun (σ : Type) where
  stamp : Stamp
  device : σ
  options : Options
  table : PointTable
  source : PointTable
  views : List PointView

namespace FileRun

variable {σ : Type} [Device σ]

/-- The way to being ready. -/
def opening (r : FileRun σ) : Opening σ :=
  ⟨r.stamp, r.device, [.configure r.options], r.table, [], r.source⟩

/-- The writer that has become ready. -/
def opened (r : FileRun σ) : Writer σ := r.opening.ready.writer

/-- The writer after all batches, whatever has come of them. -/
def written (r : FileRun σ) : Writer σ := r.opened.after (r.views.map .write)

/-- What has come of the batches. -/
def batchResults (r : FileRun σ) : List (Except Error Unit) :=
  r.opened.results (r.views.map .write)

/-- What comes of finishing the file. -/
def finished (r : FileRun σ) : Outcome σ := r.written.done

variable [Device.Reliable σ]

/-- The file is opened on a fresh device, and it is finished.  Batches may have failed. -/
structure Completes (r : FileRun σ) : Prop where
  opening : r.opening.Succeeds
  finished : r.finished.result = .ok ()

/-- The session of the file before any batch. -/
def session (r : FileRun σ) (p : Plan) (vlrs : List Vlr) : Session :=
  Session.fresh p (memory r.device).place (.ofList vlrs)

/-- What the way to being ready has settled, said of the run. -/
structure Opens (r : FileRun σ) (p : Plan) (vlrs : List Vlr) : Prop where
  plan : (Writer.planFor r.stamp r.options r.table).value = .ok p
  records : (fileRecords r.options r.source p.encoder.extra).value = .ok vlrs
  capacity : (memory r.device).capacity = none
  front : DeviceTask.verdict (r.session p vlrs).front = .ok ()
  inOrder : r.opened.InOrder
  onMemory : r.opened.onMemory =
    ⟨(memory r.device).put (DeviceTask.leading (r.session p vlrs).front),
      .ready (r.session p vlrs) false, r.stamp⟩

/-- A run whose opening succeeds opens a file. -/
theorem opens {r : FileRun σ} (h : r.opening.Succeeds) : ∃ p vlrs, r.Opens p vlrs := by
  obtain ⟨options, p, vlrs, hsettles⟩ := h.settles
  have hconfigured : options = r.options ∧
      r.opening.configured = ⟨r.device, .configured r.options, r.stamp⟩ := by
    have hphase := hsettles.configured
    have hconfigure : r.opening.configured =
        ((Writer.create r.stamp r.device).configure r.options).writer := rfl
    rw [hconfigure] at hphase ⊢
    cases hcheck : Writer.checkOptions r.options with
    | error e => simp [Writer.configure, Writer.create, hcheck] at hphase
    | ok _ =>
      simp only [Writer.configure, Writer.create, hcheck, Phase.configured.injEq] at hphase
      exact ⟨hphase.symm, by simp [Writer.configure, Writer.create, hcheck]⟩
  obtain ⟨rfl, hconfigured⟩ := hconfigured
  have hplan := hsettles.plan
  have hstanding : r.opening.standing = ⟨r.device, .prepared p false, r.stamp⟩ := by
    obtain ⟨options, q, hphase, hplan', hwriter⟩ := Writer.prepare_eq_ok h.prepared
    rw [hconfigured] at hphase hplan hplan' hwriter
    obtain rfl : r.options = options := Phase.configured.inj hphase
    obtain rfl : p = q := Except.ok.inj (hplan.symm.trans hplan')
    show (r.opening.configured.prepare r.table).writer = _
    rw [hconfigured]
    exact hwriter
  have horigin : r.opening.origin = memory r.device := by
    rw [Opening.origin, hstanding]
  have hsession : r.opening.session p vlrs = r.session p vlrs := by
    rw [Opening.session, horigin]
    rfl
  have honMemory := hsettles.onMemory
  rw [horigin, hsession, hstanding] at honMemory
  rw [hconfigured] at hplan
  refine ⟨p, vlrs, hplan, hsettles.records, ?_, ?_, hsettles.inOrder, honMemory⟩
  · rw [← horigin]
    exact hsettles.capacity
  · rw [← hsession]
    exact hsettles.front

end FileRun

/-- A table of coordinates alone. -/
def PointTable.coordinates : PointTable := ⟨.xyz, none, none⟩

/-- A table of coordinates alone, in some coordinate system. -/
def PointTable.surveyed : PointTable :=
  { PointTable.coordinates with spatialReference := some (.ofText "LOCAL_CS[]") }

/-- Points at the origin. -/
def PointView.origins (size : Nat) : PointView :=
  ⟨size, fun _ _ => Double.zero, fun _ _ => List.replicate 8 0⟩

/-- Every value of theirs has eight octets, as the table declares. -/
theorem PointView.fitsLayout_origins (size : Nat) :
    (PointView.origins size).FitsLayout PointTable.coordinates.layout := by
  have hwidth : ∀ d ∈ PointTable.coordinates.layout.dimensions, 8 = d.scalar.width := by decide
  intro id d hget i _
  exact hwidth d (List.mem_of_getElem? hget)

/-- A file with automatic offsets, one record and two batches, in empty memory. -/
def FileRun.small : FileRun Memory where
  stamp := .blank
  device := .unlimited [] 0
  options := { Options.usual with
    offset := .same .automatic
    records := [⟨"origins", 1, "", "AAEC", false⟩] }
  table := .coordinates
  source := .coordinates
  views := [.origins 2, .origins 1]

theorem FileRun.completes_small : FileRun.small.Completes :=
  ⟨⟨Memory.fresh_unlimited _ 0, by decide +kernel, by decide +kernel⟩, by decide +kernel⟩

end PointCloud
