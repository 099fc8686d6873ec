import PointCloud.Proofs.Points.AnyDevice
import PointCloud.Proofs.Writer.Finishing

/-!
# The steps of a writer on any device

A device may refuse at any time, so of a writer to a device in general only two
things are known: how its phase changes, and what it asks of the device.
`Phase.Step` lists all that a call can come to in these terms, a constructor for
each way in which a call can end.  A call is refused, or it goes on to another
phase, or it fails; and a failure leaves the phase alone, or begins the writing,
or loses the device.

`perform_step` says that nothing else happens.  Whatever is said later about all
uses of a writer is read off this list, one case for each constructor, and
carried through a run of calls by induction.
-/

namespace PointCloud

/-- The stage that a call is meant for. -/
def Call.expected : Call → Stage
  | .configure _ => .constructed
  | .prepare _ => .configured
  | .ready _ => .prepared
  | .write _ => .ready
  | .done => .writing

/-- Whether a call is taken up in a phase; if not, it is refused. -/
def Phase.takes : Phase → Call → Bool
  | .constructed, .configure _ => true
  | .configured _, .prepare _ => true
  | .prepared _ lost, .ready _ => !lost
  | .ready _ lost, .write _ | .ready _ lost, .done => !lost
  | .writing _ lost, .write _ | .writing _ lost, .done => !lost
  | _, _ => false

/-- What is asked of a device to finish a file. -/
def Session.closing (s : Session) (extended : List Octets) (header : Octets) :
    List DeviceRequest :=
  (if s.records.extended = [] then [] else .position :: DeviceRequest.storing extended) ++
    [.seek s.start, .store header, .seek (s.start + s.pointDataOffset), .flush]

open DeviceRequest (storing acquire_not_mem_storing)

/-- Finishing acquires nothing. -/
theorem Session.acquire_not_mem_closing (s : Session) (extended : List Octets) (header : Octets) :
    .acquire ∉ s.closing extended header := by
  unfold closing
  split <;> simp [acquire_not_mem_storing]

/-- All that a call can come to: what is asked of the device, the result, and the phase
afterwards. -/
inductive Phase.Step (stamp : Stamp) :
    Phase → Call → List DeviceRequest → Except Error Unit → Phase → Prop
  | refused {phase : Phase} {c : Call} (untaken : phase.takes c = false) :
    Step stamp phase c [] (.error (.wrongStage c.expected phase.stage)) phase
  | configured {o : Options} (check : Writer.checkOptions o = .ok ()) :
    Step stamp .constructed (.configure o) [] (.ok ()) (.configured o)
  | notConfigured {o : Options} {e : Error} (check : Writer.checkOptions o = .error e) :
    Step stamp .constructed (.configure o) [] (.error e) .constructed
  | prepared {o : Options} {table : PointTable} {p : Plan}
    (plan : (Writer.planFor stamp o table).value = .ok p) :
    Step stamp (.configured o) (.prepare table) [] (.ok ()) (.prepared p false)
  | notPrepared {o : Options} {table : PointTable} {e : Error}
    (plan : (Writer.planFor stamp o table).value = .error e) :
    Step stamp (.configured o) (.prepare table) [] (.error e) (.configured o)
  | opened {p : Plan} {source : PointTable} {start : Nat} {vlrs : List Vlr} {pieces : List Octets}
    (records : (fileRecords p.options source p.encoder.extra).value = .ok vlrs)
    (front : (Session.fresh p start (.ofList vlrs)).front = pieces.map .ok) :
    Step stamp (.prepared p false) (.ready source) (.acquire :: .position :: storing pieces)
      (.ok ()) (.ready (.fresh p start (.ofList vlrs)) false)
  | notOpened {p : Plan} {source : PointTable} {more : List DeviceRequest} {e : Error}
    (once : .acquire ∉ more) :
    Step stamp (.prepared p false) (.ready source) (.acquire :: more) (.error e) (.prepared p true)
  | wrote {phase : Phase} {s u : Session} {v : PointView} {result : Except Error Unit}
    {handed : List (List EncodedPoint)} (isOpen : phase.open? = some s)
    (writes : s.Writes v result u handed) :
    Step stamp phase (.write v) (storing (handed.map Session.recordsOf)) result (.writing u false)
  | finished {phase : Phase} {s : Session} {pieces : List Octets} {length : Nat} {bytes : Octets}
    (isOpen : phase.open? = some s) (back : s.back = pieces.map .ok)
    (header : s.headerBytes (s.extendedBehind length) = .ok bytes) :
    Step stamp phase .done (s.closing pieces bytes) (.ok ()) (.done s)
  | notFinished {phase : Phase} {s : Session} {more : List DeviceRequest} {e : Error}
    (isOpen : phase.open? = some s) (never : .acquire ∉ more) :
    Step stamp phase .done more (.error e) phase.losing

namespace Writer

variable {σ : Type}

/-- The writer with its device watched. -/
def watched (w : Writer σ) (rs : List DeviceRequest) : Writer (Watched σ) :=
  ⟨⟨w.device, rs⟩, w.phase, w.stamp⟩

end Writer

/-- What has come of a step, with the device watched. -/
def Outcome.watched (o : Outcome σ) (rs : List DeviceRequest) : Outcome (Watched σ) :=
  ⟨o.result, o.writer.watched rs, o.log⟩

namespace Writer

variable {σ : Type} [Device σ]

/-- A call that is not taken up is refused. -/
theorem perform_of_not_takes {w : Writer σ} {c : Call} (h : w.phase.takes c = false) :
    w.perform c = w.refuse c.expected := by
  rcases w with ⟨d, phase, stamp⟩
  cases c <;> cases phase <;> simp [Phase.takes] at h <;> try subst h
  all_goals rfl

/-- Opening a device acquires it, and then asks where it stands. -/
theorem asksAt_openDevice (d : σ) :
    ∃ more, DeviceTask.AsksAt openDevice openDevice d (.acquire :: more) ∧ .acquire ∉ more ∧
      ∀ start, (openDevice.perform d).1 = .ok start → more = [.position] := by
  have hacquire : DeviceTask.AsksAt (DeviceTask.operation Device.acquire)
      (DeviceTask.operation Device.acquire) d [.acquire] :=
    DeviceTask.asksAt_operation fun _ => rfl
  rcases hplain : (DeviceTask.operation Device.acquire).perform d with ⟨r, d'⟩
  cases r with
  | error e =>
    refine ⟨[], hacquire.bind_error hplain, List.not_mem_nil, ?_⟩
    intro start hstart
    rw [openDevice, DeviceTask.perform_bind, hplain] at hstart
    cases hstart
  | ok _ =>
    have hposition : DeviceTask.AsksAt (DeviceTask.operation Device.position)
        (DeviceTask.operation Device.position) d' [.position] :=
      DeviceTask.asksAt_operation fun _ => rfl
    exact ⟨[.position], hacquire.bind_ok hplain hposition, by simp, fun _ _ => rfl⟩

/-- The extended records are asked to be stored behind the points, if there are any. -/
theorem asks_storeExtended (s : Session) (d : σ) :
    DeviceTask.Asks (storeExtended s) (storeExtended s) d fun extended more =>
      ∃ length pieces, extended = s.extendedBehind length ∧ s.back = pieces.map .ok ∧
        more = if s.records.extended = [] then [] else .position :: storing pieces := by
  unfold storeExtended Session.extendedBehind
  by_cases hnone : s.records.extended = []
  · simp only [hnone, if_true]
    refine (DeviceTask.asks_pure none d).imp ?_
    rintro extended more ⟨rfl, rfl⟩
    exact ⟨0, [], rfl, by simp [Session.back, hnone], rfl⟩
  · simp only [hnone, if_false]
    have htask := (DeviceTask.asks_operation .position (by simp) Device.position
      d).bind fun place d' => (DeviceTask.asks_storeAll s.back d').bind
        fun _ d'' => DeviceTask.asks_pure (some (ExtendedRecords.mk (UInt64.ofNat (place - s.start))
          (UInt32.ofNat s.records.extended.length))) d''
    refine htask.imp ?_
    rintro extended more ⟨place, _, _, rfl, ⟨_, _, _, ⟨pieces, hback, rfl⟩, ⟨rfl, rfl⟩, rfl⟩, rfl⟩
    exact ⟨place - s.start, pieces, rfl, hback, by simp⟩

/-- Finishing that succeeds has asked for all there is to do. -/
theorem asks_finish (s : Session) (d : σ) :
    DeviceTask.Asks (finish s) (finish s) d fun _ more => ∃ length pieces header,
      s.back = pieces.map .ok ∧ s.headerBytes (s.extendedBehind length) = .ok header ∧
        more = s.closing pieces header := by
  have hseek : ∀ (place : Nat) (d : σ), DeviceTask.Asks (DeviceTask.operation (Device.seek place))
      (DeviceTask.operation (Device.seek place)) d fun _ more => more = [.seek place] :=
    fun place d => DeviceTask.asks_operation _ (by simp) (Device.seek place) d
  have htask := (asks_storeExtended s d).bind fun extended d =>
    (DeviceTask.asks_result (s.headerBytes extended) d).bind fun header d =>
    (hseek s.start d).bind fun _ d =>
    (DeviceTask.asks_operation (.store header) (by simp) (Device.store header) d).bind
      fun _ d => (hseek (s.start + s.pointDataOffset) d).bind fun _ d =>
    DeviceTask.asks_operation .flush (by simp) Device.flush d
  refine htask.imp ?_
  rintro _ more ⟨_, _, _, ⟨length, pieces, rfl, hback, rfl⟩, ⟨header, _, _, ⟨hheader, rfl⟩,
    ⟨_, _, _, rfl, ⟨_, _, _, rfl, ⟨_, _, _, rfl, rfl, rfl⟩, rfl⟩, rfl⟩, rfl⟩, rfl⟩
  exact ⟨length, pieces, header, hback, hheader, rfl⟩

/-- A call comes to a step in which these requests are made of the device. -/
structure Performs (w : Writer σ) (c : Call) (more : List DeviceRequest) : Prop where
  watched : ∀ rs, (w.watched rs).perform c = (w.perform c).watched (rs ++ more)
  step : w.phase.Step w.stamp c more (w.perform c).result (w.perform c).writer.phase
  stamp : (w.perform c).writer.stamp = w.stamp

/-- A call performs what its outcome shows. -/
theorem Performs.of_eq {w : Writer σ} {c : Call} {o : Outcome σ} {more : List DeviceRequest}
    (hplain : w.perform c = o) (hwatched : ∀ rs, (w.watched rs).perform c = o.watched (rs ++ more))
    (hstep : w.phase.Step w.stamp c more o.result o.writer.phase)
    (hstamp : o.writer.stamp = w.stamp) : w.Performs c more := by
  subst hplain
  exact ⟨hwatched, hstep, hstamp⟩

/-- A call that is refused asks for nothing. -/
theorem performs_refused {w : Writer σ} {c : Call} (h : w.phase.takes c = false) :
    w.Performs c [] := by
  refine .of_eq (perform_of_not_takes h) (fun rs => ?_) (.refused h) rfl
  rw [perform_of_not_takes (w := w.watched rs) h, List.append_nil]
  rfl

/-- Taking options asks for nothing. -/
theorem performs_configure (d : σ) (stamp : Stamp) (o : Options) :
    (Writer.mk d .constructed stamp).Performs (.configure o) [] := by
  cases hcheck : checkOptions o with
  | ok _ =>
    refine .of_eq (o := ⟨.ok (), ⟨d, .configured o, stamp⟩, []⟩) ?_ (fun rs => ?_)
      (.configured hcheck) rfl
    · simp [perform, configure, hcheck]
    · simp [perform, configure, watched, hcheck, Outcome.watched]
  | error e =>
    refine .of_eq (o := ⟨.error e, ⟨d, .constructed, stamp⟩, []⟩) ?_ (fun rs => ?_)
      (.notConfigured hcheck) rfl
    · simp [perform, configure, hcheck]
    · simp [perform, configure, watched, hcheck, Outcome.watched]

/-- Preparing a table asks for nothing. -/
theorem performs_prepare (d : σ) (o : Options) (stamp : Stamp) (table : PointTable) :
    (Writer.mk d (.configured o) stamp).Performs (.prepare table) [] := by
  let log := (planFor stamp o table).log
  cases hplan : (planFor stamp o table).value with
  | ok p =>
    refine .of_eq (o := ⟨.ok (), ⟨d, .prepared p false, stamp⟩, log ++ [planRemark p]⟩) ?_
      (fun rs => ?_) (.prepared hplan) rfl
    · simp [perform, prepare, hplan, log]
    · simp [perform, prepare, watched, hplan, Outcome.watched, log]
  | error e =>
    refine .of_eq (o := ⟨.error e, ⟨d, .configured o, stamp⟩, log⟩) ?_ (fun rs => ?_)
      (.notPrepared hplan) rfl
    · simp [perform, prepare, hplan, log]
    · simp [perform, prepare, watched, hplan, Outcome.watched, log]

theorem performs_ready (d : σ) (p : Plan) (stamp : Stamp) (source : PointTable) :
    ∃ more, (Writer.mk d (.prepared p false) stamp).Performs (.ready source) more := by
  let notice := Device.notice d
  have hnotice : ∀ rs, Device.notice (⟨d, rs⟩ : Watched σ) = notice := fun _ => rfl
  obtain ⟨opening, hopening, honce, hposition⟩ := asksAt_openDevice d
  rcases hopen : openDevice.perform d with ⟨r, d₁⟩
  rw [hopen] at hposition
  have hopening' : ∀ rs, openDevice.perform (⟨d, rs⟩ : Watched σ) =
      (r, ⟨d₁, rs ++ .acquire :: opening⟩) := by
    intro rs
    rw [hopening, hopen]
  cases r with
  | error e =>
    refine ⟨.acquire :: opening, .of_eq (o := ⟨.error e, ⟨d₁, .prepared p true, stamp⟩, notice⟩)
      ?_ (fun rs => ?_) (.notOpened honce) rfl⟩
    · simp [perform, ready, hopen, notice]
    · simp [perform, ready, watched, hopening', Outcome.watched, hnotice]
  | ok start =>
    obtain rfl : opening = [.position] := hposition start rfl
    let records := fileRecords p.options source p.encoder.extra
    let log := notice ++ records.log
    cases hrecords : records.value with
    | error e =>
      simp only [records] at hrecords
      refine ⟨[.acquire, .position], .of_eq (o := ⟨.error e, ⟨d₁, .prepared p true, stamp⟩, log⟩)
        ?_ (fun rs => ?_) (.notOpened (by simp)) rfl⟩
      · simp [perform, ready, hopen, hrecords, notice, log, records]
      · simp [perform, ready, watched, hopening', hrecords, Outcome.watched, hnotice, log, records]
    | ok vlrs =>
      simp only [records] at hrecords
      let s := Session.fresh p start (.ofList vlrs)
      obtain ⟨more, hstoring, hnone, hlisting⟩ := DeviceTask.asks_storeAll s.front d₁
      rcases hstore : (DeviceTask.storeAll s.front).perform d₁ with ⟨r, d₂⟩
      rw [hstore] at hlisting
      have hstoring' : ∀ rs, (DeviceTask.storeAll s.front).perform (⟨d₁, rs⟩ : Watched σ) =
          (r, ⟨d₂, rs ++ more⟩) := by
        intro rs
        rw [hstoring, hstore]
      simp only [s] at hstore hstoring'
      cases r with
      | error e =>
        refine ⟨.acquire :: .position :: more,
          .of_eq (o := ⟨.error e, ⟨d₂, .prepared p true, stamp⟩, log⟩) ?_ (fun rs => ?_)
            (.notOpened (by simp [hnone])) rfl⟩
        · simp [perform, ready, hopen, hrecords, hstore, notice, log, records]
        · simp [perform, ready, watched, hopening', hrecords, hstoring', Outcome.watched, hnotice,
            log, records]
      | ok _ =>
        obtain ⟨pieces, hpieces, rfl⟩ := hlisting () rfl
        refine ⟨.acquire :: .position :: storing pieces,
          .of_eq (o := ⟨.ok (), ⟨d₂, .ready s false, stamp⟩, log⟩) ?_ (fun rs => ?_)
            (.opened hrecords hpieces) rfl⟩
        · simp [perform, ready, hopen, hrecords, hstore, notice, log, records, s]
        · simp [perform, ready, watched, hopening', hrecords, hstoring', Outcome.watched, hnotice,
            log, records, s]

/-- A batch is handed over chunk by chunk, and the points of the chunks that are taken are
counted. -/
theorem performs_taken {w : Writer σ} {s : Session} (h : w.phase.open? = some s) (v : PointView) :
    let progress := s.write v w.device
    ∃ handed, w.Performs (.write v) (storing (handed.map Session.recordsOf)) ∧
      s.Writes v progress.result progress.session handed ∧
      (s.decided v).Counts v (Session.chunks s.chunkSize v.size) (s.takenOf v w.device)
        progress.result progress.session handed := by
  obtain ⟨handed, hwatched, hwrites, hcounts⟩ := s.write_taken v w.device
  refine ⟨handed, .of_eq (write_of_open h v) (fun rs => ?_) (.wrote h hwrites) rfl, hwrites,
    hcounts⟩
  have hother : (w.watched rs).phase.open? = some s := h
  show (w.watched rs).write v = _
  rw [write_of_open hother]
  have hbatch := hwatched rs
  simp only [writeBatch, watched, Outcome.watched, hbatch, Progress.watched]

theorem performs_write {w : Writer σ} {s : Session} (h : w.phase.open? = some s) (v : PointView) :
    ∃ more, w.Performs (.write v) more := by
  obtain ⟨handed, hperforms, -⟩ := performs_taken h v
  exact ⟨_, hperforms⟩

theorem performs_done {w : Writer σ} {s : Session} (h : w.phase.open? = some s) :
    ∃ more, w.Performs .done more := by
  obtain ⟨more, hfinishing, hnone, hlisting⟩ := asks_finish s w.device
  rcases hfinish : (finish s).perform w.device with ⟨r, d⟩
  rw [hfinish] at hlisting
  have hfinishing' : ∀ rs, (finish s).perform (⟨w.device, rs⟩ : Watched σ) =
      (r, ⟨d, rs ++ more⟩) := by
    intro rs
    rw [hfinishing, hfinish]
  have hother : ∀ rs, (w.watched rs).perform .done = (w.watched rs).finishSession s :=
    fun rs => done_of_open (w := w.watched rs) h
  refine ⟨more, ?_⟩
  cases r with
  | error e =>
    refine .of_eq (o := ⟨.error e, ⟨d, w.phase.losing, w.stamp⟩, finishRemarks s⟩)
      ((done_of_open h).trans ?_) (fun rs => ?_) (.notFinished h hnone) rfl
    · simp [finishSession, hfinish]
    · rw [hother]
      simp [finishSession, watched, hfinishing', Outcome.watched]
  | ok _ =>
    obtain ⟨length, pieces, header, hback, hheader, rfl⟩ := hlisting () rfl
    refine .of_eq (o := ⟨.ok (), ⟨d, .done s, w.stamp⟩, finishRemarks s⟩)
      ((done_of_open h).trans ?_) (fun rs => ?_) (.finished h hback hheader) rfl
    · simp [finishSession, hfinish]
    · rw [hother]
      simp [finishSession, watched, hfinishing', Outcome.watched]

/-- **Every call comes to one of the listed steps**, on any device. -/
theorem exists_performs (w : Writer σ) (c : Call) : ∃ more, w.Performs c more := by
  cases htakes : w.phase.takes c with
  | false => exact ⟨[], performs_refused htakes⟩
  | true =>
    rcases w with ⟨d, phase, stamp⟩
    cases c with
    | configure o =>
      cases phase <;> simp [Phase.takes] at htakes
      exact ⟨[], performs_configure d stamp o⟩
    | prepare table =>
      cases phase <;> simp [Phase.takes] at htakes
      exact ⟨[], performs_prepare d _ stamp table⟩
    | ready table =>
      cases phase <;> simp [Phase.takes] at htakes
      subst htakes
      exact performs_ready d _ stamp table
    | write v =>
      cases phase <;> simp [Phase.takes] at htakes <;> subst htakes <;> exact performs_write rfl v
    | done =>
      cases phase <;> simp [Phase.takes] at htakes <;> subst htakes <;> exact performs_done rfl

/-- What a call asks of the device. -/
def asked (w : Writer σ) (c : Call) : List DeviceRequest :=
  ((w.watched []).perform c).writer.device.requests

/-- What calls ask of the device, one after the other. -/
def requests (w : Writer σ) (calls : List Call) : List DeviceRequest :=
  ((w.watched []).after calls).device.requests

/-- What a call asks for is determined by the call. -/
theorem Performs.asked_eq {w : Writer σ} {c : Call} {more : List DeviceRequest}
    (h : w.Performs c more) : w.asked c = more := by
  rw [asked, h.watched]
  rfl

/-- Every call performs what it asks for. -/
theorem performs_asked (w : Writer σ) (c : Call) : w.Performs c (w.asked c) := by
  obtain ⟨more, h⟩ := w.exists_performs c
  rwa [h.asked_eq]

/-- What a call can come to, and what it asks of the device. -/
theorem perform_step (w : Writer σ) (c : Call) :
    w.phase.Step w.stamp c (w.asked c) (w.perform c).result (w.perform c).writer.phase :=
  (w.performs_asked c).step

/-- Watching the device of a writer changes nothing else. -/
theorem after_watched (w : Writer σ) (rs : List DeviceRequest) (calls : List Call) :
    (w.watched rs).after calls = (w.after calls).watched (rs ++ w.requests calls) := by
  have hall : ∃ more, ∀ rs, (w.watched rs).after calls = (w.after calls).watched (rs ++ more) := by
    induction calls generalizing w with
    | nil => exact ⟨[], fun rs => by rw [List.append_nil]; rfl⟩
    | cons c calls ih =>
      obtain ⟨more, hmore⟩ := ih (w.perform c).writer
      refine ⟨w.asked c ++ more, fun rs => ?_⟩
      rw [after_cons, (w.performs_asked c).watched, ← List.append_assoc]
      exact hmore _
  obtain ⟨more, hmore⟩ := hall
  have hrequests : w.requests calls = more := by
    rw [requests, hmore]
    rfl
  rw [hmore, hrequests]

@[simp] theorem requests_nil (w : Writer σ) : w.requests [] = [] := rfl

/-- Requests are made call by call. -/
theorem requests_cons (w : Writer σ) (c : Call) (calls : List Call) :
    w.requests (c :: calls) = w.asked c ++ (w.perform c).writer.requests calls := by
  have hafter : (w.watched []).after (c :: calls) =
      ((w.perform c).writer.watched (w.asked c)).after calls :=
    congrArg (·.writer.after calls) ((w.performs_asked c).watched [])
  rw [requests, hafter, after_watched]
  rfl

end Writer

end PointCloud
