import PointCloud.Proofs.Device.Reliable
import PointCloud.Proofs.Points.Chunks
import PointCloud.Writer

/-!
# Calls to a writer

A `Call` is a step that is asked of a writer, whether or not the writer is at
the right stage for it.  `after` and `results` carry out any list of calls, so
what is said of them is said of every way of using a writer.

On a reliable device a writer is in order, `InOrder`, when it has acquired the
device exactly where its phase says so.  Every call keeps that, and it does to
the memory of the device what it does to memory: `perform_onMemory` is the step
and `after_onMemory` the run.  Later files therefore argue about writers to
memory alone.
-/

namespace PointCloud

/-- A step that is asked of a writer. -/
inductive Call where
  | configure (options : Options)
  | prepare (table : PointTable)
  | ready (table : PointTable)
  | write (view : PointView)
  | done

namespace Writer

section Run

variable {σ : Type} [Device σ]

/-- Carries out a call. -/
def perform (w : Writer σ) : Call → Outcome σ
  | .configure o => w.configure o
  | .prepare table => w.prepare table
  | .ready table => w.ready table
  | .write view => w.write view
  | .done => w.done

/-- The writer after calls, whatever has come of them. -/
def after (w : Writer σ) : List Call → Writer σ
  | [] => w
  | c :: cs => (w.perform c).writer.after cs

/-- What has come of calls, one after the other. -/
def results (w : Writer σ) : List Call → List (Except Error Unit)
  | [] => []
  | c :: cs => (w.perform c).result :: (w.perform c).writer.results cs

@[simp] theorem after_nil (w : Writer σ) : w.after [] = w := rfl

@[simp] theorem after_cons (w : Writer σ) (c : Call) (cs : List Call) :
    w.after (c :: cs) = (w.perform c).writer.after cs := rfl

@[simp] theorem results_nil (w : Writer σ) : w.results [] = [] := rfl

@[simp] theorem results_cons (w : Writer σ) (c : Call) (cs : List Call) :
    w.results (c :: cs) = (w.perform c).result :: (w.perform c).writer.results cs := rfl

end Run

end Writer

open Device.Reliable (Fresh Open memory)

section OnMemory

variable {σ : Type} [Device σ] [Device.Reliable σ]

/-- A part of a batch as it looks on the memory of the device. -/
def Progress.onMemory (p : Progress σ) : Progress Memory :=
  ⟨p.result, p.session, memory p.device, p.log⟩

namespace Session

/-- A chunk does to a reliable device what it does to memory. -/
theorem writeChunk_onMemory (s : Session) (es : List Encoding) {d : σ} (hd : Open d) :
    (s.writeChunk es d).onMemory = s.writeChunk es (memory d) ∧
      Open (s.writeChunk es d).device := by
  obtain ⟨hresult, hmemory, hopen⟩ :=
    DeviceTask.storeSome_of_open (recordsOf (es.filterMap point?)) hd
  have hother := Memory.storeSome_of_capacity (Device.Reliable.capacity_of_open hd)
    (recordsOf (es.filterMap point?))
  have hstep := s.chunkStep_writeChunk es d
  generalize s.writeChunk es d = p at hstep ⊢
  cases hstep with
  | failed fails => exact ⟨(ChunkStep.failed fails).eq.symm, hd⟩
  | refused sound refuses =>
    rw [refuses] at hresult
    cases hresult
  | stored sound takes =>
    rw [takes] at hmemory hopen
    rw [← hmemory] at hother
    exact ⟨(ChunkStep.stored sound hother).eq.symm, hopen⟩

/-- Chunks do to a reliable device what they do to memory. -/
theorem writeChunks_onMemory (s : Session) (v : PointView) (chunks : List (List Nat)) {d : σ}
    (hd : Open d) :
    (s.writeChunks v chunks d).onMemory = s.writeChunks v chunks (memory d) ∧
      Open (s.writeChunks v chunks d).device := by
  induction chunks generalizing s d with
  | nil => exact ⟨rfl, hd⟩
  | cons chunk rest ih =>
    let es := chunk.map (s.plan.encoder.encode s.quantizer v)
    obtain ⟨hfirst, hopen⟩ := s.writeChunk_onMemory es hd
    rcases hp : s.writeChunk es d with ⟨r, s', d', log⟩
    rw [hp] at hfirst hopen
    simp only [es] at hp hfirst
    simp only [writeChunks, hp, ← hfirst, Progress.onMemory]
    cases r with
    | error e => exact ⟨rfl, hopen⟩
    | ok _ =>
      obtain ⟨hmore, hopen'⟩ := ih s' hopen
      simp only [← hmore]
      exact ⟨rfl, hopen'⟩

/-- A batch does to a reliable device what it does to memory. -/
theorem write_onMemory (s : Session) (v : PointView) {d : σ} (hd : Open d) :
    (s.write v d).onMemory = s.write v (memory d) ∧ Open (s.write v d).device := by
  unfold write
  by_cases hsize : v.size = 0
  · simp only [hsize, if_true]
    exact ⟨rfl, hd⟩
  · simp only [hsize, if_false]
    obtain ⟨hchunks, hopen⟩ :=
      (s.settle v).writeChunks_onMemory v (chunks s.chunkSize v.size) hd
    rw [← hchunks]
    exact ⟨rfl, hopen⟩

end Session

namespace Writer

/-- Storing the extended records does to a reliable device what it does to memory. -/
theorem follows_storeExtended (s : Session) :
    DeviceTask.Follows (storeExtended s : DeviceTask σ _) (storeExtended s) := by
  unfold storeExtended
  split
  · exact DeviceTask.follows_pure none
  · refine DeviceTask.follows_position.bind fun place => ?_
    exact (DeviceTask.follows_storeAll s.back).bind fun _ => DeviceTask.follows_pure _

/-- Finishing a file does to a reliable device what it does to memory. -/
theorem follows_finish (s : Session) :
    DeviceTask.Follows (finish s : DeviceTask σ Unit) (finish s) := by
  unfold finish
  refine (follows_storeExtended s).bind fun extended => ?_
  refine (DeviceTask.follows_result _).bind fun header => ?_
  refine (DeviceTask.follows_seek s.start).bind fun _ => ?_
  refine (DeviceTask.follows_store header).bind fun _ => ?_
  exact (DeviceTask.follows_seek _).bind fun _ => DeviceTask.follows_flush

/-- A fresh device is opened where its memory stands. -/
theorem openDevice_of_fresh {d : σ} (hd : Fresh d) :
    ∃ d', openDevice.perform d = (.ok (memory d).place, d') ∧ memory d' = memory d ∧ Open d' := by
  obtain ⟨hacquire, hmemory, hopen⟩ := Device.Reliable.acquire hd
  obtain ⟨hposition, hmemory', hopen'⟩ := Device.Reliable.position hopen
  rcases ha : Device.acquire d with ⟨r, d₁⟩
  rw [ha] at hacquire hmemory hopen hposition hmemory' hopen'
  rcases hp : Device.position d₁ with ⟨r', d₂⟩
  rw [hp] at hposition hmemory' hopen'
  subst hacquire hposition
  refine ⟨d₂, ?_, hmemory'.trans hmemory, hopen'⟩
  rw [openDevice, DeviceTask.perform_bind]
  simp [DeviceTask.perform, DeviceTask.operation, ExceptT.run, ExceptT.mk, StateT.run, ha, hp,
    hmemory]

/-- Whether the writer has acquired its device. -/
def hasOpened (w : Writer σ) : Bool :=
  match w.phase with
  | .constructed | .configured _ | .prepared _ false => false
  | _ => true

/-- Whether the device is as the phase of the writer has it. -/
def InOrder (w : Writer σ) : Prop := if w.hasOpened then Open w.device else Fresh w.device

/-- The memory of a device that is in order has no limit. -/
theorem capacity_of_inOrder {w : Writer σ} (hw : w.InOrder) :
    (memory w.device).capacity = none := by
  unfold InOrder at hw
  split at hw
  · exact Device.Reliable.capacity_of_open hw
  · exact Device.Reliable.capacity_of_fresh hw

/-- The same writer to the memory of its device. -/
def onMemory (w : Writer σ) : Writer Memory := ⟨memory w.device, w.phase, w.stamp⟩

/-- What has come of a call, as it looks on the memory of the device. -/
def Matches (o : Outcome σ) (other : Outcome Memory) : Prop :=
  o.result = other.result ∧ o.writer.onMemory = other.writer ∧ o.writer.InOrder

theorem matches_refuse {w : Writer σ} (hw : w.InOrder) (expected : Stage) :
    Matches (w.refuse expected) (w.onMemory.refuse expected) := ⟨rfl, rfl, hw⟩

/-- Options are taken alike on a device and on its memory. -/
theorem configure_onMemory {w : Writer σ} (hw : w.InOrder) (o : Options) :
    Matches (w.configure o) (w.onMemory.configure o) := by
  rcases w with ⟨d, phase, stamp⟩
  cases phase with
  | constructed =>
    simp only [configure, onMemory]
    cases checkOptions o with
    | ok _ => exact ⟨rfl, rfl, hw⟩
    | error e => exact ⟨rfl, rfl, hw⟩
  | _ => exact matches_refuse hw .constructed

/-- A table is prepared alike on a device and on its memory. -/
theorem prepare_onMemory {w : Writer σ} (hw : w.InOrder) (table : PointTable) :
    Matches (w.prepare table) (w.onMemory.prepare table) := by
  rcases w with ⟨d, phase, stamp⟩
  cases phase with
  | configured o =>
    simp only [prepare, onMemory]
    cases (planFor stamp o table).value with
    | ok p => exact ⟨rfl, rfl, hw⟩
    | error e => exact ⟨rfl, rfl, hw⟩
  | _ => exact matches_refuse hw .configured

/-- A file is opened on a device as on its memory. -/
theorem ready_onMemory {w : Writer σ} (hw : w.InOrder) (table : PointTable) :
    Matches (w.ready table) (w.onMemory.ready table) := by
  rcases w with ⟨d, phase, stamp⟩
  cases phase with
  | prepared plan lost =>
    cases lost with
    | true => exact matches_refuse hw .prepared
    | false =>
      obtain ⟨d', hopening, hmemory, hopen⟩ := openDevice_of_fresh (show Fresh d from hw)
      have hother : openDevice.perform (memory d) = (.ok (memory d).place, memory d) := rfl
      simp only [ready, onMemory, hopening, hother]
      cases (fileRecords plan.options table plan.encoder.extra).value with
      | error e => exact ⟨rfl, by simp [onMemory, hmemory], hopen⟩
      | ok vlrs =>
        let s := Session.fresh plan (memory d).place (.ofList vlrs)
        obtain ⟨hresult, hafter, hopen'⟩ := DeviceTask.follows_storeAll s.front d' hopen
        rw [hmemory] at hresult hafter
        rcases hstore : (DeviceTask.storeAll s.front).perform d' with ⟨r, d''⟩
        rcases hstore' : (DeviceTask.storeAll s.front).perform (memory d) with ⟨r', m'⟩
        rw [hstore, hstore'] at hresult hafter
        rw [hstore] at hopen'
        subst hresult hafter
        simp only [s] at hstore hstore'
        simp only [hstore, hstore']
        cases r with
        | error e => exact ⟨rfl, rfl, hopen'⟩
        | ok _ => exact ⟨rfl, rfl, hopen'⟩
  | _ => exact matches_refuse hw .prepared

/-- A batch is written to a device as to its memory, if the phase takes it. -/
theorem writeBatch_onMemory (w : Writer σ) (s : Session) (v : PointView) (hd : Open w.device) :
    Matches (w.writeBatch s v) (w.onMemory.writeBatch s v) := by
  obtain ⟨hwrite, hopen⟩ := s.write_onMemory v hd
  refine ⟨?_, ?_, hopen⟩
  · show _ = (s.write v (memory w.device)).result
    rw [← hwrite]
    rfl
  · show _ = Writer.mk (s.write v (memory w.device)).device
      (.writing (s.write v (memory w.device)).session false) w.stamp
    rw [← hwrite]
    rfl

/-- A batch comes to the same on a device and on its memory. -/
theorem write_onMemory {w : Writer σ} (hw : w.InOrder) (v : PointView) :
    Matches (w.write v) (w.onMemory.write v) := by
  rcases w with ⟨d, phase, stamp⟩
  cases phase with
  | ready s lost =>
    cases lost with
    | true => exact matches_refuse hw .ready
    | false => exact writeBatch_onMemory _ s v hw
  | writing s lost =>
    cases lost with
    | true => exact matches_refuse hw .ready
    | false => exact writeBatch_onMemory _ s v hw
  | _ => exact matches_refuse hw .ready

/-- A file is finished on a device as on its memory, if the phase takes it. -/
theorem finishSession_onMemory (w : Writer σ) (s : Session) (hd : Open w.device)
    (hphase : w.phase = .ready s false ∨ w.phase = .writing s false) :
    Matches (w.finishSession s) (w.onMemory.finishSession s) := by
  obtain ⟨hresult, hmemory, hopen⟩ := follows_finish s w.device hd
  rcases hfinish : (finish s).perform w.device with ⟨r, d'⟩
  rcases hfinish' : (finish s).perform (memory w.device) with ⟨r', m'⟩
  rw [hfinish, hfinish'] at hresult hmemory
  rw [hfinish] at hopen
  subst hresult hmemory
  simp only [finishSession, onMemory, hfinish, hfinish']
  cases r with
  | ok _ => exact ⟨rfl, rfl, hopen⟩
  | error e =>
    refine ⟨rfl, rfl, ?_⟩
    rcases hphase with hphase | hphase <;>
      simpa [InOrder, hasOpened, hphase, Phase.losing] using hopen

/-- Being done comes to the same on a device and on its memory. -/
theorem done_onMemory {w : Writer σ} (hw : w.InOrder) : Matches w.done w.onMemory.done := by
  rcases w with ⟨d, phase, stamp⟩
  cases phase with
  | ready s lost =>
    cases lost with
    | true => exact matches_refuse hw .writing
    | false => exact finishSession_onMemory _ s hw (Or.inl rfl)
  | writing s lost =>
    cases lost with
    | true => exact matches_refuse hw .writing
    | false => exact finishSession_onMemory _ s hw (Or.inr rfl)
  | _ => exact matches_refuse hw .writing

/-- **A call on a reliable device is a call on its memory.** -/
theorem perform_onMemory {w : Writer σ} (hw : w.InOrder) (c : Call) :
    Matches (w.perform c) (w.onMemory.perform c) := by
  cases c with
  | configure o => exact configure_onMemory hw o
  | prepare table => exact prepare_onMemory hw table
  | ready table => exact ready_onMemory hw table
  | write v => exact write_onMemory hw v
  | done => exact done_onMemory hw

/-- A run of calls on a reliable device is the same run on its memory. -/
theorem after_onMemory {w : Writer σ} (hw : w.InOrder) (cs : List Call) :
    (w.after cs).onMemory = w.onMemory.after cs ∧ (w.after cs).InOrder ∧
      w.results cs = w.onMemory.results cs := by
  induction cs generalizing w with
  | nil => exact ⟨rfl, hw, rfl⟩
  | cons c cs ih =>
    obtain ⟨hresult, hwriter, horder⟩ := perform_onMemory hw c
    obtain ⟨hafter, horder', hresults⟩ := ih horder
    rw [hwriter] at hafter hresults
    refine ⟨hafter, horder', ?_⟩
    rw [results_cons, results_cons, hresult, hresults]

/-- A writer to a fresh device is in order. -/
theorem inOrder_create (stamp : Stamp) {d : σ} (hd : Fresh d) : (create stamp d).InOrder := hd

end Writer

end OnMemory

end PointCloud
