import PointCloud.Compression
import PointCloud.Device.Folder
import PointCloud.Device.Task
import PointCloud.Writer.Records
import PointCloud.Writer.Session

/-!
# Writers

A writer takes a device through the making of one file.  It is configured, then
prepared with a table, then made ready, which writes the header and the regular
records; then batches of points are written, and at last the file is finished:
the extended records follow the points, and the header is written again with the
final counts, bounds and offsets.

Each step has its stage, and is refused at any other stage without a change.  A
step that fails leaves the writer where it was, with two exceptions.  A batch
that fails still begins the writing.  And once a step that opens or finishes the
file has failed, the device is lost to the writer, and every later step is
refused.

The file begins where the device stands when it is opened, and all places in the
header count from there.
-/

namespace PointCloud

/-- How far a writer has got, and what it has settled.  The flag says that the device is lost.

A phase stands for a state of the writer together with what it holds of its output and of its
session, and there is one for each combination that arises.  `constructed`, `configured` and
`prepared _ false` hold a device that is still to be opened, and only the last of them has a
session, of which nothing but the plan is settled; with `prepared _ true` the device has been used
up by an opening that failed.  `ready _ false` and `writing _ false` hold a device that takes
points; with `true` it has been used up by finishing the file in vain.  `done` holds a device that
can be given back. -/
inductive Phase where
  | constructed
  | configured (options : Options)
  | prepared (plan : Plan) (lost : Bool)
  | ready (session : Session) (lost : Bool)
  | writing (session : Session) (lost : Bool)
  | done (session : Session)
  deriving Repr

namespace Phase

/-- The stage of a phase. -/
def stage : Phase → Stage
  | .constructed => .constructed
  | .configured _ => .configured
  | .prepared _ _ => .prepared
  | .ready _ _ => .ready
  | .writing _ _ => .writing
  | .done _ => .done

/-- The header, once it is settled. -/
def header? : Phase → Option Header
  | .constructed | .configured _ => none
  | .prepared plan _ => some plan.header
  | .ready session _ | .writing session _ | .done session => some session.plan.header

/-- The summary of the points written so far, once the header is settled. -/
def summary? : Phase → Option Summary
  | .constructed | .configured _ => none
  | .prepared plan _ => some plan.summary
  | .ready session _ | .writing session _ | .done session => some session.summary

/-- The phase after the device is lost. -/
def losing : Phase → Phase
  | .prepared plan _ => .prepared plan true
  | .ready session _ => .ready session true
  | .writing session _ => .writing session true
  | phase => phase

end Phase

/-- A writer: its device, how far it has got, and what it stamps its file with. -/
structure Writer (σ : Type) where
  device : σ
  phase : Phase
  stamp : Stamp

/-- What has come of a step. -/
structure Outcome (σ : Type) where
  result : Except Error Unit
  writer : Writer σ
  log : List LogEntry

namespace Outcome

variable {σ : Type}

/-- Goes on with another step, unless this one failed. -/
def andThen (o : Outcome σ) (step : Writer σ → Outcome σ) : Outcome σ :=
  match o.result with
  | .error _ => o
  | .ok _ =>
    let next := step o.writer
    { next with log := o.log ++ next.log }

end Outcome

namespace Writer

variable {σ : Type}

/-- A writer to a device, with nothing settled. -/
def create (stamp : Stamp) (device : σ) : Writer σ := ⟨device, .constructed, stamp⟩

/-- How far the writer has got. -/
def stage (w : Writer σ) : Stage := w.phase.stage

/-- The header, once the writer is prepared. -/
def header? (w : Writer σ) : Option Header := w.phase.header?

/-- The summary of the points written so far, once the writer is prepared. -/
def summary? (w : Writer σ) : Option Summary := w.phase.summary?

/-- A step that is refused at this stage. -/
def refuse (w : Writer σ) (expected : Stage) : Outcome σ :=
  ⟨.error (.wrongStage expected w.stage), w, []⟩

/-- Looks for what keeps options from being used. -/
def checkOptions (o : Options) : Except Error Unit :=
  if o.compression && !Compression.isAvailable then .error .compressionUnsupported
  else match Axis.all.find? fun axis => !Options.isScale (o.scale.get axis) with
    | some axis =>
      .error (.invalidOption s!"scale_{axis.letter}" (Decimal.plain (o.scale.get axis)))
    | none => .ok ()

/-- Settles the options. -/
def configure (w : Writer σ) (o : Options) : Outcome σ :=
  match w.phase with
  | .constructed =>
    match checkOptions o with
    | .ok _ => ⟨.ok (), { w with phase := .configured o }, []⟩
    | .error e => ⟨.error e, w, []⟩
  | _ => w.refuse .constructed

/-- The way points of a table become records. -/
def encoderFor (o : Options) (layout : Layout) (header : Header) (extra : ExtraBytes) :
    PointEncoder :=
  ⟨header.format, .ofLayout layout, extra, ⟨header.format.maxReturns, o.discardHighReturns⟩⟩

/-- Settles the plan of a file for a table. -/
def planFor (stamp : Stamp) (o : Options) (table : PointTable) : Logged (Except Error Plan) := do
  match ExtraBytes.resolve table.layout o.extraDimensions with
  | .error e => return .error e
  | .ok extra =>
    match ← Header.resolve stamp o table.metadata extra.length with
    | .error e => return .error e
    | .ok header => return .ok ⟨o, header, encoderFor o table.layout header extra⟩

/-- What is said about a plan. -/
def planRemark (p : Plan) : LogEntry :=
  let version := p.header.version.text
  let format := p.header.format.id.val
  .debug s!"writing las {version} point format {format} with {p.header.recordLength} byte records"

/-- Settles the header and the records of points for a table. -/
def prepare (w : Writer σ) (table : PointTable) : Outcome σ :=
  match w.phase with
  | .configured o =>
    let plan := planFor w.stamp o table
    match plan.value with
    | .ok p => ⟨.ok (), { w with phase := .prepared p false }, plan.log ++ [planRemark p]⟩
    | .error e => ⟨.error e, w, plan.log⟩
  | _ => w.refuse .configured

variable [Device σ]

/-- Opens the device and finds its place. -/
def openDevice : DeviceTask σ Nat := do
  DeviceTask.operation Device.acquire
  DeviceTask.operation Device.position

/-- Opens the device and writes what stands in front of the points. -/
def ready (w : Writer σ) (table : PointTable) : Outcome σ :=
  match w.phase with
  | .prepared plan false =>
    let notice := Device.notice w.device
    match openDevice.perform w.device with
    | (.error e, d) => ⟨.error e, { w with device := d, phase := .prepared plan true }, notice⟩
    | (.ok start, d) =>
      let records := fileRecords plan.options table plan.encoder.extra
      let log := notice ++ records.log
      match records.value with
      | .error e => ⟨.error e, { w with device := d, phase := .prepared plan true }, log⟩
      | .ok vlrs =>
        let session := Session.fresh plan start (.ofList vlrs)
        match (DeviceTask.storeAll session.front).perform d with
        | (.error e, d) => ⟨.error e, { w with device := d, phase := .prepared plan true }, log⟩
        | (.ok _, d) => ⟨.ok (), { w with device := d, phase := .ready session false }, log⟩
  | _ => w.refuse .prepared

/-- Writes a batch to the session of the writer. -/
def writeBatch (w : Writer σ) (session : Session) (view : PointView) : Outcome σ :=
  let progress := session.write view w.device
  ⟨progress.result, { w with device := progress.device, phase := .writing progress.session false },
    progress.log⟩

/-- Writes a batch of points. -/
def write (w : Writer σ) (view : PointView) : Outcome σ :=
  match w.phase with
  | .ready session false => w.writeBatch session view
  | .writing session false => w.writeBatch session view
  | _ => w.refuse .ready

/-- Writes the extended records, and says where they are. -/
def storeExtended (s : Session) : DeviceTask σ (Option ExtendedRecords) :=
  if s.records.extended = [] then pure none
  else do
    let place ← DeviceTask.operation Device.position
    DeviceTask.storeAll s.back
    return some ⟨UInt64.ofNat (place - s.start), UInt32.ofNat s.records.extended.length⟩

/-- Writes what stands behind the points and then the final header, and moves to the points. -/
def finish (s : Session) : DeviceTask σ Unit := do
  let extended ← storeExtended s
  let header ← DeviceTask.result (s.headerBytes extended)
  DeviceTask.operation (Device.seek s.start)
  DeviceTask.operation (Device.store header)
  DeviceTask.operation (Device.seek (s.start + s.pointDataOffset))
  DeviceTask.operation Device.flush

/-- What is said about a file when it is finished. -/
def finishRemarks (s : Session) : List LogEntry :=
  let version := s.plan.header.version
  let count := s.records.extended.length
  let unrecorded :=
    s!"writing {count} extended vlrs to a las {version.text} file, " ++
      "which can't record them in its header"
  .debug s!"Wrote {s.summary.count} points" :: s.tally.report ++
    (if count ≠ 0 ∧ version.has .extendedRecords = false then [.warn unrecorded] else [])

/-- Finishes the file of the session of the writer. -/
def finishSession (w : Writer σ) (session : Session) : Outcome σ :=
  match (finish session).perform w.device with
  | (.ok _, d) => ⟨.ok (), { w with device := d, phase := .done session }, finishRemarks session⟩
  | (.error e, d) =>
    ⟨.error e, { w with device := d, phase := w.phase.losing }, finishRemarks session⟩

/-- Finishes the file. -/
def done (w : Writer σ) : Outcome σ :=
  match w.phase with
  | .ready session false => w.finishSession session
  | .writing session false => w.finishSession session
  | _ => w.refuse .writing

/-- Writes a file of one batch from beginning to end. -/
def writeAll (w : Writer σ) (o : Options) (table : PointTable) (view : PointView) : Outcome σ :=
  ((((w.configure o).andThen (·.prepare table)).andThen (·.ready table)).andThen
    (·.write view)).andThen (·.done)

/-- Gives the device back, once the file is finished. -/
def intoDevice (w : Writer σ) : Except Error σ :=
  match w.phase with
  | .done _ => .ok w.device
  | _ => .error (.wrongStage .done w.stage)

end Writer

/-- A writer for the file that the options name, with the options settled. -/
def Writer.forFile (stamp : Stamp) (folder : Folder) (o : Options) :
    Except Error (Writer FileDevice) :=
  match o.filename with
  | none => .error .missingFilename
  | some path =>
    let outcome := (Writer.create stamp (FileDevice.named folder path)).configure o
    outcome.result.map fun _ => outcome.writer

end PointCloud
