import PointCloud.Proofs.Header.Settling
import PointCloud.Proofs.Points.Batches
import PointCloud.Proofs.Writer.Calls

/-!
# Opening a file

A writer that has got somewhere has done so by steps that succeeded, and a step
that succeeded has settled something.  The statements here read that off:
`planFor_eq_ok` says what a plan owes to the options and the table, and
`configure_eq_ok`, `prepare_eq_ok` and `ready_eq_ok` say from where and to where
the steps lead.

A plan that is settled stays settled whatever else is asked of the writer,
`plan?_after`.  So a writer that is ready writes by the plan of the table it was
prepared with, even if other steps were tried and refused in between.
-/

namespace PointCloud

namespace Header

/-- A header that is resolved has a kind of record that its version allows. -/
theorem resolve_eq_ok {stamp : Stamp} {o : Options} {metadata : Option Metadata} {extra : Nat}
    {header : Header} (h : (resolve stamp o metadata extra).value = .ok header) :
    header.isCompressed = o.compression ∧ ∃ formatNumber,
      recordKind header.version formatNumber extra = .ok (header.format, header.recordLength) := by
  rw [resolve_value, Except.map_eq_ok_iff] at h
  obtain ⟨kind, hkind, rfl⟩ := h
  exact ⟨rfl, _, hkind⟩

end Header

/-- What a plan owes to the options and the table that it was settled for. -/
structure Plan.SettledFor (p : Plan) (o : Options) (table : PointTable) : Prop where
  options : p.options = o
  extra : ExtraBytes.resolve table.layout o.extraDimensions = .ok p.encoder.extra
  format : p.encoder.format = p.header.format
  fields : p.encoder.fields = .ofLayout table.layout
  version_isSupported : p.header.version.isSupported = true
  format_isSupported : p.encoder.format.isSupported = true
  recordLength : p.header.recordLength = p.encoder.recordLength
  recordLength_le : p.encoder.recordLength ≤ Header.maxRecordLength

namespace Writer

/-- A plan is made of extra dimensions that are resolved and a header that is settled. -/
theorem exists_of_planFor {stamp : Stamp} {o : Options} {table : PointTable} {p : Plan}
    (h : (planFor stamp o table).value = .ok p) :
    ∃ extra header, ExtraBytes.resolve table.layout o.extraDimensions = .ok extra ∧
      (Header.resolve stamp o table.metadata extra.length).value = .ok header ∧
      p = ⟨o, header, encoderFor o table.layout header extra⟩ := by
  unfold planFor at h
  cases hextra : ExtraBytes.resolve table.layout o.extraDimensions with
  | error e => simp [hextra] at h
  | ok extra =>
    simp only [hextra, Logged.value_bind] at h
    cases hheader : (Header.resolve stamp o table.metadata extra.length).value with
    | error e => simp [hheader] at h
    | ok header =>
      simp only [hheader, Logged.value_pure, Except.ok.injEq] at h
      exact ⟨extra, header, rfl, hheader, h.symm⟩

/-- A plan is settled for the options and the table that it is made for. -/
theorem planFor_eq_ok {stamp : Stamp} {o : Options} {table : PointTable} {p : Plan}
    (h : (planFor stamp o table).value = .ok p) : p.SettledFor o table := by
  obtain ⟨extra, header, hextra, hheader, rfl⟩ := exists_of_planFor h
  obtain ⟨-, formatNumber, hkind⟩ := Header.resolve_eq_ok hheader
  obtain ⟨hversion, -, hformat, -, hlength, hle⟩ := Header.recordKind_eq_ok_iff.mp hkind
  rw [hlength] at hle
  exact ⟨rfl, hextra, rfl, rfl, hversion, hformat, hlength, hle⟩

/-- A plan is compressed if the options ask for it. -/
theorem isCompressed_of_planFor {stamp : Stamp} {o : Options} {table : PointTable} {p : Plan}
    (h : (planFor stamp o table).value = .ok p) : p.header.isCompressed = o.compression := by
  obtain ⟨extra, header, -, hheader, rfl⟩ := exists_of_planFor h
  exact (Header.resolve_eq_ok hheader).1

variable {σ : Type}

/-- Options are taken by a new writer, if they pass. -/
theorem configure_eq_ok {w : Writer σ} {o : Options} (h : (w.configure o).result = .ok ()) :
    w.phase = .constructed ∧ checkOptions o = .ok () ∧
      (w.configure o).writer = { w with phase := .configured o } := by
  rcases w with ⟨d, phase, stamp⟩
  cases phase with
  | constructed =>
    simp only [configure] at h ⊢
    cases hcheck : checkOptions o with
    | error e => simp [hcheck] at h
    | ok _ => exact ⟨trivial, rfl, rfl⟩
  | _ => simp [configure, refuse] at h

/-- A table is prepared by a writer with options, if there is a plan for it. -/
theorem prepare_eq_ok {w : Writer σ} {table : PointTable}
    (h : (w.prepare table).result = .ok ()) :
    ∃ o p, w.phase = .configured o ∧ (planFor w.stamp o table).value = .ok p ∧
      (w.prepare table).writer = { w with phase := .prepared p false } := by
  rcases w with ⟨d, phase, stamp⟩
  cases phase with
  | configured o =>
    simp only [prepare] at h ⊢
    cases hplan : (planFor stamp o table).value with
    | error e => simp [hplan] at h
    | ok p => exact ⟨o, p, rfl, hplan, rfl⟩
  | _ => simp [prepare, refuse] at h

/-- On memory, a writer gets ready by storing what stands in front of the points. -/
theorem ready_eq_ok {w : Writer Memory} {source : PointTable} (hm : w.device.capacity = none)
    (h : (w.ready source).result = .ok ()) :
    ∃ p vlrs, w.phase = .prepared p false ∧
      (fileRecords p.options source p.encoder.extra).value = .ok vlrs ∧
      let s := Session.fresh p w.device.place (.ofList vlrs)
      DeviceTask.verdict s.front = .ok () ∧
        (w.ready source).writer =
          ⟨w.device.put (DeviceTask.leading s.front), .ready s false, w.stamp⟩ := by
  rcases w with ⟨m, phase, stamp⟩
  cases phase with
  | prepared p lost =>
    cases lost with
    | true => simp [ready, refuse] at h
    | false =>
      have hopening : openDevice.perform m = (.ok m.place, m) := rfl
      simp only [ready, hopening] at h ⊢
      cases hrecords : (fileRecords p.options source p.encoder.extra).value with
      | error e => simp [hrecords] at h
      | ok vlrs =>
        let s := Session.fresh p m.place (.ofList vlrs)
        have hstore := DeviceTask.perform_storeAll s.front hm
        simp only [s] at hstore
        simp only [hrecords, hstore] at h ⊢
        refine ⟨p, vlrs, rfl, hrecords, ?_⟩
        cases hverdict : DeviceTask.verdict (Session.fresh p m.place (.ofList vlrs)).front with
        | error e => simp [hverdict] at h
        | ok _ => exact ⟨rfl, rfl⟩
  | _ => simp [ready, refuse] at h

end Writer

/-- The plan of a phase, once it is settled. -/
def Phase.plan? : Phase → Option Plan
  | .constructed | .configured _ => none
  | .prepared plan _ => some plan
  | .ready session _ | .writing session _ | .done session => some session.plan

namespace Session

variable {σ : Type} [Device σ]

/-- A chunk leaves the plan as it is. -/
theorem plan_writeChunk (s : Session) (es : List Encoding) (d : σ) :
    (s.writeChunk es d).session.plan = s.plan := by
  have hstep := s.chunkStep_writeChunk es d
  generalize s.writeChunk es d = p at hstep ⊢
  cases hstep <;> rfl

/-- Chunks leave the plan as it is. -/
theorem plan_writeChunks (s : Session) (v : PointView) (chunks : List (List Nat)) (d : σ) :
    (s.writeChunks v chunks d).session.plan = s.plan := by
  induction chunks generalizing s d with
  | nil => rfl
  | cons chunk rest ih =>
    have hfirst := s.plan_writeChunk (chunk.map (s.plan.encoder.encode s.quantizer v)) d
    simp only [writeChunks]
    split
    · exact hfirst
    · rw [ih, hfirst]

/-- A batch leaves the plan as it is. -/
theorem plan_write (s : Session) (v : PointView) (d : σ) :
    (s.write v d).session.plan = s.plan := by
  unfold write
  split
  · rfl
  · rw [plan_writeChunks, (s.settle_fixed v).1]

end Session

namespace Writer

variable {σ : Type} [Device σ]

/-- No step takes a plan back. -/
theorem plan?_perform {w : Writer σ} {p : Plan} (h : w.phase.plan? = some p) (c : Call) :
    (w.perform c).writer.phase.plan? = some p := by
  rcases w with ⟨d, phase, stamp⟩
  cases c with
  | configure o => cases phase <;> simp_all [perform, configure, refuse, Phase.plan?]
  | prepare table => cases phase <;> simp_all [perform, prepare, refuse, Phase.plan?]
  | ready table =>
    cases phase with
    | prepared plan lost =>
      cases lost with
      | true => exact h
      | false =>
        simp only [perform, ready]
        split
        · exact h
        · split
          · exact h
          · split <;> exact h
    | _ => exact h
  | write v =>
    cases phase with
    | ready s lost | writing s lost =>
      cases lost with
      | true => exact h
      | false => exact (congrArg some (s.plan_write v d)).trans h
    | _ => exact h
  | done =>
    cases phase with
    | ready s lost | writing s lost =>
      cases lost with
      | true => exact h
      | false =>
        simp only [perform, done, finishSession]
        split <;> exact h
    | _ => exact h

/-- No calls take a plan back. -/
theorem plan?_after {w : Writer σ} {p : Plan} (h : w.phase.plan? = some p) (cs : List Call) :
    (w.after cs).phase.plan? = some p := by
  induction cs generalizing w with
  | nil => exact h
  | cons c cs ih => exact ih (plan?_perform h c)

end Writer

end PointCloud
