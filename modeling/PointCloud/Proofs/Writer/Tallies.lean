import PointCloud.Proofs.Writer.Opening

/-!
# The tally decides nothing

The tally of complaints is kept so that a complaint is not put too often, and so
that the finished file can be commented on.  It is spoken of in the log only:
with the tally put back to nothing at any time, every later step has the same
result and does the same to the device.

`untallied` puts the tally back, and `after_untallied` carries the fact through a
run.  Two writers that differ in their tallies alone are told apart by no step.
-/

namespace PointCloud

namespace Session

/-- The session with nothing on its tally. -/
def untallied (s : Session) : Session := { s with tally := .zero }

theorem untallied_noting (s : Session) (cs : List Returns.Complaint) (ps : List EncodedPoint) :
    ((s.noting cs).counting ps).untallied = (s.counting ps).untallied := rfl

/-- Offsets are settled alike whatever is on the tally. -/
theorem settle_untallied (s : Session) (v : PointView) :
    s.untallied.settle v = (s.settle v).untallied := by
  by_cases h : s.settled = true
  · simp [settle, untallied, h]
  · simp [settle, untallied, h, extent]

end Session

/-- What has come of a part of a batch, without what was said and what is on the tally. -/
def Progress.untallied {σ : Type} (p : Progress σ) : Progress σ :=
  ⟨p.result, p.session.untallied, p.device, []⟩

namespace Session

variable {σ : Type} [Device σ]

/-- A chunk is written alike whatever is on the tally. -/
theorem writeChunk_untallied (s : Session) (es : List Encoding) (d : σ) :
    (s.untallied.writeChunk es d).untallied = (s.writeChunk es d).untallied := by
  have hstep := s.chunkStep_writeChunk es d
  generalize s.writeChunk es d = p at hstep ⊢
  cases hstep with
  | failed fails => rw [(ChunkStep.failed fails).eq]; rfl
  | refused sound refuses => rw [(ChunkStep.refused sound refuses).eq]; rfl
  | stored sound takes => rw [(ChunkStep.stored sound takes).eq]; rfl

/-- Chunks are written alike by sessions that differ in the tally alone. -/
theorem writeChunks_untallied {s u : Session} (hu : s.untallied = u.untallied) (v : PointView)
    (chunks : List (List Nat)) (d : σ) :
    (s.writeChunks v chunks d).untallied = (u.writeChunks v chunks d).untallied := by
  induction chunks generalizing s u d with
  | nil => simp [writeChunks, Progress.untallied, hu]
  | cons chunk rest ih =>
    -- the encodings depend on the plan and the quantizer, which the two sessions share
    have hplan : s.plan = u.plan := show s.untallied.plan = u.untallied.plan by rw [hu]
    have hquantizer : s.quantizer = u.quantizer :=
      show s.untallied.quantizer = u.untallied.quantizer by rw [hu]
    let es := chunk.map (u.plan.encoder.encode u.quantizer v)
    have hfirst : (s.writeChunk es d).untallied = (u.writeChunk es d).untallied := by
      rw [← writeChunk_untallied s, ← writeChunk_untallied u, hu]
    simp only [writeChunks, hplan, hquantizer]
    rcases hs : s.writeChunk es d with ⟨r, s', d', log⟩
    rcases hu' : u.writeChunk es d with ⟨r', u', d'', log'⟩
    rw [hs, hu'] at hfirst
    simp only [Progress.untallied, Progress.mk.injEq] at hfirst
    obtain ⟨rfl, hsession, rfl, -⟩ := hfirst
    cases r with
    | error e => simp [Progress.untallied, hsession]
    | ok _ => exact ih hsession d'

/-- A batch is written alike whatever is on the tally. -/
theorem write_untallied (s : Session) (v : PointView) (d : σ) :
    (s.untallied.write v d).untallied = (s.write v d).untallied := by
  unfold write
  by_cases hsize : v.size = 0
  · simp only [hsize, if_true]
    rfl
  · have hsettle : (s.untallied.settle v).untallied = (s.settle v).untallied := by
      rw [settle_untallied]
      rfl
    simp only [hsize, if_false]
    exact writeChunks_untallied hsettle v (chunks s.chunkSize v.size) d

end Session

/-- The phase with its session changed, if it has one. -/
def Phase.mapSession (f : Session → Session) : Phase → Phase
  | .ready s lost => .ready (f s) lost
  | .writing s lost => .writing (f s) lost
  | .done s => .done (f s)
  | phase => phase

namespace Writer

variable {σ : Type}

/-- The writer with nothing on its tally. -/
def untallied (w : Writer σ) : Writer σ := { w with phase := w.phase.mapSession (·.untallied) }

end Writer

/-- What has come of a step, without what was said and what is on the tally. -/
def Outcome.untallied {σ : Type} (o : Outcome σ) : Outcome σ := ⟨o.result, o.writer.untallied, []⟩

namespace Writer

variable {σ : Type} [Device σ]

/-- A batch that a writer takes is written alike whatever is on the tally. -/
theorem writeBatch_untallied (w : Writer σ) (s : Session) (v : PointView) :
    (w.untallied.writeBatch s.untallied v).untallied = (w.writeBatch s v).untallied := by
  have hwrite := s.write_untallied v w.device
  rcases hs : s.write v w.device with ⟨r, s', d', log⟩
  rcases hu : s.untallied.write v w.device with ⟨r', u', d'', log'⟩
  rw [hs, hu] at hwrite
  simp only [Progress.untallied, Progress.mk.injEq] at hwrite
  obtain ⟨rfl, hsession, rfl, -⟩ := hwrite
  simp [writeBatch, untallied, hs, hu, Outcome.untallied, Phase.mapSession, hsession]

/-- A file is finished alike whatever is on it. -/
theorem finishSession_untallied (w : Writer σ) (s : Session) :
    (w.untallied.finishSession s.untallied).untallied = (w.finishSession s).untallied := by
  have hfinish : (finish s.untallied : DeviceTask σ Unit) = finish s := rfl
  have hdevice : w.untallied.device = w.device := rfl
  rw [finishSession, finishSession, hfinish, hdevice]
  rcases (finish s).perform w.device with ⟨r, d⟩
  rcases w with ⟨m, phase, stamp⟩
  cases r with
  | ok _ => rfl
  | error e => cases phase <;> rfl

/-- A step is carried out alike whatever is on the tally. -/
theorem perform_untallied (w : Writer σ) (c : Call) :
    (w.untallied.perform c).untallied = (w.perform c).untallied := by
  rcases w with ⟨d, phase, stamp⟩
  cases c with
  | configure o =>
    cases phase with
    | constructed =>
      simp only [perform, configure, untallied, Phase.mapSession]
    | _ => rfl
  | prepare table =>
    cases phase with
    | configured o => simp only [perform, prepare, untallied, Phase.mapSession]
    | _ => rfl
  | ready table =>
    cases phase with
    | prepared plan lost => simp only [perform, untallied, Phase.mapSession]
    | _ => rfl
  | write v =>
    cases phase with
    | ready s lost =>
      cases lost with
      | true => rfl
      | false => exact writeBatch_untallied ⟨d, .ready s false, stamp⟩ s v
    | writing s lost =>
      cases lost with
      | true => rfl
      | false => exact writeBatch_untallied ⟨d, .writing s false, stamp⟩ s v
    | _ => rfl
  | done =>
    cases phase with
    | ready s lost =>
      cases lost with
      | true => rfl
      | false => exact finishSession_untallied ⟨d, .ready s false, stamp⟩ s
    | writing s lost =>
      cases lost with
      | true => rfl
      | false => exact finishSession_untallied ⟨d, .writing s false, stamp⟩ s
    | _ => rfl

/-- **Writers that differ in their tallies alone stay so**, and every step has the same result. -/
theorem after_untallied {w u : Writer σ} (hu : w.untallied = u.untallied) (cs : List Call) :
    (w.after cs).untallied = (u.after cs).untallied ∧ w.results cs = u.results cs := by
  induction cs generalizing w u with
  | nil => exact ⟨hu, rfl⟩
  | cons c cs ih =>
    have hstep : (w.perform c).untallied = (u.perform c).untallied := by
      rw [← perform_untallied w, ← perform_untallied u, hu]
    have hresult : (w.perform c).result = (u.perform c).result :=
      show (w.perform c).untallied.result = (u.perform c).untallied.result by rw [hstep]
    obtain ⟨hafter, hresults⟩ := ih (congrArg Outcome.writer hstep)
    refine ⟨hafter, ?_⟩
    rw [results_cons, results_cons, hresult, hresults]

end Writer

end PointCloud
