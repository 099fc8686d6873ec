import PointCloud.Proofs.Writer.Lifecycle
import PointCloud.Proofs.Writer.Offsets

/-!
# A file that stays open

A file that has been opened stays open until a call asks to finish it.  Batches
are taken up, and every other call is refused without a change.  So what led to
the session so far leads on to the session later, with more records handed over
and all else as it was: `LeadsTo.perform` is the step and `LeadsTo.after` the run.

The first call that asks to finish a file decides about it.  Whether or not it
succeeds no call is taken up behind it, and so a call that finishes the file is
the first of its kind, `LeadsTo.not_mem_done`.
-/

namespace PointCloud

/-- An open file takes up batches and its end, and nothing else. -/
theorem Phase.takes_of_open {phase : Phase} {s : Session} (h : phase.open? = some s) {c : Call}
    (hwrite : ∀ v, c ≠ .write v) (hdone : c ≠ .done) : phase.takes c = false := by
  obtain rfl | rfl := eq_of_open? h
  all_goals
    cases c with
    | write v => exact absurd rfl (hwrite v)
    | done => exact absurd rfl hdone
    | _ => rfl

namespace FileCourse

/-- The course with more records handed over. -/
def handing (f : FileCourse) (more : List (List EncodedPoint)) : FileCourse :=
  { f with handed := f.handed ++ more }

@[simp] theorem handing_nil (f : FileCourse) : f.handing [] = f := by
  rw [handing, List.append_nil]

@[simp] theorem handing_handing (f : FileCourse) (more others : List (List EncodedPoint)) :
    (f.handing more).handing others = f.handing (more ++ others) := by
  simp [handing]

variable {σ : Type} [Device σ] {w : Writer σ} {f : FileCourse} {stamp : Stamp}
  {granted : List Call} {batches : List PointView} {asked : List DeviceRequest} {s : Session}

/-- **A call that does not finish the file continues its course.** -/
theorem LeadsTo.perform (h : f.LeadsTo stamp granted batches asked s)
    (hopen : w.phase.open? = some s) {c : Call} (hdone : c ≠ .done) :
    ∃ more u, (w.perform c).writer.phase.open? = some u ∧
      (f.handing more).LeadsTo stamp (granted ++ c.grantedBy (w.perform c).result)
        (batches ++ c.broughtAt w.stage) (asked ++ w.asked c) u := by
  by_cases hwrite : ∃ v, c = .write v
  · obtain ⟨v, rfl⟩ := hwrite
    obtain ⟨handed, hperforms, hwrites, -⟩ := Writer.performs_taken hopen v
    have hbatch : w.perform (.write v) = w.writeBatch s v := Writer.write_of_open hopen v
    have hbrought : (Call.write v).broughtAt w.stage = [v] := by
      have haccepts := Phase.acceptsPoints_of_open hopen
      rw [Call.broughtAt, show w.stage = w.phase.stage from rfl, haccepts]
      rfl
    refine ⟨handed, (s.write v w.device).session, by rw [hbatch]; rfl, ?_⟩
    rw [hperforms.asked_eq, hbrought]
    exact (h.write hwrites).grant _
  · have huntaken : w.phase.takes c = false :=
      Phase.takes_of_open hopen (fun v hv => hwrite ⟨v, hv⟩) hdone
    have hbrought : c.broughtAt w.stage = [] := by
      cases c with
      | write v => exact absurd ⟨v, rfl⟩ hwrite
      | _ => rfl
    refine ⟨[], s, ?_, ?_⟩
    · rw [Writer.perform_of_not_takes huntaken]
      exact hopen
    · rw [(Writer.performs_refused huntaken).asked_eq, hbrought, handing_nil, List.append_nil,
        List.append_nil]
      exact h.grant _

/-- **A file stays open until it is to be finished**, whatever else is called. -/
theorem LeadsTo.after (h : f.LeadsTo stamp granted batches asked s)
    (hopen : w.phase.open? = some s) {calls : List Call} (hdone : .done ∉ calls) :
    ∃ more u, (w.after calls).phase.open? = some u ∧
      (f.handing more).LeadsTo stamp (granted ++ w.granted calls) (batches ++ w.batches calls)
        (asked ++ w.requests calls) u := by
  induction calls generalizing w f granted batches asked s with
  | nil =>
    refine ⟨[], s, hopen, ?_⟩
    simpa [Writer.granted, Writer.batches] using h
  | cons c calls ih =>
    obtain ⟨hc, hrest⟩ := not_or.mp fun hmem => hdone (List.mem_cons.mpr hmem)
    obtain ⟨first, t, hopen', hfirst⟩ := h.perform hopen (Ne.symm hc)
    obtain ⟨more, u, hafter, hmore⟩ := ih hfirst hopen' hrest
    refine ⟨first ++ more, u, hafter, ?_⟩
    rw [Writer.requests_cons, Writer.granted, Writer.batches, ← List.append_assoc,
      ← List.append_assoc, ← List.append_assoc, ← handing_handing]
    exact hmore

/-- **Opening a file begins its course**: the plan that the writer was prepared with, and the source
that it is opened for. -/
theorem exists_of_ready {stamp : Stamp} {d : σ} {calls : List Call} {p : Plan}
    (hphase : ((Writer.create stamp d).after calls).phase = .prepared p false)
    {source : PointTable}
    (hready : (((Writer.create stamp d).after calls).ready source).result = .ok ()) :
    ∃ (f : FileCourse) (granted : List Call) (asked : List DeviceRequest) (s : Session),
      f.plan = p ∧ f.source = source ∧ f.LeadsTo stamp granted [] asked s ∧
        (((Writer.create stamp d).after calls).ready source).writer.phase.open? = some s := by
  have hreached := Writer.reached stamp d calls
  have hstep := ((Writer.create stamp d).after calls).perform_step (.ready source)
  have hperform : ∀ w : Writer σ, w.perform (.ready source) = w.ready source := fun _ => rfl
  rw [hperform, hready] at hstep
  rw [hphase] at hreached hstep
  obtain ⟨o, table, hconfigured, hprepared, hplan, -⟩ := hreached rfl
  generalize ((Writer.create stamp d).after calls).asked (.ready source) = more at hstep
  generalize (((Writer.create stamp d).after calls).ready source).writer.phase = after at hstep ⊢
  cases hstep with
  | opened records front =>
    exact ⟨_, .ready source :: (Writer.create stamp d).granted calls, _, _, rfl, rfl,
      leadsTo_fresh (.tail _ hconfigured) (.tail _ hprepared) (.head _) hplan records front, rfl⟩

end FileCourse

namespace Writer

variable {σ : Type} [Device σ] {w : Writer σ} {s : Session}

/-- When a file is finished, or could not be, no call is taken up any more. -/
theorem not_takes_after_done (hopen : w.phase.open? = some s) (c : Call) :
    w.done.writer.phase.takes c = false := by
  rw [done_of_open hopen, finishSession]
  rcases (finish s).perform w.device with ⟨r, d⟩
  cases r with
  | ok _ => cases c <;> rfl
  | error e => exact Phase.takes_of_isLost (Phase.isLost_losing hopen) c

end Writer

namespace FileCourse

variable {σ : Type} [Device σ] {w : Writer σ} {f : FileCourse} {stamp : Stamp}
  {granted : List Call} {batches : List PointView} {asked : List DeviceRequest} {s : Session}

/-- A call that finishes the file is the first that has asked for it. -/
theorem LeadsTo.not_mem_done (h : f.LeadsTo stamp granted batches asked s)
    (hopen : w.phase.open? = some s) {calls : List Call}
    (hdone : (w.after calls).done.result = .ok ()) : .done ∉ calls := by
  intro hmem
  obtain ⟨before, behind, rfl, hbefore⟩ := List.eq_append_cons_of_mem hmem
  obtain ⟨-, u, hopen', -⟩ := h.after hopen hbefore
  have hnever := Writer.not_takes_after_done hopen'
  have hsame : w.after (before ++ .done :: behind) = (w.after before).done.writer := by
    rw [Writer.after_append, Writer.after_cons]
    exact (Writer.after_of_not_takes hnever behind).1
  have hrefused := Writer.perform_of_not_takes (hnever .done)
  rw [hsame, show (w.after before).done.writer.done = _ from hrefused] at hdone
  cases hdone

end FileCourse

end PointCloud
