import PointCloud.Proofs.Device.Replay
import PointCloud.Proofs.Writer.Course

/-!
# The contents of a file

On a reliable device a writer finds every request met, so what the course of a
file has asked for is what stands on the device: the pieces of the file, one
behind the other, from the place where the device stood when the writer was
created.  Calls that were refused or that failed in between have left no trace.
-/

namespace PointCloud

open Device.Reliable (Fresh Open memory)

/-- A batch does not move the file. -/
theorem Session.Writes.start {s u : Session} {v : PointView} {result : Except Error Unit}
    {handed : List (List EncodedPoint)} (h : s.Writes v result u handed) : u.start = s.start := by
  obtain ⟨cs, ps, rfl⟩ := h.session
  exact (s.decided_fixed v).2.1

namespace Writer

/-- The file stands at a place, or will stand there if it is opened. -/
def StandsAt (w : Writer Memory) (place : Nat) : Prop :=
  match w.phase with
  | .constructed | .configured _ | .prepared _ false => w.device.place = place
  | .prepared _ true => True
  | .ready s _ | .writing s _ | .done s => s.start = place

/-- A call leaves the file where it stands, and opening the file leaves it where the device
stood. -/
theorem standsAt_perform {w : Writer Memory} {place : Nat} (hm : w.device.capacity = none)
    (h : w.StandsAt place) (c : Call) : (w.perform c).writer.StandsAt place := by
  have hstep := w.perform_step c
  rcases w with ⟨m, phase, stamp⟩
  generalize (Writer.mk m phase stamp).asked c = more at hstep
  generalize hphase : ((Writer.mk m phase stamp).perform c).writer.phase = after at hstep
  generalize hresult : ((Writer.mk m phase stamp).perform c).result = result at hstep
  have hopen : ∀ {s : Session}, phase.open? = some s → s.start = place := by
    intro s hs
    obtain rfl | rfl := Phase.eq_of_open? hs
    · exact h
    · exact h
  have hthere : ∀ {s : Session},
      after = .ready s false ∨ after = .writing s false ∨ after = .done s → s.start = place →
        ((Writer.mk m phase stamp).perform c).writer.StandsAt place := by
    intro s hs hstart
    unfold StandsAt
    rw [hphase]
    rcases hs with rfl | rfl | rfl <;> exact hstart
  cases hstep with
  | refused untaken =>
    rw [perform_of_not_takes untaken]
    exact h
  | configured check | notConfigured check =>
    simp only [perform, configure, check]
    exact h
  | prepared plan | notPrepared plan =>
    simp only [perform, prepare, plan]
    exact h
  | opened records front =>
    obtain ⟨q, vlrs, -, -, -, hwriter⟩ := ready_eq_ok hm hresult
    rw [show (Writer.mk m _ stamp).perform (.ready _) = (Writer.mk m _ stamp).ready _ from rfl,
      hwriter]
    exact h
  | notOpened once =>
    unfold StandsAt
    rw [hphase]
    trivial
  | wrote isOpen writes =>
    exact hthere (Or.inr (Or.inl rfl)) (writes.start.trans (hopen isOpen))
  | finished isOpen back header => exact hthere (Or.inr (Or.inr rfl)) (hopen isOpen)
  | notFinished isOpen never =>
    have hstart := hopen isOpen
    unfold StandsAt
    rw [hphase]
    obtain rfl | rfl := Phase.eq_of_open? isOpen <;> exact hstart

/-- Calls leave the file where it stands. -/
theorem standsAt_after {w : Writer Memory} {place : Nat} (hm : w.device.capacity = none)
    (h : w.StandsAt place) (calls : List Call) : (w.after calls).StandsAt place := by
  induction calls generalizing w with
  | nil => exact h
  | cons c calls ih =>
    obtain ⟨-, -, horder⟩ := perform_onMemory (w := w) (by unfold InOrder; split <;> exact hm) c
    exact ih (capacity_of_inOrder horder) (standsAt_perform hm h c)

variable {σ : Type} [Device σ] [Device.Reliable σ]

/-- On a reliable device, calls do to the memory what they ask for. -/
theorem memory_after {w : Writer σ} (hw : w.InOrder) (calls : List Call) :
    memory (w.after calls).device = (memory w.device).replay (w.requests calls) := by
  let := Watched.reliable (σ := σ) (memory w.device)
  have hwatched : (w.watched []).InOrder := by
    unfold InOrder at hw ⊢
    have hopened : (w.watched []).hasOpened = w.hasOpened := rfl
    rw [hopened]
    split
    · next h =>
      rw [if_pos h] at hw
      exact ⟨hw, rfl⟩
    · next h =>
      rw [if_neg h] at hw
      exact ⟨hw, rfl⟩
  obtain ⟨-, horder, -⟩ := after_onMemory hwatched calls
  rw [after_watched] at horder
  unfold InOrder at horder
  split at horder
  · exact horder.2
  · exact horder.2

end Writer

namespace FileCourse

variable {f : FileCourse} {stamp : Stamp} {granted : List Call} {batches : List PointView}
  {asked : List DeviceRequest} {s : Session} {parts : FileParts}

/-- What has been asked for up to now is the front of the file and the records behind it. -/
theorem replay_requests (f : FileCourse) (m : Memory) :
    m.replay f.requests = m.put (f.front.flatten ++ Session.recordsOf f.handed.flatten) := by
  have hrecords :
      (f.handed.map Session.recordsOf).flatten = Session.recordsOf f.handed.flatten := by
    simp only [Session.recordsOf, List.flatten_eq_flatMap, List.flatMap_assoc, List.flatMap_map, id]
  have hopening : m.replay f.requests =
      (m.replay (DeviceRequest.storing f.front)).replay
        (DeviceRequest.storing (f.handed.map Session.recordsOf)) := by
    rw [← Memory.replay_append]
    rfl
  rw [hopening, Memory.replay_storing, Memory.replay_storing, Memory.put_put, hrecords]

/-- Finishing puts the extended records behind the points, and the header over the first one. -/
theorem Finishes.replay (h : f.Finishes stamp granted batches asked s parts) {m : Memory}
    (hm : m.capacity = none) (hstart : s.start = m.place) :
    m.replay asked =
      ⟨Memory.overwrite m.content m.place parts.bytes, m.place + s.pointDataOffset, none⟩ := by
  obtain ⟨first, hfront, hlength⟩ := h.front
  let stored := f.front.flatten ++ Session.recordsOf parts.points ++ parts.extended.flatten
  have hextended : ∀ n : Memory, n.replay (if s.records.extended = [] then []
      else .position :: DeviceRequest.storing parts.extended) = n.put parts.extended.flatten := by
    intro n
    split
    · next hnone =>
      have hpieces := h.extended
      rw [hnone] at hpieces
      rw [List.forall₂_nil_left_iff.mp hpieces]
      rfl
    · exact n.replay_storing parts.extended
  have hreplay : m.replay asked =
      (((m.put stored).seek m.place).put parts.header.bytes).seek
        (m.place + s.pointDataOffset) := by
    rw [h.asked, Session.closing, Memory.replay_append, Memory.replay_append, replay_requests,
      hextended, Memory.put_put, ← h.points, hstart]
    rfl
  have hstored : stored = first ++ (parts.regular.flatten ++ parts.mark ++
      Session.recordsOf parts.points ++ parts.extended.flatten) := by
    simp [stored, hfront, List.append_assoc]
  have hle : parts.header.bytes.length ≤ stored.length := by
    rw [hstored, List.length_append, hlength]
    omega
  have hpos : parts.header.bytes ≠ [] := by
    intro hnil
    have hsize := parts.header.length_bytes
    have hheader := parts.header.version.headerSize_pos
    rw [hnil, List.length_nil] at hsize
    omega
  have hdrop : parts.header.bytes ++ stored.drop parts.header.bytes.length = parts.bytes := by
    rw [hstored, ← hlength, List.drop_left]
    simp only [FileParts.bytes, FileParts.front, FileParts.pointBytes, List.append_assoc]
  rw [hreplay, Memory.put_front s.pointDataOffset hle hpos hm, hdrop]

end FileCourse

namespace Writer

variable {σ : Type} [Device σ] [Device.Reliable σ]

/-- **On a reliable device the pieces of a finished file stand behind one another** from where the
device stood, and the device is left at the points. -/
theorem memory_of_finishes {stamp : Stamp} {d : σ} (hd : Fresh d) {calls : List Call} {s : Session}
    (hphase : ((create stamp d).after calls).phase = .done s) {f : FileCourse} {parts : FileParts}
    {granted : List Call} {batches : List PointView}
    (h : f.Finishes stamp granted batches ((create stamp d).requests calls) s parts) :
    memory ((create stamp d).after calls).device =
      ⟨Memory.overwrite (memory d).content (memory d).place parts.bytes,
        (memory d).place + s.pointDataOffset, none⟩ := by
  have horder := inOrder_create stamp hd
  have hm : (memory d).capacity = none := capacity_of_inOrder horder
  obtain ⟨honMemory, -, -⟩ := after_onMemory horder calls
  have hstands : ((create stamp d).after calls).onMemory.StandsAt (memory d).place := by
    rw [honMemory]
    have hcreated : (create stamp d).onMemory.StandsAt (memory d).place := rfl
    exact standsAt_after hm hcreated calls
  have hstart : s.start = (memory d).place := by
    have hdone : ((create stamp d).after calls).onMemory.phase = .done s := hphase
    unfold StandsAt at hstands
    rw [hdone] at hstands
    exact hstands
  exact (memory_after horder calls).trans (h.replay hm hstart)

end Writer

/-- A session is finished only when all is done. -/
theorem Phase.eq_of_finished? {phase : Phase} {s : Session} (h : phase.finished? = some s) :
    phase = .done s := by
  cases phase with
  | done t =>
    obtain rfl : t = s := Option.some.inj h
    rfl
  | _ => cases h

/-- A writer has finished a file in the course of calls.  It has asked for the pieces of the file,
and on a reliable device they stand there. -/
structure FileCourse.Delivers {σ : Type} [Device σ] (f : FileCourse) (stamp : Stamp) (d : σ)
    (calls : List Call) (s : Session) (parts : FileParts) : Prop where
  finishes : f.Finishes stamp ((Writer.create stamp d).granted calls)
    ((Writer.create stamp d).batches calls) ((Writer.create stamp d).requests calls) s parts
  memory : ∀ [Device.Reliable σ], Fresh d → memory ((Writer.create stamp d).after calls).device =
    ⟨Memory.overwrite (memory d).content (memory d).place parts.bytes,
      (memory d).place + s.pointDataOffset, none⟩

end PointCloud
